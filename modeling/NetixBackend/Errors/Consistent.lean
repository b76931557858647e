import NetixBackend.Errors.Messages

/-!
The messages of the consistent envelope against the leaves of the error.

`_iter_consistent_messages` threads a path through a tree. What it is handed at
a leaf depends on the steps down to the leaf alone, so the walk is the list of
leaves, each with its steps, and one spelling of the steps for all of them.
-/

namespace NetixBackend.Errors

namespace ErrorValue

/-- `isinstance(value, (dict, list, tuple))` -/
def isContainer : ErrorValue → Bool
  | .dict _ => true
  | .seq kind _ => kind ≠ .set
  | _ => false

end ErrorValue

/-- The path of a value under a key. DRF's generic keys describe the error,
rather than a form field. -/
def keyPath (path key : String) : String :=
  if key ∈ ["detail", "message"] then path
  else if path ≠ "" then path ++ "." ++ key
  else key

/-- The path of an item of a list or tuple. -/
def itemPath (path : String) (index : ℕ) (item : ErrorValue) : String :=
  if path ≠ "" ∧ item.isContainer then path ++ "[" ++ toString index ++ "]" else path

def withPath (path message : String) : String :=
  if path ≠ "" then path ++ ": " ++ message else message

section

variable (render : ErrorValue → String)

/-- What a value that is walked no further has to say. -/
def ErrorValue.message : ErrorValue → Option String
  | .none => Option.none
  | value =>
      let message := value.str render
      if message ≠ "" then some message else Option.none

mutual
/-- Walk DRF error details; a set is a leaf like any other. -/
def iterConsistentMessages : ErrorValue → String → List String
  | .dict entries, path => iterEntries entries path
  | .seq .list items, path => iterItems items 0 path
  | .seq .tuple items, path => iterItems items 0 path
  | value, path => (value.message render).toList.map (withPath path)

def iterEntries : List (String × ErrorValue) → String → List String
  | [], _ => []
  | (key, item) :: rest, path =>
      iterConsistentMessages item (keyPath path key) ++ iterEntries rest path

/-- The items from an index on. -/
def iterItems : List ErrorValue → ℕ → String → List String
  | [], _, _ => []
  | item :: rest, index, path =>
      iterConsistentMessages item (itemPath path index item) ++ iterItems rest (index + 1) path
end

/-- `consistent_messages(exc)` -/
def consistentMessages : Raised → List String
  | .http404 => [http404Message]
  | .validationError _ detail => iterConsistentMessages render detail ""
  | .other detail message text =>
      iterConsistentMessages render (detailOf render detail message text) ""

/-! ### Leaves -/

/-- A step down: to the value of a key, or to a container that is an item. -/
inductive PathStep
  | key (key : String)
  | index (index : ℕ)
  deriving DecidableEq, Repr

/-- A leaf that has something to say, and the steps down to it. -/
structure Leaf where
  steps : List PathStep
  text : String
  deriving DecidableEq, Repr

def Leaf.below (step : PathStep) (leaf : Leaf) : Leaf := { leaf with steps := step :: leaf.steps }

/-- An item that is no container is reached without a step. -/
def itemLeaves (index : ℕ) (item : ErrorValue) (leaves : List Leaf) : List Leaf :=
  if item.isContainer then leaves.map (Leaf.below (.index index)) else leaves

mutual
/-- The leaves that are not `None` and whose text is not empty, depth first. -/
def leaves : ErrorValue → List Leaf
  | .dict entries => entryLeaves entries
  | .seq .list items => leavesFrom items 0
  | .seq .tuple items => leavesFrom items 0
  | value => (value.message render).toList.map fun text => ⟨[], text⟩

def entryLeaves : List (String × ErrorValue) → List Leaf
  | [] => []
  | (key, item) :: rest => (leaves item).map (Leaf.below (.key key)) ++ entryLeaves rest

def leavesFrom : List ErrorValue → ℕ → List Leaf
  | [], _ => []
  | item :: rest, index => itemLeaves index item (leaves item) ++ leavesFrom rest (index + 1)
end

end

/-- One step of a path. What the index of an item adds to an empty path is
`bare`. -/
def spell (bare : ℕ → String) (path : String) : PathStep → String
  | .key key => keyPath path key
  | .index index => if path ≠ "" then path ++ "[" ++ toString index ++ "]" else bare index

/-- The path of a leaf, as the code has it: an index adds nothing to an empty
path. -/
def pathFrom (path : String) (steps : List PathStep) : String :=
  steps.foldl (spell fun _ => "") path

def Leaf.messageAt (leaf : Leaf) (path : String) : String :=
  withPath (pathFrom path leaf.steps) leaf.text

variable {render : ErrorValue → String}

theorem pathFrom_cons (path : String) (step : PathStep) (steps : List PathStep) :
    pathFrom path (step :: steps) = pathFrom (spell (fun _ => "") path step) steps := rfl

theorem pathFrom_append (path : String) (above below : List PathStep) :
    pathFrom path (above ++ below) = pathFrom (pathFrom path above) below :=
  List.foldl_append

theorem itemPath_of_container {item : ErrorValue} (h : item.isContainer = true) (path : String)
    (index : ℕ) : itemPath path index item = spell (fun _ => "") path (.index index) := by
  by_cases hpath : path = ""
  · simp [itemPath, spell, hpath]
  · simp [itemPath, spell, hpath, h]

theorem map_itemLeaves (path : String) (index : ℕ) (item : ErrorValue) (leaves : List Leaf) :
    (itemLeaves index item leaves).map (·.messageAt path) =
      leaves.map (·.messageAt (itemPath path index item)) := by
  unfold itemLeaves
  split
  · next hcontainer =>
      rw [List.map_map, itemPath_of_container hcontainer]
      rfl
  · next hleaf => simp [itemPath, hleaf]

/-- What holds of the values that are walked no further holds of any value that
is no container. -/
@[elab_as_elim]
theorem ErrorValue.of_leaf {motive : ErrorValue → Prop} (set : ∀ items, motive (.seq .set items))
    (none : motive .none) (text : ∀ s, motive (.text s))
    (scalar : ∀ truthy shown, motive (.scalar truthy shown)) {value : ErrorValue}
    (h : value.isContainer = false) : motive value := by
  cases value with
  | dict entries => cases h
  | seq kind items =>
      cases kind with
      | list => cases h
      | tuple => cases h
      | set => exact set items
  | none => exact none
  | text s => exact text s
  | scalar truthy shown => exact scalar truthy shown

theorem leaves_of_leaf {value : ErrorValue} (h : value.isContainer = false) :
    leaves render value = (value.message render).toList.map fun text => ⟨[], text⟩ := by
  refine ErrorValue.of_leaf (fun items => ?_) ?_ (fun s => ?_) (fun truthy shown => ?_) h
  all_goals rw [leaves] <;> simp

theorem iterConsistentMessages_of_leaf {value : ErrorValue} (h : value.isContainer = false)
    (path : String) :
    iterConsistentMessages render value path =
      (leaves render value).map (·.messageAt path) := by
  have hmap : ((value.message render).toList.map fun text => (⟨[], text⟩ : Leaf)).map
      (·.messageAt path) = (value.message render).toList.map (withPath path) := by
    rw [List.map_map]
    rfl
  rw [leaves_of_leaf h, hmap]
  refine ErrorValue.of_leaf (fun items => ?_) ?_ (fun s => ?_) (fun truthy shown => ?_) h
  all_goals rw [iterConsistentMessages] <;> simp

mutual
/-- The walk is the leaves, each with its path. -/
theorem iterConsistentMessages_eq : ∀ (value : ErrorValue) (path : String),
    iterConsistentMessages render value path = (leaves render value).map (·.messageAt path)
  | .dict entries, path => by
      rw [iterConsistentMessages, leaves, iterEntries_eq entries path]
  | .seq .list items, path => by
      rw [iterConsistentMessages, leaves, iterItems_eq items 0 path]
  | .seq .tuple items, path => by
      rw [iterConsistentMessages, leaves, iterItems_eq items 0 path]
  | .seq .set _, path => iterConsistentMessages_of_leaf rfl path
  | .none, path => iterConsistentMessages_of_leaf rfl path
  | .text _, path => iterConsistentMessages_of_leaf rfl path
  | .scalar _ _, path => iterConsistentMessages_of_leaf rfl path

theorem iterEntries_eq : ∀ (entries : List (String × ErrorValue)) (path : String),
    iterEntries render entries path = (entryLeaves render entries).map (·.messageAt path)
  | [], _ => rfl
  | (key, item) :: rest, path => by
      rw [iterEntries, entryLeaves, List.map_append, List.map_map,
        iterConsistentMessages_eq item, iterEntries_eq rest path]
      rfl

theorem iterItems_eq : ∀ (items : List ErrorValue) (index : ℕ) (path : String),
    iterItems render items index path = (leavesFrom render items index).map (·.messageAt path)
  | [], _, _ => rfl
  | item :: rest, index, path => by
      rw [iterItems, leavesFrom, List.map_append, map_itemLeaves, iterConsistentMessages_eq item,
        iterItems_eq rest (index + 1) path]
end

mutual
/-- How Python writes a list, a tuple or a dict is not read. -/
theorem leaves_congr {render' : ErrorValue → String}
    (h : ∀ items, render' (.seq .set items) = render (.seq .set items)) :
    ∀ value : ErrorValue, leaves render' value = leaves render value
  | .dict entries => by rw [leaves, leaves, entryLeaves_congr h entries]
  | .seq .list items => by rw [leaves, leaves, leavesFrom_congr h items 0]
  | .seq .tuple items => by rw [leaves, leaves, leavesFrom_congr h items 0]
  | .seq .set items => by
      have hmessage : (ErrorValue.seq .set items).message render' =
          (ErrorValue.seq .set items).message render := by
        change (if render' (.seq .set items) ≠ "" then some (render' (.seq .set items)) else none) = _
        rw [h items]
        rfl
      rw [leaves_of_leaf rfl, leaves_of_leaf rfl, hmessage]
  | .none => by
      rw [leaves_of_leaf rfl, leaves_of_leaf rfl]
      rfl
  | .text s => by
      rw [leaves_of_leaf rfl, leaves_of_leaf rfl]
      rfl
  | .scalar truthy shown => by
      rw [leaves_of_leaf rfl, leaves_of_leaf rfl]
      rfl

theorem entryLeaves_congr {render' : ErrorValue → String}
    (h : ∀ items, render' (.seq .set items) = render (.seq .set items)) :
    ∀ entries : List (String × ErrorValue), entryLeaves render' entries = entryLeaves render entries
  | [] => rfl
  | (_, item) :: rest => by
      rw [entryLeaves, entryLeaves, leaves_congr h item, entryLeaves_congr h rest]

theorem leavesFrom_congr {render' : ErrorValue → String}
    (h : ∀ items, render' (.seq .set items) = render (.seq .set items)) :
    ∀ (items : List ErrorValue) (index : ℕ),
      leavesFrom render' items index = leavesFrom render items index
  | [], _ => rfl
  | item :: rest, index => by
      rw [leavesFrom, leavesFrom, leaves_congr h item, leavesFrom_congr h rest (index + 1)]
end

/-- One message for each leaf, in order, under its path. What an index adds to
an empty path is left open. -/
theorem consistent_messages_of_leaves (render : ErrorValue → String) (value : ErrorValue) :
    (∃ bare : ℕ → String, iterConsistentMessages render value "" =
      (leaves render value).map fun leaf =>
        withPath (leaf.steps.foldl (spell bare) "") leaf.text) ∧
    ∀ render' : ErrorValue → String,
      (∀ items, render' (.seq .set items) = render (.seq .set items)) →
      iterConsistentMessages render' value "" = iterConsistentMessages render value "" := by
  refine ⟨⟨fun _ => "", iterConsistentMessages_eq value ""⟩, fun render' h => ?_⟩
  rw [iterConsistentMessages_eq, iterConsistentMessages_eq, leaves_congr h]

/-! Keys joined by dots, whatever the keys. -/

/-- A step of a path that is there once it has a key or an index. -/
def joinStep (path : Option String) : PathStep → Option String
  | .key key =>
      if key ∈ ["detail", "message"] then path
      else some (match path with
        | some path => path ++ "." ++ key
        | none => key)
  | .index index => some (path.getD "" ++ "[" ++ toString index ++ "]")

def joinedPath (steps : List PathStep) : String := (steps.foldl joinStep none).getD ""

/-- After an empty key there is no dot. -/
theorem empty_key_undotted :
    iterConsistentMessages (fun _ => "") (.dict [("", .dict [("a", .text "x")])]) "" = ["a: x"] ∧
      iterConsistentMessages (fun _ => "") (.dict [("", .dict [("a", .text "x")])]) "" ≠
        (leaves (fun _ => "") (.dict [("", .dict [("a", .text "x")])])).map fun leaf =>
          withPath (joinedPath leaf.steps) leaf.text := by
  decide

end NetixBackend.Errors
