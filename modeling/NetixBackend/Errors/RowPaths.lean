import NetixBackend.Errors.Consistent

/-!
Which row a message is about.

The index of a row is printed after a path that has begun, and a path begins at
the first key that names a field: one that is not empty and not one of DRF's
generic keys. Below such a key every row has messages of its own. A bulk body
has no such key: its rows are the items of the detail itself, and the same
error says the same in each of them.
-/

namespace NetixBackend.Errors

/-- A key with which a path begins. -/
def NamesField (key : String) : Prop := key ∉ ["detail", "message"] ∧ key ≠ ""

instance (key : String) : Decidable (NamesField key) := inferInstanceAs (Decidable (_ ∧ _))

/-- The detail of a `many=True` serializer of `n` rows, one of them in error. -/
def bulkDetail (n row : ℕ) (error : ErrorValue) : ErrorValue :=
  .seq .list ((List.replicate n (.dict [])).set row error)

/-- A value under a key of a key of a key. -/
def under (keys : List String) (value : ErrorValue) : ErrorValue :=
  keys.foldr (fun key value => .dict [(key, value)]) value

variable {render : ErrorValue → String}

/-! ### Paths -/

theorem append_ne_empty_left {p : String} (h : p ≠ "") (q : String) : p ++ q ≠ "" := by
  intro happend
  exact h (String.append_eq_empty_iff.mp happend).1

theorem keyPath_ne_empty_iff (path key : String) :
    keyPath path key ≠ "" ↔ path ≠ "" ∨ NamesField key := by
  unfold keyPath NamesField
  split
  · next hgeneric => simp [hgeneric]
  · next hfield =>
      split
      · next hpath =>
          have hdotted : path ++ "." ++ key ≠ "" :=
            append_ne_empty_left (append_ne_empty_left hpath ".") key
          simp [hdotted, hpath]
      · next hpath =>
          have hempty : path = "" := not_not.mp hpath
          simp [hfield, hempty]

/-- A path has begun when one of its keys names a field. -/
theorem pathFrom_ne_empty_iff (path : String) (steps : List PathStep) :
    pathFrom path steps ≠ "" ↔ path ≠ "" ∨ ∃ key, .key key ∈ steps ∧ NamesField key := by
  induction steps generalizing path with
  | nil => simp [pathFrom]
  | cons step steps ih =>
      rw [pathFrom_cons, ih]
      cases step with
      | key key =>
          rw [spell, keyPath_ne_empty_iff, or_assoc]
          simp only [List.mem_cons, PathStep.key.injEq]
          constructor
          · rintro (hpath | hfield | ⟨key', hmem, hfield⟩)
            · exact .inl hpath
            · exact .inr ⟨key, .inl rfl, hfield⟩
            · exact .inr ⟨key', .inr hmem, hfield⟩
          · rintro (hpath | ⟨key', rfl | hmem, hfield⟩)
            · exact .inl hpath
            · exact .inr (.inl hfield)
            · exact .inr (.inr ⟨key', hmem, hfield⟩)
      | index index =>
          have hspell : spell (fun _ => "") path (.index index) ≠ "" ↔ path ≠ "" := by
            by_cases hpath : path = ""
            · simp [spell, hpath]
            · simp [spell, hpath]
          simp [hspell]

/-- What follows a path that has begun does not depend on it. -/
theorem pathFrom_of_begun (steps : List PathStep) :
    ∃ rest : String, ∀ path, path ≠ "" → pathFrom path steps = path ++ rest := by
  induction steps with
  | nil => exact ⟨"", fun path _ => String.append_empty.symm⟩
  | cons step steps ih =>
      obtain ⟨rest, hrest⟩ := ih
      have hstep : ∃ text : String, ∀ path, path ≠ "" →
          spell (fun _ => "") path step = path ++ text := by
        cases step with
        | key key =>
            by_cases hgeneric : key ∈ ["detail", "message"]
            · exact ⟨"", fun path _ => by simp [spell, keyPath, hgeneric]⟩
            · exact ⟨"." ++ key, fun path hpath => by
                simp [spell, keyPath, hgeneric, hpath, String.append_assoc]⟩
        | index index =>
            exact ⟨"[" ++ toString index ++ "]", fun path hpath => by
              simp [spell, hpath, String.append_assoc]⟩
      obtain ⟨text, htext⟩ := hstep
      refine ⟨text ++ rest, fun path hpath => ?_⟩
      rw [pathFrom_cons, htext path hpath, hrest _ (append_ne_empty_left hpath text),
        String.append_assoc]

/-- A longer path stays longer. -/
theorem length_pathFrom_lt {p q : String} (h : p.length < q.length) (steps : List PathStep) :
    (pathFrom p steps).length < (pathFrom q steps).length := by
  induction steps generalizing p q with
  | nil => exact h
  | cons step steps ih =>
      rw [pathFrom_cons, pathFrom_cons]
      apply ih
      have hpos : 0 < q.length := by omega
      have hq : q ≠ "" := by
        rintro rfl
        simp at hpos
      cases step with
      | key key =>
          by_cases hgeneric : key ∈ ["detail", "message"]
          · simpa [spell, keyPath, hgeneric] using h
          · by_cases hp : p = ""
            · simp [spell, keyPath, hgeneric, hp, hq]
              omega
            · simp [spell, keyPath, hgeneric, hp, hq]
              omega
      | index index =>
          by_cases hp : p = ""
          · simp [spell, hp, hq]
            omega
          · simp [spell, hp, hq]
            omega

theorem append_right_cancel {p q rest : String} (h : p ++ rest = q ++ rest) : p = q := by
  have hlist := congrArg String.toList h
  rw [String.toList_append, String.toList_append] at hlist
  exact String.toList_injective (List.append_cancel_right hlist)

theorem withPath_inj {p q text : String} : withPath p text = withPath q text ↔ p = q := by
  refine ⟨fun h => ?_, fun h => by rw [h]⟩
  have hlength := congrArg String.length h
  by_cases hp : p = "" <;> by_cases hq : q = ""
  · rw [hp, hq]
  · simp [withPath, hp, hq] at hlength
  · simp [withPath, hp, hq] at hlength
  · simp only [withPath, ne_eq, hp, hq, not_false_eq_true, if_true] at h
    exact append_right_cancel (append_right_cancel h)

/-- The path of an item with its index printed. -/
def indexed (path : String) (index : ℕ) : String := path ++ "[" ++ toString index ++ "]"

theorem spell_index_of_begun {path : String} (h : path ≠ "") (index : ℕ) :
    spell (fun _ => "") path (.index index) = indexed path index := by
  simp [spell, indexed, h]

theorem indexed_ne_empty (path : String) (index : ℕ) : indexed path index ≠ "" := by
  intro h
  have hlength := congrArg String.length h
  simp [indexed] at hlength

theorem toString_nat_injective {i j : ℕ} (h : toString i = toString j) : i = j := by
  rw [Nat.toString_eq_ofList_toDigits, Nat.toString_eq_ofList_toDigits] at h
  have hdigits := String.ofList_injective h
  rw [← @Nat.ofDigitChars_ten_toDigits i, hdigits, Nat.ofDigitChars_ten_toDigits]

theorem indexed_injective {path : String} {i j : ℕ} (h : indexed path i = indexed path j) :
    i = j := by
  have hnumber := append_right_cancel h
  rw [String.append_right_inj] at hnumber
  exact toString_nat_injective hnumber

/-- An index is printed on a path that has begun, and on no other. -/
theorem index_printed_iff (path : String) (index : ℕ) (below : List PathStep) :
    pathFrom path (.index index :: below) = pathFrom (indexed path index) below ↔ path ≠ "" := by
  rw [pathFrom_cons]
  constructor
  · rintro h rfl
    have hlonger : ("" : String).length < (indexed "" index).length := by
      apply Nat.pos_of_ne_zero
      intro hzero
      exact indexed_ne_empty "" index (String.length_eq_zero_iff.mp hzero)
    have hlt := length_pathFrom_lt hlonger below
    rw [← h] at hlt
    exact absurd hlt (Nat.lt_irrefl _)
  · intro hpath
    rw [spell_index_of_begun hpath]

theorem indexed_rows_differ {path : String} (hpath : path ≠ "") {i j : ℕ} (hij : i ≠ j)
    (below : List PathStep) :
    pathFrom path (.index i :: below) ≠ pathFrom path (.index j :: below) := by
  obtain ⟨rest, hrest⟩ := pathFrom_of_begun below
  rw [(index_printed_iff path i below).mpr hpath, (index_printed_iff path j below).mpr hpath,
    hrest _ (indexed_ne_empty path i), hrest _ (indexed_ne_empty path j)]
  intro h
  exact hij (indexed_injective (append_right_cancel h))

/-! ### Rows -/

theorem iterConsistentMessages_under (keys : List String) (value : ErrorValue) (path : String) :
    iterConsistentMessages render (under keys value) path =
      iterConsistentMessages render value (pathFrom path (keys.map .key)) := by
  induction keys generalizing path with
  | nil => rfl
  | cons key keys ih =>
      have hunder : under (key :: keys) value = .dict [(key, under keys value)] := rfl
      rw [hunder, iterConsistentMessages, iterEntries, iterEntries, List.append_nil, ih]
      rfl

theorem iterItems_valid (n index : ℕ) (path : String) :
    iterItems render (List.replicate n (.dict [])) index path = [] := by
  induction n generalizing index with
  | zero => rfl
  | succ n ih =>
      rw [List.replicate_succ, iterItems, ih, iterConsistentMessages, iterEntries, List.append_nil]

theorem iterItems_row (error : ErrorValue) {n row : ℕ} (hrow : row < n) (index : ℕ)
    (path : String) :
    iterItems render ((List.replicate n (.dict [])).set row error) index path =
      iterConsistentMessages render error (itemPath path (index + row) error) := by
  induction n generalizing row index with
  | zero => exact absurd hrow (Nat.not_lt_zero row)
  | succ n ih =>
      cases row with
      | zero =>
          rw [List.replicate_succ, List.set_cons_zero, iterItems, iterItems_valid, List.append_nil,
            Nat.add_zero]
      | succ row =>
          rw [List.replicate_succ, List.set_cons_succ, iterItems, ih (by omega) (index + 1),
            iterConsistentMessages, iterEntries, List.nil_append, Nat.add_right_comm, Nat.add_assoc]

/-- The messages of a row in error, below some keys. -/
theorem consistentMessages_row {error : ErrorValue} (herror : error.isContainer = true)
    (args : List ErrorValue) (keys : List String) {n row : ℕ} (hrow : row < n) :
    consistentMessages render (.validationError args (under keys (bulkDetail n row error))) =
      (leaves render error).map fun leaf =>
        withPath (pathFrom (pathFrom "" (keys.map .key)) (.index row :: leaf.steps)) leaf.text := by
  rw [consistentMessages, iterConsistentMessages_under, bulkDetail, iterConsistentMessages,
    iterItems_row error hrow, Nat.zero_add, itemPath_of_container herror, iterConsistentMessages_eq]
  rfl

/-- The index of an element, and with it the row, is in a message exactly when
some key above it names a field. -/
theorem message_path_identifies_row_iff (render : ErrorValue → String) :
    (∀ (value : ErrorValue) (k : ℕ) (above below : List PathStep) (i : ℕ) (text : String),
      (leaves render value)[k]? = some ⟨above ++ .index i :: below, text⟩ →
      ((iterConsistentMessages render value "")[k]? =
          some (withPath (pathFrom (indexed (pathFrom "" above) i) below) text) ↔
        ∃ key, .key key ∈ above ∧ NamesField key)) ∧
    ∀ (args : List ErrorValue) (keys : List String) (n i j : ℕ) (error : ErrorValue),
      i < n → j < n → i ≠ j → error.isContainer = true → leaves render error ≠ [] →
      ((∀ k < (leaves render error).length,
        (consistentMessages render (.validationError args (under keys (bulkDetail n i error))))[k]? ≠
        (consistentMessages render (.validationError args (under keys (bulkDetail n j error))))[k]?) ↔
        ∃ key ∈ keys, NamesField key) := by
  constructor
  · intro value k above below i text hleaf
    rw [iterConsistentMessages_eq, List.getElem?_map, hleaf, Option.map_some, Option.some.injEq,
      Leaf.messageAt, withPath_inj, pathFrom_append, index_printed_iff, pathFrom_ne_empty_iff]
    simp
  · intro args keys n i j error hi hj hij herror hleaves
    rw [consistentMessages_row herror args keys hi, consistentMessages_row herror args keys hj]
    have hbegun : pathFrom "" (keys.map .key) ≠ "" ↔ ∃ key ∈ keys, NamesField key := by
      rw [pathFrom_ne_empty_iff]
      simp
    rw [← hbegun]
    constructor
    · rintro hdiffer hempty
      have hpos : 0 < (leaves render error).length := List.length_pos_iff.mpr hleaves
      -- on an empty path both indices add nothing
      exact hdiffer 0 hpos (by rw [hempty]; rfl)
    · intro hpath k hk
      rw [List.getElem?_map, List.getElem?_map, List.getElem?_eq_getElem hk, Option.map_some,
        Option.map_some, ne_eq, Option.some.injEq, withPath_inj]
      exact indexed_rows_differ hpath hij _

/-! ### Two rows of a bulk create -/

def badEmail : ErrorValue := .dict [("email", .seq .list [.text "bad address"])]

/-- The rows of a bulk body are not told apart. -/
theorem bulk_rows_alike :
    consistentMessages (fun _ => "") (.validationError [] (bulkDetail 2 0 badEmail)) =
        ["email: bad address"] ∧
      consistentMessages (fun _ => "") (.validationError [] (bulkDetail 2 1 badEmail)) =
        consistentMessages (fun _ => "") (.validationError [] (bulkDetail 2 0 badEmail)) := by
  decide

theorem member_rows_differ :
    NamesField "members" ∧ ∀ k < (leaves (fun _ => "") badEmail).length,
      (consistentMessages (fun _ => "")
        (.validationError [] (under ["members"] (bulkDetail 2 0 badEmail))))[k]? ≠
      (consistentMessages (fun _ => "")
        (.validationError [] (under ["members"] (bulkDetail 2 1 badEmail))))[k]? :=
  ⟨by decide, ((message_path_identifies_row_iff fun _ => "").2 [] ["members"] 2 0 1 badEmail
    (by decide) (by decide) (by decide) rfl (by decide)).mpr ⟨"members", by decide, by decide⟩⟩

end NetixBackend.Errors
