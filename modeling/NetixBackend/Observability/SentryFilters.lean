import NetixBackend.Observability.ExceptionChain
import NetixBackend.Python.Text

/-!
The `before_send` filters and their composition.

A filter sees the event its predecessors left, and a fingerprint they set is
all that can differ from the event that arrived. The text the signatures are
matched against does not read the fingerprint, so every filter of a chain
judges the same text.
-/

namespace NetixBackend.Observability

open Python

/-- A Python object on an event, by the tests the filters make of it. -/
inductive Value
  | none
  | str (s : String)
  | mapping (entries : List (String × Value))
  | list (items : List Value)
  | other (truthy : Bool) (str : String)

namespace Value

def truthy : Value → Bool
  | none => false
  | str s => s ≠ ""
  | mapping entries => !entries.isEmpty
  | list items => !items.isEmpty
  | other truthy _ => truthy

/-- `str(value)`, given what it writes of a container. -/
def toStr (containerStr : Value → String) : Value → String
  | none => "None"
  | str s => s
  | mapping entries => containerStr (mapping entries)
  | list items => containerStr (list items)
  | other _ s => s

end Value

/-- `entries.get(key)`. -/
def member (entries : List (String × Value)) (key : String) : Value :=
  (entries.lookup key).getD .none

abbrev Event := Dict String Value

def Event.get (event : Event) (key : String) : Value := (event.get? key).getD .none

/-! ### The text of an event -/

/-- `_exception_values`. -/
def exceptionValues (event : Event) : List Value :=
  match event.get "exception" with
  | .mapping exception =>
      match member exception "values" with
      | .list values => values
      | _ => []
  | _ => []

section Text

variable {ι : Type*} [Fintype ι] [DecidableEq ι]
variable (heap : Heap ι) (containerStr : Value → String)

/-- What one serialized exception adds. -/
def exceptionDataText : Value → List String
  | .mapping excData =>
      let excType := member excData "type"
      let excVal := member excData "value"
      if excVal.truthy then
        if excType.truthy then [excType.toStr containerStr ++ ": " ++ excVal.toStr containerStr]
        else [excVal.toStr containerStr]
      else []
  | _ => []

def logentryText (event : Event) : List String :=
  match event.get "logentry" with
  | .mapping logentry =>
      (["message", "formatted"].filter fun key => (member logentry key).truthy).map
        fun key => (member logentry key).toStr containerStr
  | _ => []

/-- `str(value or "")`. -/
def strOrEmpty (value : Value) : String := if value.truthy then value.toStr containerStr else ""

def messageText (event : Event) : List String :=
  match event.get "message" with
  | .mapping message =>
      [strOrEmpty containerStr (member message "message"),
        strOrEmpty containerStr (member message "formatted")]
  | message => if message.truthy then [message.toStr containerStr] else []

def eventTextCandidates (event : Event) (hint : Hint ι) : List String :=
  exceptionChainText heap (hintException hint) ++
    (exceptionValues event).flatMap (exceptionDataText containerStr) ++
    logentryText containerStr event ++ messageText containerStr event

/-- `event_text`. -/
def eventText (event : Event) (hint : Hint ι) : String :=
  "\n".intercalate (eventTextCandidates heap containerStr event hint)

end Text

/-! ### The filters -/

/-- What a filter does with an event: it raises, drops it (`none`) or returns it.
Which exception is raised makes no difference to a chain. -/
abbrev EventFilter (ι : Type*) := Event → Hint ι → Except Unit (Option Event)

section Filters

variable {ι : Type*} [Fintype ι] [DecidableEq ι]
variable (heap : Heap ι) (containerStr : Value → String)

def dropMatchingSignatures (signatures : List String) : EventFilter ι := fun event hint =>
  if ∃ signature ∈ signatures, Occurs signature (eventText heap containerStr event hint) then
    .ok none
  else .ok (some event)

def fingerprintMatchingSignatures (signatures fingerprint : List String) : EventFilter ι :=
  fun event hint =>
    if (event.get "fingerprint").truthy then .ok (some event)
    else if ∃ signature ∈ signatures, Occurs signature (eventText heap containerStr event hint) then
      .ok (some (event.set "fingerprint" (.list (fingerprint.map .str))))
    else .ok (some event)

/-- The loop of a chain. -/
def chained (hint : Hint ι) : List (EventFilter ι) → Event → Option Event
  | [], current => some current
  | eventFilter :: rest, current =>
      match eventFilter current hint with
      -- logged; the event goes on as it was
      | .error _ => chained hint rest current
      | .ok none => none
      | .ok (some result) => chained hint rest result

def chain (filters : List (EventFilter ι)) : EventFilter ι := fun event hint =>
  .ok (chained hint filters event)

/-- A filter built from the two signature filters, ones that raise, and chains. -/
inductive Rule
  | drop (signatures : List String)
  | fingerprint (signatures pin : List String)
  | raising
  | chain (rules : List Rule)

mutual
def Rule.filter : Rule → EventFilter ι
  | .drop signatures => dropMatchingSignatures heap containerStr signatures
  | .fingerprint signatures pin =>
      fingerprintMatchingSignatures heap containerStr signatures pin
  | .raising => fun _ _ => .error ()
  | .chain rules => Observability.chain (Rule.filters rules)

def Rule.filters : List Rule → List (EventFilter ι)
  | [] => []
  | rule :: rest => rule.filter :: Rule.filters rest
end

end Filters

mutual
/-- The rules of a chain and of the chains in it, in the order they are met. -/
def Rule.flatten : Rule → List Rule
  | .chain rules => Rule.flattenAll rules
  | .drop signatures => [.drop signatures]
  | .fingerprint signatures pin => [.fingerprint signatures pin]
  | .raising => [.raising]

def Rule.flattenAll : List Rule → List Rule
  | [] => []
  | rule :: rest => rule.flatten ++ Rule.flattenAll rest
end

/-! ### What the filters read -/

@[simp] theorem Event.get_set (event : Event) (key key' : String) (value : Value) :
    Event.get (event.set key value) key' = if key' = key then value else event.get key' := by
  unfold Event.get
  rw [Dict.get?_set]
  split <;> rfl

section Chains

variable {ι : Type*} {hint : Hint ι}

theorem chained_append (filters filters' : List (EventFilter ι)) (event : Event) :
    chained hint (filters ++ filters') event =
      (chained hint filters event).bind (chained hint filters') := by
  induction filters generalizing event with
  | nil => rfl
  | cons eventFilter rest ih =>
      rw [List.cons_append, chained, chained]
      rcases eventFilter event hint with _ | _ | result
      · exact ih event
      · rfl
      · exact ih result

variable [Fintype ι] [DecidableEq ι]
variable {heap : Heap ι} {containerStr : Value → String} {event : Event}

/-- The text of an event does not read its fingerprint. -/
theorem eventTextCandidates_set_fingerprint (value : Value) :
    eventTextCandidates heap containerStr (event.set "fingerprint" value) hint =
      eventTextCandidates heap containerStr event hint := by
  simp [eventTextCandidates, exceptionValues, logentryText, messageText]

@[simp] theorem eventText_set_fingerprint (value : Value) :
    eventText heap containerStr (event.set "fingerprint" value) hint =
      eventText heap containerStr event hint := by
  rw [eventText, eventTextCandidates_set_fingerprint, eventText]

/-! ### Nesting -/

theorem Rule.filters_append (rules rules' : List Rule) :
    Rule.filters heap containerStr (rules ++ rules') =
      Rule.filters heap containerStr rules ++ Rule.filters heap containerStr rules' := by
  induction rules with
  | nil => rfl
  | cons rule rest ih => rw [List.cons_append, Rule.filters, Rule.filters, ih, List.cons_append]

mutual
/-- A nested chain goes on with what its own loop returns. -/
theorem Rule.chained_flatten (rule : Rule) (event : Event) :
    chained hint (Rule.filters heap containerStr rule.flatten) event =
      chained hint [rule.filter heap containerStr] event := by
  cases rule with
  | drop signatures => rfl
  | fingerprint signatures pin => rfl
  | raising => rfl
  | chain rules =>
      rw [Rule.flatten, Rule.chained_flattenAll rules event]
      simp only [Rule.filter, chained, Observability.chain]
      cases chained hint (Rule.filters heap containerStr rules) event <;> rfl

theorem Rule.chained_flattenAll (rules : List Rule) (event : Event) :
    chained hint (Rule.filters heap containerStr (Rule.flattenAll rules)) event =
      chained hint (Rule.filters heap containerStr rules) event := by
  cases rules with
  | nil => rfl
  | cons rule rest =>
      have hcons : chained hint ([rule.filter heap containerStr] ++
          Rule.filters heap containerStr rest) event = _ := chained_append _ _ event
      rw [List.singleton_append] at hcons
      rw [Rule.flattenAll, Rule.filters_append, chained_append, Rule.chained_flatten rule event,
        Rule.filters, hcons]
      exact Option.bind_congr fun result _ => Rule.chained_flattenAll rest result
end

/-! ### What a chain comes to -/

/-- The rule drops an event of this text. -/
def Rule.Drops (text : String) : Rule → Prop
  | .drop signatures => ∃ signature ∈ signatures, Occurs signature text
  | _ => False

instance (text : String) : DecidablePred (Rule.Drops text)
  | .drop signatures => inferInstanceAs (Decidable (∃ signature ∈ signatures, _))
  | .fingerprint .. | .raising | .chain _ => inferInstanceAs (Decidable False)

/-- The fingerprint the rule has for an event with these texts. -/
def Rule.pinFor (candidates : List String) : Rule → Option (List String)
  | .fingerprint signatures pin =>
      if ∃ signature ∈ signatures, ∃ candidate ∈ candidates, Occurs signature candidate then some pin
      else none
  | _ => none

/-- No signature to fingerprint by is empty or broken over lines, and there is a
fingerprint to set. -/
def Rule.WellFormed : Rule → Prop
  | .fingerprint signatures pin =>
      (∀ signature ∈ signatures, signature ≠ "" ∧ '\n' ∉ signature.toList) ∧ pin ≠ []
  | _ => True

def Rule.returns : Rule → Bool
  | .raising => false
  | _ => true

def firstPin (candidates : List String) (rules : List Rule) : Option (List String) :=
  rules.findSome? (Rule.pinFor candidates)

/-- The event with the fingerprint it came with, else with the first for its texts. -/
def pinned (candidates : List String) (rules : List Rule) (event : Event) : Event :=
  if (event.get "fingerprint").truthy then event
  else
    match firstPin candidates rules with
    | some pin => event.set "fingerprint" (.list (pin.map .str))
    | none => event

/-- A rule without nested ones. -/
def Rule.IsLeaf : Rule → Prop
  | .chain _ => False
  | _ => True

mutual
theorem Rule.isLeaf_of_mem_flatten (rule : Rule) : ∀ leaf ∈ rule.flatten, leaf.IsLeaf := by
  cases rule with
  | drop signatures => simp [Rule.flatten, Rule.IsLeaf]
  | fingerprint signatures pin => simp [Rule.flatten, Rule.IsLeaf]
  | raising => simp [Rule.flatten, Rule.IsLeaf]
  | chain rules => exact Rule.isLeaf_of_mem_flattenAll rules

theorem Rule.isLeaf_of_mem_flattenAll (rules : List Rule) :
    ∀ leaf ∈ Rule.flattenAll rules, leaf.IsLeaf := by
  cases rules with
  | nil => simp [Rule.flattenAll]
  | cons rule rest =>
      intro leaf hleaf
      rw [Rule.flattenAll, List.mem_append] at hleaf
      rcases hleaf with hrule | hrest
      · exact Rule.isLeaf_of_mem_flatten rule leaf hrule
      · exact Rule.isLeaf_of_mem_flattenAll rest leaf hrest
end

theorem pinFor_of_wellFormed (heap : Heap ι) (containerStr : Value → String) (event : Event)
    (hint : Hint ι) {signatures pin : List String}
    (h : (Rule.fingerprint signatures pin).WellFormed) :
    (Rule.fingerprint signatures pin).pinFor (eventTextCandidates heap containerStr event hint) =
      if ∃ signature ∈ signatures, Occurs signature (eventText heap containerStr event hint) then
        some pin
      else none := by
  refine if_congr ?_ rfl rfl
  refine exists_congr fun signature => and_congr_right fun hmem => ?_
  obtain ⟨hne, hnewline⟩ := h.1 signature hmem
  exact (occurs_join_iff hnewline hne).symm

theorem pinned_of_truthy {candidates : List String} {rules : List Rule}
    (h : (event.get "fingerprint").truthy = true) : pinned candidates rules event = event :=
  if_pos h

theorem pinned_cons_of_none {candidates : List String} {rule : Rule} {rest : List Rule}
    (h : rule.pinFor candidates = none) :
    pinned candidates (rule :: rest) event = pinned candidates rest event := by
  rw [pinned, pinned, firstPin, firstPin, List.findSome?_cons, h]

theorem pinned_cons_of_some {candidates pin : List String} {rule : Rule} {rest : List Rule}
    (hfalsy : ¬(event.get "fingerprint").truthy = true) (h : rule.pinFor candidates = some pin) :
    pinned candidates (rule :: rest) event =
      event.set "fingerprint" (.list (pin.map .str)) := by
  rw [pinned, if_neg hfalsy, firstPin, List.findSome?_cons, h]

theorem exists_drops_cons {text : String} {rule : Rule} {rest : List Rule} :
    (∃ rule' ∈ rule :: rest, rule'.Drops text) ↔
      rule.Drops text ∨ ∃ rule' ∈ rest, rule'.Drops text := by
  simp

/-- The induction is on the rules: what one of them leaves has the same text. -/
theorem chained_leaves {rules : List Rule} (hleaf : ∀ rule ∈ rules, rule.IsLeaf)
    (hrules : ∀ rule ∈ rules, rule.WellFormed) (event : Event) :
    chained hint (Rule.filters heap containerStr rules) event =
      if ∃ rule ∈ rules, rule.Drops (eventText heap containerStr event hint) then none
      else some (pinned (eventTextCandidates heap containerStr event hint) rules event) := by
  induction rules generalizing event with
  | nil => simp [Rule.filters, chained, pinned, firstPin]
  | cons rule rest ih =>
      rw [List.forall_mem_cons] at hleaf hrules
      have ih := ih hleaf.2 hrules.2
      -- a rule that returns the event as it is, and has no fingerprint for it
      have hpass : ¬rule.Drops (eventText heap containerStr event hint) →
          pinned (eventTextCandidates heap containerStr event hint) (rule :: rest) event =
            pinned (eventTextCandidates heap containerStr event hint) rest event →
          chained hint (Rule.filters heap containerStr rest) event =
            if ∃ rule' ∈ rule :: rest, rule'.Drops (eventText heap containerStr event hint) then
              none
            else
              some (pinned (eventTextCandidates heap containerStr event hint) (rule :: rest) event) := by
        intro hdrops hpin
        rw [ih, hpin]
        exact if_congr (exists_drops_cons.trans (or_iff_right hdrops)).symm rfl rfl
      rw [Rule.filters]
      cases rule with
      | chain rules => exact absurd hleaf.1 id
      | raising => exact hpass id (pinned_cons_of_none rfl)
      | drop signatures =>
          rw [Rule.filter, chained, dropMatchingSignatures]
          by_cases hdrops : ∃ signature ∈ signatures,
              Occurs signature (eventText heap containerStr event hint)
          · rw [if_pos hdrops, if_pos ⟨_, List.mem_cons_self, hdrops⟩]
          · rw [if_neg hdrops]
            exact hpass hdrops (pinned_cons_of_none rfl)
      | fingerprint signatures pin =>
          have hpin := pinFor_of_wellFormed heap containerStr event hint hrules.1
          rw [Rule.filter, chained, fingerprintMatchingSignatures]
          by_cases htruthy : (event.get "fingerprint").truthy = true
          · rw [if_pos htruthy]
            exact hpass id ((pinned_of_truthy htruthy).trans (pinned_of_truthy htruthy).symm)
          rw [if_neg htruthy]
          by_cases hoccurs : ∃ signature ∈ signatures,
              Occurs signature (eventText heap containerStr event hint)
          · rw [if_pos hoccurs] at hpin ⊢
            have hset : (Event.get (event.set "fingerprint" (.list (pin.map .str)))
                "fingerprint").truthy = true := by
              simpa [Value.truthy] using hrules.1.2
            have hrest := ih (event.set "fingerprint" (.list (pin.map .str)))
            rw [eventText_set_fingerprint, pinned_of_truthy hset] at hrest
            rw [pinned_cons_of_some htruthy hpin]
            exact hrest.trans
              (if_congr (exists_drops_cons.trans (or_iff_right id)).symm rfl rfl)
          · rw [if_neg hoccurs] at hpin ⊢
            exact hpass id (pinned_cons_of_none hpin)

/-! ### The result of a chain -/

theorem pinned_get? {candidates : List String} {rules : List Rule} {key : String}
    (h : key ≠ "fingerprint") : (pinned candidates rules event).get? key = event.get? key := by
  unfold pinned
  split
  · rfl
  · split
    · rw [Dict.get?_set, if_neg h]
    · rfl

theorem pinned_get?_fingerprint {candidates : List String} {rules : List Rule} :
    (pinned candidates rules event).get? "fingerprint" =
      if (event.get "fingerprint").truthy then event.get? "fingerprint"
      else ((firstPin candidates rules).map fun pin => .list (pin.map .str)).or
        (event.get? "fingerprint") := by
  unfold pinned
  split
  · rfl
  · cases firstPin candidates rules <;> simp

/-- A filter that raises is as good as none. -/
theorem chained_filter_raising (rules : List Rule) (event : Event) :
    chained hint (Rule.filters heap containerStr (rules.filter Rule.returns)) event =
      chained hint (Rule.filters heap containerStr rules) event := by
  induction rules generalizing event with
  | nil => rfl
  | cons rule rest ih =>
      by_cases hraising : rule = .raising
      · subst hraising
        exact ih event
      · have hreturns : rule.returns = true := by
          cases rule with
          | raising => exact absurd rfl hraising
          | _ => rfl
        rw [List.filter_cons_of_pos hreturns, Rule.filters, Rule.filters, chained, chained]
        rcases rule.filter heap containerStr event hint with _ | _ | result
        · exact ih event
        · rfl
        · exact ih result

end Chains

section Result

variable {ι : Type*} [Fintype ι] [DecidableEq ι]

theorem chain_result (heap : Heap ι) (containerStr : Value → String) (rules : List Rule)
    (hrules : ∀ rule ∈ Rule.flattenAll rules, rule.WellFormed) (event : Event) (hint : Hint ι) :
    let flat := Rule.flattenAll rules
    let candidates := eventTextCandidates heap containerStr event hint
    let result := chain (Rule.filters heap containerStr rules) event hint
    result = chain (Rule.filters heap containerStr flat) event hint ∧
    result = chain (Rule.filters heap containerStr (flat.filter Rule.returns))
      event hint ∧
    (result = .ok none ↔
      ∃ rule ∈ flat, rule.Drops (eventText heap containerStr event hint)) ∧
    (∀ signature : String, signature ≠ "" → '\n' ∉ signature.toList →
      (Occurs signature (eventText heap containerStr event hint) ↔
        ∃ candidate ∈ candidates, Occurs signature candidate)) ∧
    (result ≠ .ok none → ∃ kept : Event, result = .ok (some kept) ∧
      (∀ key ≠ "fingerprint", kept.get? key = event.get? key) ∧
      kept.get? "fingerprint" =
        if (event.get "fingerprint").truthy then event.get? "fingerprint"
        else ((firstPin candidates flat).map fun pin => .list (pin.map .str)).or
          (event.get? "fingerprint")) := by
  intro flat candidates result
  have hflat : result = chain (Rule.filters heap containerStr flat) event hint :=
    congrArg Except.ok (Rule.chained_flattenAll rules event).symm
  have hleaves : chained hint (Rule.filters heap containerStr flat) event = _ :=
    chained_leaves (Rule.isLeaf_of_mem_flattenAll rules) hrules event
  have hresult : result = .ok (if ∃ rule ∈ flat, rule.Drops (eventText heap containerStr event hint)
      then none else some (pinned candidates flat event)) := hflat.trans (congrArg Except.ok hleaves)
  refine ⟨hflat, hflat.trans (congrArg Except.ok (chained_filter_raising flat event).symm), ?_,
    fun signature hne hnewline => occurs_join_iff hnewline hne, ?_⟩
  · rw [hresult]
    split
    · rename_i hdrops
      exact iff_of_true rfl hdrops
    · rename_i hkeeps
      exact iff_of_false (by simp) hkeeps
  · intro hkept
    by_cases hdrops : ∃ rule ∈ flat, rule.Drops (eventText heap containerStr event hint)
    · rw [hresult, if_pos hdrops] at hkept
      exact absurd rfl hkept
    · rw [if_neg hdrops] at hresult
      exact ⟨_, hresult, fun key hkey => pinned_get? hkey, pinned_get?_fingerprint⟩

end Result

/-! ### The filters every service gets -/

def dbConnectSignatures : List String :=
  ["connection timeout expired",
    "connection failed: connection to server at",
    "consuming input failed: server closed the connection unexpectedly",
    "server closed the connection unexpectedly",
    "the connection is closed",
    "server login has been failing",
    "server conn crashed?",
    "server shutting down",
    "database removed",
    "the database system is shutting down",
    "the database system is starting up",
    "no more connections allowed",
    "query_wait_timeout",
    "terminating connection due to administrator command"]

def dbReadonlySignatures : List String := ["in a read-only transaction"]

def fingerprintDbInfraErrors : Rule :=
  .chain [.fingerprint dbReadonlySignatures ["db-infra", "postgres-read-only-transaction"],
    .fingerprint dbConnectSignatures ["db-infra", "postgres-connection-failure"]]

theorem wellFormed_fingerprintDbInfraErrors :
    ∀ rule ∈ fingerprintDbInfraErrors.flatten, rule.WellFormed := by
  simp [fingerprintDbInfraErrors, Rule.flatten, Rule.flattenAll, Rule.WellFormed,
    dbReadonlySignatures, dbConnectSignatures]

def noExceptions : Heap Empty := Empty.rec

/-- An event whose message is a template and what became of it. -/
def templateEvent (template formatted : String) : Event :=
  Dict.empty.set "message" (.mapping [("message", .str template), ("formatted", .str formatted)])

theorem chain_result_fingerprintDbInfraErrors :
    chain (Rule.filters noExceptions (fun _ => "") [fingerprintDbInfraErrors])
        (templateEvent "probe %s" "probe 1") none = .ok none ↔
      ∃ rule ∈ Rule.flattenAll [fingerprintDbInfraErrors],
        rule.Drops (eventText noExceptions (fun _ => "") (templateEvent "probe %s" "probe 1") none) :=
  (chain_result noExceptions (fun _ => "") [fingerprintDbInfraErrors]
    (by simpa [Rule.flattenAll] using wellFormed_fingerprintDbInfraErrors)
    (templateEvent "probe %s" "probe 1") none).2.2.1

/-- A signature that runs from one candidate into the next. -/
theorem not_drop_iff_candidate :
    ¬(chain (Rule.filters noExceptions (fun _ => "") [.drop ["a\nb"]]) (templateEvent "a" "b") none =
        .ok none ↔
      ∃ candidate ∈ eventTextCandidates noExceptions (fun _ => "") (templateEvent "a" "b") none,
        Occurs "a\nb" candidate) := by
  have hcandidates : eventTextCandidates noExceptions (fun _ => "") (templateEvent "a" "b") none =
      ["a", "b"] := by
    rw [eventTextCandidates, show hintException none = (none : Option Empty) from rfl,
      exceptionChainText_none]
    rfl
  have hdrops : Occurs "a\nb" (eventText noExceptions (fun _ => "") (templateEvent "a" "b") none) := by
    rw [eventText, hcandidates]
    decide
  have hresult : chain (Rule.filters noExceptions (fun _ => "") [.drop ["a\nb"]])
      (templateEvent "a" "b") none = .ok none := by
    simp [chain, Rule.filters, Rule.filter, chained, dropMatchingSignatures, hdrops]
  rw [hresult, hcandidates]
  exact fun h => absurd (h.mp rfl) (by decide)

end NetixBackend.Observability
