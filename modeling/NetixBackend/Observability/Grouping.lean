import NetixBackend.Effects.Verdict
import NetixBackend.Observability.SentryFilters

/-!
All the `before_send` filters of the package, in one chain.

Beside the two signature filters there are two that drop by the exception and
one that groups the events of a log record by its template. Each judges an
event without reading what the others do to it: it drops it, or has a
fingerprint for it (`Judged`). A chain is judged by the product of its filters'
verdicts (`Judged.cons`), so a filter composed by any nesting of chains does to
an event what the product of the verdicts of its leaves says.
-/

namespace NetixBackend.Observability

open Python Effects

/-- A log record, by what the grouping reads of it. -/
structure LogRecord where
  /-- `msg`, where it is a string. -/
  msg : Option String
  name : String := ""
  /-- `exc_info[0].__name__`, where there is one. -/
  excType : Option String := none

/-- What the filters read of the objects an event and a hint refer to. -/
structure Objects (ι : Type*) where
  heap : Heap ι
  containerStr : Value → String
  /-- `isinstance(exc, asyncio.CancelledError)`. -/
  cancelled : ι → Bool
  /-- `exc.status_code`, where it is an integer. -/
  statusCode : ι → Option ℤ
  /-- The log record of a hint, where it carries one. -/
  logRecord : Hint ι → Option LogRecord

/-- `value.get("type") == "CancelledError"`. -/
def isCancelledValue : Value → Bool
  | .mapping value =>
      match member value "type" with
      | .str type => type = "CancelledError"
      | _ => false
  | _ => false

section Filters

variable {ι : Type*} (objects : Objects ι)

def dropCancelledErrors : EventFilter ι := fun event hint =>
  if (hintException hint).any objects.cancelled then .ok none
  else if (exceptionValues event).any isCancelledValue then .ok none
  else .ok (some event)

/-- `drop_client_errors(*exception_classes, status_range=(low, high))`; `classes`
tells the instances of the classes. -/
def dropClientErrors (classes : ι → Bool) (low high : ℤ) : EventFilter ι := fun event hint =>
  match hintException hint with
  | none => .ok (some event)
  | some exc =>
      if !classes exc then .ok (some event)
      else
        match objects.statusCode exc with
        | none => .ok (some event)
        | some status => if low ≤ status ∧ status < high then .ok none else .ok (some event)

def groupLogEventsByTemplate : EventFilter ι := fun event hint =>
  match objects.logRecord hint with
  | none => .ok (some event)
  | some record =>
      match record.msg with
      | none => .ok (some event)
      | some template =>
          if (event.get "fingerprint").truthy then .ok (some event)
          else
            let fingerprint := [record.name, template] ++ record.excType.toList
            .ok (some (event.set "fingerprint" (.list (fingerprint.map .str))))

end Filters

/-! ### What a verdict does to an event -/

/-- The event with this fingerprint, if it has none. -/
def Event.pinnedTo (event : Event) (pin : Option (List String)) : Event :=
  if (event.get "fingerprint").truthy then event
  else
    match pin with
    | some pin => event.set "fingerprint" (.list (pin.map .str))
    | none => event

def judge (event : Event) (verdict : Verdict (List String)) : Option Event :=
  if verdict.rejects then none else some (event.pinnedTo verdict.label)

@[simp] theorem Event.pinnedTo_none (event : Event) : event.pinnedTo none = event := by
  simp [Event.pinnedTo]

theorem Event.pinnedTo_of_truthy {event : Event} (h : (event.get "fingerprint").truthy = true)
    (pin : Option (List String)) : event.pinnedTo pin = event := if_pos h

theorem Event.pinnedTo_some {event : Event} (h : ¬(event.get "fingerprint").truthy = true)
    (pin : List String) :
    event.pinnedTo (some pin) = event.set "fingerprint" (.list (pin.map .str)) := if_neg h

theorem Event.truthy_set_fingerprint (event : Event) {pin : List String} (h : pin ≠ []) :
    (Event.get (event.set "fingerprint" (.list (pin.map .str))) "fingerprint").truthy = true := by
  simpa [Value.truthy] using h

theorem judge_one (event : Event) : judge event 1 = some event := by simp [judge]

/-- The second fingerprint counts where there is no first. -/
theorem Event.pinnedTo_or (event : Event) {pin : Option (List String)} (hpin : pin ≠ some [])
    (pin' : Option (List String)) :
    event.pinnedTo (pin.or pin') = (event.pinnedTo pin).pinnedTo pin' := by
  cases pin with
  | none => simp
  | some pin =>
      by_cases htruthy : (event.get "fingerprint").truthy = true
      · rw [Event.pinnedTo_of_truthy htruthy, Event.pinnedTo_of_truthy htruthy,
          Event.pinnedTo_of_truthy htruthy]
      · have hset := event.truthy_set_fingerprint fun heq => hpin (congrArg some heq)
        rw [Option.some_or, Event.pinnedTo_some htruthy, Event.pinnedTo_of_truthy hset]

/-- One verdict after the other is their product. -/
theorem judge_mul (event : Event) {v : Verdict (List String)} (hlabel : v.label ≠ some [])
    (w : Verdict (List String)) :
    judge event (v * w) = (judge event v).bind fun kept => judge kept w := by
  unfold judge
  cases hv : v.rejects with
  | true => simp [hv]
  | false => simp [hv, event.pinnedTo_or hlabel w.label]

/-! ### Judged filters -/

/-- What a filter has to say of an event and a hint. -/
abbrev Judgement (ι : Type*) := Event → Hint ι → Verdict (List String)

/-- The filter does what the verdict says, or raises and has none; and the
verdict does not read the fingerprint. -/
structure Judged {ι : Type*} (eventFilter : EventFilter ι) (verdict : Judgement ι) : Prop where
  runs : ∀ event hint, eventFilter event hint = .ok (judge event (verdict event hint)) ∨
    eventFilter event hint = .error () ∧ verdict event hint = 1
  unread : ∀ event hint value, verdict (event.set "fingerprint" value) hint = verdict event hint
  pinned : ∀ event hint, (verdict event hint).label ≠ some []

section Judged

variable {ι : Type*} {eventFilter : EventFilter ι} {filters : List (EventFilter ι)}
  {v w : Judgement ι}

theorem Judged.unread_pinnedTo (h : Judged eventFilter v) (event : Event) (hint : Hint ι)
    (pin : Option (List String)) : v (event.pinnedTo pin) hint = v event hint := by
  unfold Event.pinnedTo
  split
  · rfl
  · cases pin with
    | none => rfl
    | some pin => exact h.unread event hint _

theorem Judged.nil : Judged (chain ([] : List (EventFilter ι))) 1 where
  runs event hint := .inl (congrArg Except.ok (judge_one event).symm)
  unread _ _ _ := rfl
  pinned _ _ := by simp

/-- A filter before a chain: the chain judges the event the filter left as it
would have judged the event itself. -/
theorem Judged.cons (h : Judged eventFilter v) (hrest : Judged (chain filters) w) :
    Judged (chain (eventFilter :: filters)) (v * w) where
  runs event hint := by
    have hchain : ∀ event, chained hint filters event = judge event (w event hint) := by
      intro event
      rcases hrest.runs event hint with hruns | ⟨hraises, -⟩
      · exact Except.ok.inj hruns
      · exact absurd hraises (by simp [chain])
    refine .inl (congrArg Except.ok ?_)
    have hmul : (v * w) event hint = v event hint * w event hint := rfl
    rw [chained, hmul, judge_mul event (h.pinned event hint)]
    rcases h.runs event hint with hruns | ⟨hraises, hone⟩
    · rw [hruns]
      unfold judge
      cases (v event hint).rejects with
      | true => rfl
      | false =>
          change chained hint filters _ = _
          rw [hchain, hrest.unread_pinnedTo]
          rfl
    · rw [hraises, hone, judge_one]
      exact hchain event
  unread event hint value := by
    change v _ hint * w _ hint = v event hint * w event hint
    rw [h.unread, hrest.unread]
  pinned event hint := by
    change (v event hint).label.or (w event hint).label ≠ some []
    cases hlabel : (v event hint).label with
    | none => exact hrest.pinned event hint
    | some pin =>
        rw [Option.some_or, ← hlabel]
        exact h.pinned event hint

end Judged

/-! ### The filters of the package -/

/-- A filter that is no chain. -/
inductive Leaf (ι : Type*)
  | dropCancelledErrors
  | dropClientErrors (classes : ι → Bool) (low high : ℤ)
  | dropMatchingSignatures (signatures : List String)
  | fingerprintMatchingSignatures (signatures fingerprint : List String)
  | groupLogEventsByTemplate
  /-- A filter of the service's own that raises. -/
  | raising

namespace Leaf

variable {ι : Type*} [Fintype ι] [DecidableEq ι] (objects : Objects ι)

def filter : Leaf ι → EventFilter ι
  | dropCancelledErrors => Observability.dropCancelledErrors objects
  | dropClientErrors classes low high => Observability.dropClientErrors objects classes low high
  | dropMatchingSignatures signatures =>
      Observability.dropMatchingSignatures objects.heap objects.containerStr signatures
  | fingerprintMatchingSignatures signatures fingerprint =>
      Observability.fingerprintMatchingSignatures objects.heap objects.containerStr signatures
        fingerprint
  | groupLogEventsByTemplate => Observability.groupLogEventsByTemplate objects
  | raising => fun _ _ => .error ()

/-- The leaf drops the event. -/
def drops (event : Event) (hint : Hint ι) : Leaf ι → Bool
  | dropCancelledErrors =>
      (hintException hint).any objects.cancelled || (exceptionValues event).any isCancelledValue
  | dropClientErrors classes low high => (hintException hint).any fun exc =>
      classes exc && (objects.statusCode exc).any fun status => low ≤ status && status < high
  | dropMatchingSignatures signatures => signatures.any fun signature =>
      decide (Occurs signature (eventText objects.heap objects.containerStr event hint))
  | _ => false

/-- The fingerprint the leaf has for the event. -/
def pin (event : Event) (hint : Hint ι) : Leaf ι → Option (List String)
  | fingerprintMatchingSignatures signatures fingerprint =>
      if ∃ signature ∈ signatures,
          Occurs signature (eventText objects.heap objects.containerStr event hint) then
        some fingerprint
      else none
  | groupLogEventsByTemplate => (objects.logRecord hint).bind fun record =>
      record.msg.map fun template => [record.name, template] ++ record.excType.toList
  | _ => none

def verdict (leaf : Leaf ι) : Judgement ι := fun event hint =>
  ⟨leaf.drops objects event hint, leaf.pin objects event hint⟩

/-- There is a fingerprint to set. -/
def WellFormed : Leaf ι → Prop
  | fingerprintMatchingSignatures _ fingerprint => fingerprint ≠ []
  | _ => True

variable {objects}

/-- What a filter that only drops does. -/
theorem runs_of_drops {leaf : Leaf ι} {event : Event} {hint : Hint ι}
    (hpin : leaf.pin objects event hint = none)
    (hdrops : leaf.filter objects event hint =
      .ok (if leaf.drops objects event hint then none else some event)) :
    leaf.filter objects event hint = .ok (judge event (leaf.verdict objects event hint)) := by
  rw [hdrops, judge, verdict, hpin, Event.pinnedTo_none]

/-- What a filter that only pins does. -/
theorem runs_of_pin {leaf : Leaf ι} {event : Event} {hint : Hint ι}
    (hdrops : leaf.drops objects event hint = false)
    (hpin : leaf.filter objects event hint =
      .ok (some (event.pinnedTo (leaf.pin objects event hint)))) :
    leaf.filter objects event hint = .ok (judge event (leaf.verdict objects event hint)) := by
  rw [hpin, judge, verdict, hdrops]
  rfl

theorem runs (leaf : Leaf ι) (event : Event) (hint : Hint ι) :
    leaf.filter objects event hint = .ok (judge event (leaf.verdict objects event hint)) ∨
      leaf.filter objects event hint = .error () ∧ leaf.verdict objects event hint = 1 := by
  cases leaf with
  | dropCancelledErrors =>
      refine .inl (runs_of_drops rfl ?_)
      simp only [filter, Observability.dropCancelledErrors, drops]
      by_cases hhint : (hintException hint).any objects.cancelled = true
      · simp [hhint]
      · by_cases hvalues : (exceptionValues event).any isCancelledValue = true
        · simp [hhint, hvalues]
        · simp [hhint, hvalues]
  | dropClientErrors classes low high =>
      refine .inl (runs_of_drops rfl ?_)
      simp only [filter, Observability.dropClientErrors, drops]
      rcases Option.eq_none_or_eq_some (hintException hint) with hexc | ⟨exc, hexc⟩
      · simp [hexc]
      · cases hclass : classes exc with
        | false => simp [hexc, hclass]
        | true =>
            cases hstatus : objects.statusCode exc with
            | none => simp [hexc, hclass, hstatus]
            | some status =>
                by_cases hrange : low ≤ status ∧ status < high
                · simp [hexc, hclass, hstatus, hrange]
                · simp [hexc, hclass, hstatus, hrange]
  | dropMatchingSignatures signatures =>
      refine .inl (runs_of_drops rfl ?_)
      simp only [filter, Observability.dropMatchingSignatures, drops, List.any_eq_true,
        decide_eq_true_eq]
      split <;> rfl
  | fingerprintMatchingSignatures signatures fingerprint =>
      refine .inl (runs_of_pin rfl ?_)
      simp only [filter, Observability.fingerprintMatchingSignatures, pin, Event.pinnedTo]
      split
      · rfl
      · split <;> rfl
  | groupLogEventsByTemplate =>
      refine .inl (runs_of_pin rfl ?_)
      simp only [filter, Observability.groupLogEventsByTemplate, pin]
      cases objects.logRecord hint with
      | none => simp
      | some record =>
          cases hmsg : record.msg with
          | none => simp [hmsg]
          | some template =>
              simp only [hmsg, Option.bind_some, Option.map_some, Event.pinnedTo]
              split <;> rfl
  | raising => exact .inr ⟨rfl, rfl⟩

theorem pin_ne_nil (leaf : Leaf ι) (h : leaf.WellFormed) (event : Event) (hint : Hint ι) :
    leaf.pin objects event hint ≠ some [] := by
  cases leaf with
  | fingerprintMatchingSignatures signatures fingerprint =>
      simp only [pin]
      split
      · exact fun heq => h (Option.some.inj heq)
      · simp
  | groupLogEventsByTemplate =>
      simp only [pin]
      cases objects.logRecord hint with
      | none => simp
      | some record => cases hmsg : record.msg <;> simp [hmsg]
  | _ => simp [pin]

theorem judged (leaf : Leaf ι) (h : leaf.WellFormed) :
    Judged (leaf.filter objects) (leaf.verdict objects) where
  runs := leaf.runs
  unread event hint value := by
    cases leaf <;> simp [verdict, drops, pin, exceptionValues]
  pinned := leaf.pin_ne_nil h

/-- The leaf may have a fingerprint. -/
def pins : Leaf ι → Bool
  | fingerprintMatchingSignatures .. | groupLogEventsByTemplate => true
  | _ => false

theorem pin_eq_none {leaf : Leaf ι} (h : leaf.pins = false) (event : Event) (hint : Hint ι) :
    leaf.pin objects event hint = none := by
  cases leaf with
  | fingerprintMatchingSignatures signatures fingerprint => exact absurd h (by simp [pins])
  | groupLogEventsByTemplate => exact absurd h (by simp [pins])
  | _ => rfl

/-- Leaves that have no fingerprint can be left out of the search for one. -/
theorem filterMap_pin (leaves : List (Leaf ι)) (event : Event) (hint : Hint ι) :
    leaves.filterMap (pin objects event hint) =
      (leaves.filter pins).filterMap (pin objects event hint) := by
  induction leaves with
  | nil => rfl
  | cons leaf leaves ih =>
      cases hpins : leaf.pins with
      | true => rw [List.filter_cons_of_pos hpins, List.filterMap_cons, List.filterMap_cons, ih]
      | false =>
          rw [List.filter_cons_of_neg (by simp [hpins]), List.filterMap_cons,
            pin_eq_none hpins event hint, ih]

end Leaf

/-! ### Chains of them -/

section Chains

variable {ι : Type*} [Fintype ι] [DecidableEq ι] {objects : Objects ι}

/-- A filter of the package, by its leaves in the order in which it asks them. -/
inductive Composed (objects : Objects ι) : EventFilter ι → List (Leaf ι) → Prop
  | leaf (leaf : Leaf ι) : Composed objects (leaf.filter objects) [leaf]
  | nil : Composed objects (chain []) []
  | cons {eventFilter : EventFilter ι} {filters : List (EventFilter ι)}
      {leaves leaves' : List (Leaf ι)} (head : Composed objects eventFilter leaves)
      (rest : Composed objects (chain filters) leaves') :
      Composed objects (chain (eventFilter :: filters)) (leaves ++ leaves')

/-- The product of the verdicts of the leaves. -/
def judgement (objects : Objects ι) (leaves : List (Leaf ι)) : Judgement ι := fun event hint =>
  (leaves.map fun leaf => leaf.verdict objects event hint).prod

theorem judgement_append (leaves leaves' : List (Leaf ι)) :
    judgement objects (leaves ++ leaves') =
      judgement objects leaves * judgement objects leaves' := by
  funext event hint
  rw [judgement, List.map_append, List.prod_append]
  rfl

theorem Composed.judged {eventFilter : EventFilter ι} {leaves : List (Leaf ι)}
    (h : Composed objects eventFilter leaves) (hleaves : ∀ leaf ∈ leaves, leaf.WellFormed) :
    Judged eventFilter (judgement objects leaves) := by
  induction h with
  | leaf leaf =>
      have hone : judgement objects [leaf] = leaf.verdict objects := by
        funext event hint
        exact List.prod_singleton
      rw [hone]
      exact leaf.judged (hleaves leaf (List.mem_singleton_self leaf))
  | nil => exact .nil
  | cons head rest ih ihrest =>
      rw [List.forall_mem_append] at hleaves
      rw [judgement_append]
      exact (ih hleaves.1).cons (ihrest hleaves.2)

theorem rejects_judgement {leaves : List (Leaf ι)} {event : Event} {hint : Hint ι} :
    (judgement objects leaves event hint).rejects = true ↔
      ∃ leaf ∈ leaves, leaf.drops objects event hint = true := by
  rw [judgement, Verdict.rejects_prod, List.any_map, List.any_eq_true]
  rfl

theorem label_judgement (leaves : List (Leaf ι)) (event : Event) (hint : Hint ι) :
    (judgement objects leaves event hint).label =
      leaves.findSome? (Leaf.pin objects event hint) := by
  rw [judgement, Verdict.label_prod, List.findSome?_map]
  rfl

/-- Moving the leaves that only drop changes nothing. -/
theorem judgement_congr {leaves leaves' : List (Leaf ι)} (hperm : leaves.Perm leaves')
    (hpins : leaves.filter Leaf.pins = leaves'.filter Leaf.pins) :
    judgement objects leaves = judgement objects leaves' := by
  funext event hint
  refine Verdict.prod_congr ?_ ?_
  · simp only [List.mem_map, exists_exists_and_eq_and]
    exact exists_congr fun leaf => and_congr_left fun _ => hperm.mem_iff
  · rw [List.filterMap_map, List.filterMap_map]
    change leaves.filterMap (Leaf.pin objects event hint) =
      leaves'.filterMap (Leaf.pin objects event hint)
    rw [Leaf.filterMap_pin, hpins, ← Leaf.filterMap_pin]

/-- The log record of the hint has a template. -/
def Templated (objects : Objects ι) (hint : Hint ι) : Prop :=
  ∃ record template, objects.logRecord hint = some record ∧ record.msg = some template

/-- However the package's filters are composed, a chain drops an event exactly
when one of its leaves does; what it keeps has the fingerprint it came with,
else the first that a leaf has for it. The leaves that only drop may stand
anywhere in the chain, and once an event with a template is grouped, no later
leaf has a fingerprint for it. -/
theorem chain_composed {filters : List (EventFilter ι)} {leaves : List (Leaf ι)}
    (h : Composed objects (chain filters) leaves) (hleaves : ∀ leaf ∈ leaves, leaf.WellFormed)
    (event : Event) (hint : Hint ι) :
    (chain filters event hint = .ok none ↔
      ∃ leaf ∈ leaves, leaf.drops objects event hint = true) ∧
    (∀ kept, chain filters event hint = .ok (some kept) →
      kept = event.pinnedTo (leaves.findSome? (Leaf.pin objects event hint))) ∧
    (∀ (filters' : List (EventFilter ι)) (leaves' : List (Leaf ι)),
      Composed objects (chain filters') leaves' → leaves.Perm leaves' →
        leaves.filter Leaf.pins = leaves'.filter Leaf.pins →
          chain filters' event hint = chain filters event hint) ∧
    (∀ before after, leaves = before ++ .groupLogEventsByTemplate :: after →
      Templated objects hint → leaves.findSome? (Leaf.pin objects event hint) =
        (before ++ [.groupLogEventsByTemplate]).findSome? (Leaf.pin objects event hint)) := by
  have hruns : ∀ (filters : List (EventFilter ι)) (leaves : List (Leaf ι)),
      Composed objects (chain filters) leaves → (∀ leaf ∈ leaves, leaf.WellFormed) →
        chain filters event hint = .ok (judge event (judgement objects leaves event hint)) := by
    intro filters leaves h hleaves
    rcases (h.judged hleaves).runs event hint with hruns | ⟨hraises, -⟩
    · exact hruns
    · exact absurd hraises (by simp [chain])
  have hresult := hruns filters leaves h hleaves
  refine ⟨?_, fun kept hkept => ?_, fun filters' leaves' h' hperm hpins => ?_,
    fun before after hsplit htemplated => ?_⟩
  · rw [hresult, ← rejects_judgement, judge]
    split
    · rename_i hrejects
      exact iff_of_true rfl hrejects
    · rename_i hkeeps
      exact iff_of_false (by simp) hkeeps
  · rw [hresult, judge] at hkept
    split at hkept
    · simp at hkept
    · rw [label_judgement] at hkept
      exact (Option.some.inj (Except.ok.inj hkept)).symm
  · rw [hresult, judgement_congr hperm hpins]
    exact hruns filters' leaves' h' fun leaf hmem => hleaves leaf (hperm.mem_iff.mpr hmem)
  · obtain ⟨record, template, hrecord, hmsg⟩ := htemplated
    have hpin : Leaf.pin objects event hint .groupLogEventsByTemplate =
        some ([record.name, template] ++ record.excType.toList) := by
      rw [Leaf.pin, hrecord, Option.bind_some, hmsg, Option.map_some]
    rw [hsplit, List.findSome?_append, List.findSome?_append, List.findSome?_cons,
      List.findSome?_cons, hpin]

end Chains

/-! ### The ready-made filters -/

def fingerprintDbStatementTimeouts {ι : Type*} : Leaf ι :=
  .fingerprintMatchingSignatures ["canceling statement due to statement timeout"]
    ["db-infra", "postgres-statement-timeout"]

def fingerprintAsgiExecutorTeardown {ι : Type*} : Leaf ι :=
  .fingerprintMatchingSignatures ["CurrentThreadExecutor already quit or is broken"]
    ["asgi-shutdown", "current-thread-executor-quit"]

/-- No exceptions, and a hint that has a log record has this one. -/
def uvicornLog : Objects Empty where
  heap := noExceptions
  containerStr _ := ""
  cancelled _ := false
  statusCode _ := none
  logRecord hint := (hint.bind (·.get? "log_record")).map fun _ =>
    { msg := some "Exception in ASGI application", name := "uvicorn.error" }

def uvicornHint : Hint Empty := some (Dict.empty.set "log_record" .other)

/-- Cancellations may be dropped before the others or after them. -/
theorem chain_composed_uvicornLog :
    chain [Leaf.filter uvicornLog fingerprintAsgiExecutorTeardown,
        Leaf.filter uvicornLog fingerprintDbStatementTimeouts,
        Leaf.filter uvicornLog .groupLogEventsByTemplate,
        Leaf.filter uvicornLog .dropCancelledErrors] Dict.empty uvicornHint =
      chain [Leaf.filter uvicornLog .dropCancelledErrors,
        Leaf.filter uvicornLog fingerprintAsgiExecutorTeardown,
        Leaf.filter uvicornLog fingerprintDbStatementTimeouts,
        Leaf.filter uvicornLog .groupLogEventsByTemplate] Dict.empty uvicornHint := by
  have hfirst : Composed uvicornLog _ _ := .cons (.leaf .dropCancelledErrors)
    (.cons (.leaf fingerprintAsgiExecutorTeardown) (.cons (.leaf fingerprintDbStatementTimeouts)
      (.cons (.leaf .groupLogEventsByTemplate) .nil)))
  have hlast : Composed uvicornLog _ _ := .cons (.leaf fingerprintAsgiExecutorTeardown)
    (.cons (.leaf fingerprintDbStatementTimeouts) (.cons (.leaf .groupLogEventsByTemplate)
      (.cons (.leaf .dropCancelledErrors) .nil)))
  refine (chain_composed hfirst ?_ Dict.empty uvicornHint).2.2.1 _ _ hlast ?_ rfl
  · simp [Leaf.WellFormed, fingerprintAsgiExecutorTeardown, fingerprintDbStatementTimeouts]
  · exact List.perm_append_comm

end NetixBackend.Observability
