import NetixBackend.Effects.Transaction
import NetixBackend.Transition.System
import Mathlib.Data.Finset.Card
import Mathlib.Data.List.Count

/-!
The async path of the OpenTelemetry middleware, with any number of requests in
flight.

The instrumentation opens a span for a request in `process_request` and closes
it in `process_response`, and its gauge counts the spans that are open. What
it does with a request in between is its own affair; `AsyncDjangoMiddleware`
decides when the hooks are called. A request that is cancelled inside
`get_response` never comes to a response, so the middleware closes its span
itself and lets the cancellation through.

The hooks are the instrumentation's. What is asked of them is that the gauge
moves with the spans, that a hook touches no other request's span, and that a
`process_response` that returns has closed its own.
-/

namespace NetixBackend.Observability

open Effects Transition

/-- An exception, and whether `except Exception` catches it; a cancellation is
none of those. -/
structure Thrown where
  name : String
  isException : Bool
  deriving DecidableEq, Repr

structure HttpResponse where
  status : ℤ
  content : String := ""
  deriving DecidableEq, Repr

/-- nginx's "client closed request". -/
def clientClosedRequest : ℤ := 499

/-- The hooks of `_DjangoMiddleware`, for the request of a number. -/
structure Instrumentation (σ : Type) where
  processRequest : ℕ → Tx Thrown σ Unit
  processException : ℕ → Thrown → Tx Thrown σ Unit
  processResponse : ℕ → HttpResponse → Tx Thrown σ HttpResponse

namespace Instrumentation

variable {σ : Type} (hooks : Instrumentation σ)

/-- The hooks called once `get_response` is over. -/
def closing (id : ℕ) : Except Thrown HttpResponse → Tx Thrown σ HttpResponse
  | .ok response => hooks.processResponse id response
  | .error exc => do
      hooks.processException id exc
      hooks.processResponse id { status := clientClosedRequest }

/-- `__acall__` from where `get_response` returns or raises. -/
def finish (id : ℕ) : Except Thrown HttpResponse → Tx Thrown σ HttpResponse
  | .ok response => hooks.closing id (.ok response)
  | .error exc => do
      -- an Exception of the hooks is logged; it must not take the cancellation's place
      Tx.catching (do let _ ← hooks.closing id (.error exc)) fun e =>
        if e.isException then pure () else Tx.raise e
      Tx.raise exc

end Instrumentation

/-! ### Requests in flight -/

inductive TracedPhase
  /-- In `await self.get_response(request)`. -/
  | handling
  | ended (result : Except Thrown HttpResponse)

structure TracedCall where
  phase : TracedPhase
  /-- What `get_response` came to. -/
  handled : Option (Except Thrown HttpResponse) := none
  /-- A hook called for the request raised. -/
  hookFailed : Bool := false

def TracedCall.isHandling (call : TracedCall) : Bool :=
  match call.phase with
  | .handling => true
  | .ended _ => false

/-- The calls in order of arrival, and what the instrumentation keeps. -/
structure TracedWorker (σ : Type) where
  calls : List TracedCall := []
  telemetry : σ

inductive TracedEvent
  | arrive
  /-- `get_response` of a call returns or raises. -/
  | handled (id : ℕ) (result : Except Thrown HttpResponse)

def failed {α : Type} : Except Thrown α → Bool
  | .ok _ => false
  | .error _ => true

namespace TracedWorker

variable {σ : Type} (hooks : Instrumentation σ) (w : TracedWorker σ)

/-- `__acall__` up to its await. -/
def arrive : TracedWorker σ where
  calls := w.calls ++
    [match (hooks.processRequest w.calls.length).outcome w.telemetry with
      | .ok _ => { phase := .handling }
      | .error e => { phase := .ended (.error e), hookFailed := true }]
  telemetry := (hooks.processRequest w.calls.length).after w.telemetry

def handle (id : ℕ) (result : Except Thrown HttpResponse) : TracedWorker σ where
  calls := w.calls.set id
    { phase := .ended ((hooks.finish id result).outcome w.telemetry)
      handled := some result
      hookFailed := failed ((hooks.closing id result).outcome w.telemetry) }
  telemetry := (hooks.finish id result).after w.telemetry

/-- What runs between two awaits is one step. -/
inductive Step (w : TracedWorker σ) : TracedEvent → TracedWorker σ → Prop
  | arrive : Step w .arrive (w.arrive hooks)
  | handled (id : ℕ) (result : Except Thrown HttpResponse) (call : TracedCall)
      (hget : w.calls[id]? = some call) (hphase : call.phase = .handling) :
      Step w (.handled id result) (w.handle hooks id result)

end TracedWorker

/-! ### What is asked of the hooks -/

section Spans

variable {σ : Type} (gauge : σ → ℤ) (opened : σ → Finset ℕ)

/-- The gauge moves with the open spans, and only the span of one request moves. -/
structure Touches (id : ℕ) (s s' : σ) : Prop where
  gauge : gauge s' - (opened s').card = gauge s - (opened s).card
  others : ∀ other ≠ id, other ∈ opened s' ↔ other ∈ opened s

/-- The same, and the span is not opened. -/
structure Closes (id : ℕ) (s s' : σ) : Prop extends Touches gauge opened id s s' where
  closing : id ∈ opened s' → id ∈ opened s

structure Instrumentation.Counts (hooks : Instrumentation σ) : Prop where
  request : ∀ id, Tx.Within (Touches gauge opened id) (hooks.processRequest id)
  exception : ∀ id exc, Tx.Within (Closes gauge opened id) (hooks.processException id exc)
  response : ∀ id response, Tx.Within (Closes gauge opened id) (hooks.processResponse id response)
  closed : ∀ id response s returned, (hooks.processResponse id response).outcome s = .ok returned →
    id ∉ opened ((hooks.processResponse id response).after s)

/-- The process starts with no span and the gauge at zero. -/
def tracing (hooks : Instrumentation σ) : System (TracedWorker σ) TracedEvent where
  init w := w.calls = [] ∧ opened w.telemetry = ∅ ∧ gauge w.telemetry = 0
  step := TracedWorker.Step hooks

variable {gauge opened} {hooks : Instrumentation σ} {w w' : TracedWorker σ} {s s' : σ} {id : ℕ}

instance : Std.Refl (Closes gauge opened id) := ⟨fun _ => ⟨⟨rfl, fun _ _ => Iff.rfl⟩, fun h => h⟩⟩

instance : IsTrans σ (Closes gauge opened id) where
  trans _ _ _ hab hbc :=
    ⟨⟨hbc.gauge.trans hab.gauge, fun other hne => (hbc.others other hne).trans (hab.others other hne)⟩,
      fun h => hab.closing (hbc.closing h)⟩

/-! ### The end of one call -/

theorem within_closing (h : hooks.Counts gauge opened) (id : ℕ)
    (result : Except Thrown HttpResponse) :
    Tx.Within (Closes gauge opened id) (hooks.closing id result) := by
  cases result with
  | ok response => exact h.response id response
  | error exc => exact Tx.Within.bind (h.exception id exc) fun _ _ => h.response id _

/-- A call that `get_response` raised in leaves the store as its close did, and
lets an `Exception` of the close go. -/
theorem finish_error (hooks : Instrumentation σ) (id : ℕ) (exc : Thrown) (s : σ) :
    hooks.finish id (.error exc) s =
      match hooks.closing id (.error exc) s with
      | (.ok _, t) => (.error exc, t)
      | (.error e, t) => (.error (if e.isException then exc else e), t) := by
  simp only [Instrumentation.finish, bind, Tx.andThen, Tx.catching]
  rcases hooks.closing id (.error exc) s with ⟨e | returned, t⟩
  · dsimp only
    cases e.isException <;> rfl
  · rfl

theorem after_finish (id : ℕ) (result : Except Thrown HttpResponse) (s : σ) :
    (hooks.finish id result).after s = (hooks.closing id result).after s := by
  cases result with
  | ok response => rfl
  | error exc =>
      rw [Tx.after, Tx.after, finish_error]
      rcases hooks.closing id (.error exc) s with ⟨_ | returned, t⟩ <;> rfl

/-- What leaves a call that `get_response` raised in: the exception it raised,
unless the close raised one that is no `Exception`. -/
theorem outcome_finish_error (hooks : Instrumentation σ) (id : ℕ) (exc : Thrown) (s : σ) :
    (hooks.finish id (.error exc)).outcome s = .error exc ∨
      ∃ e, e.isException = false ∧ (hooks.closing id (.error exc)).outcome s = .error e ∧
        (hooks.finish id (.error exc)).outcome s = .error e := by
  rw [Tx.outcome, Tx.outcome, finish_error]
  rcases hooks.closing id (.error exc) s with ⟨e | returned, t⟩
  · cases hcaught : e.isException with
    | true => exact .inl (by simp [hcaught])
    | false => exact .inr ⟨e, hcaught, rfl, by simp [hcaught]⟩
  · exact .inl rfl

theorem closed_of_closing (h : hooks.Counts gauge opened) {result : Except Thrown HttpResponse}
    (hok : failed ((hooks.closing id result).outcome s) = false) :
    id ∉ opened ((hooks.closing id result).after s) := by
  obtain ⟨returned, hreturned⟩ : ∃ returned, (hooks.closing id result).outcome s = .ok returned := by
    cases hresult : (hooks.closing id result).outcome s with
    | ok returned => exact ⟨returned, rfl⟩
    | error e =>
        rw [hresult] at hok
        contradiction
  cases result with
  | ok response => exact h.closed id response s returned hreturned
  | error exc =>
      obtain ⟨_, _, hresponse, hafter⟩ := Tx.outcome_bind_ok hreturned
      change id ∉ opened (Tx.after (hooks.processException id exc >>= _) s)
      rw [hafter]
      exact h.closed id _ _ returned hresponse

/-! ### Any interleaving -/

/-- The exception of `get_response` is the one that leaves the call. -/
def TracedCall.KeepsException (call : TracedCall) : Prop :=
  ∀ exc, call.handled = some (.error exc) →
    call.phase = .ended (.error exc) ∨
      (∃ e, e.isException = false ∧ call.phase = .ended (.error e)) ∧ call.hookFailed = true

/-- The account of the spans: the gauge is the number of open ones, and each
belongs to a request in flight or to one whose hooks raised. -/
structure SpansAccounted (gauge : σ → ℤ) (opened : σ → Finset ℕ) (w : TracedWorker σ) : Prop where
  gauge : gauge w.telemetry = (opened w.telemetry).card
  owned : ∀ id ∈ opened w.telemetry, ∃ call, w.calls[id]? = some call ∧
    (call.phase = .handling ∨ call.hookFailed = true)
  exceptions : ∀ call ∈ w.calls, call.KeepsException

theorem SpansAccounted.arrive (h : SpansAccounted gauge opened w)
    (hcounts : hooks.Counts gauge opened) : SpansAccounted gauge opened (w.arrive hooks) := by
  have hmoves := hcounts.request w.calls.length w.telemetry
  refine ⟨?_, fun id hid => ?_, fun call hcall => ?_⟩
  · have hgauge := hmoves.gauge
    rw [h.gauge] at hgauge
    exact Int.sub_eq_zero.mp (hgauge.trans (Int.sub_self _))
  · by_cases hnew : id = w.calls.length
    · subst hnew
      refine ⟨_, List.getElem?_concat_length, ?_⟩
      cases (hooks.processRequest w.calls.length).outcome w.telemetry with
      | ok _ => exact .inl rfl
      | error e => exact .inr rfl
    · obtain ⟨call, hget, hcase⟩ := h.owned id ((hmoves.others id hnew).mp hid)
      refine ⟨call, ?_, hcase⟩
      change (w.calls ++ _)[id]? = _
      rw [List.getElem?_append_left (List.getElem?_eq_some_iff.mp hget).1]
      exact hget
  · rcases List.mem_append.mp hcall with hcall | hcall
    · exact h.exceptions call hcall
    · obtain rfl := List.mem_singleton.mp hcall
      intro exc hhandled
      cases hrequest : (hooks.processRequest w.calls.length).outcome w.telemetry <;>
        simp [hrequest] at hhandled

theorem SpansAccounted.handle (h : SpansAccounted gauge opened w)
    (hcounts : hooks.Counts gauge opened) {call : TracedCall} (hget : w.calls[id]? = some call)
    (result : Except Thrown HttpResponse) :
    SpansAccounted gauge opened (w.handle hooks id result) := by
  have hmoves : Closes gauge opened id w.telemetry
      ((hooks.finish id result).after w.telemetry) := by
    rw [after_finish]
    exact within_closing hcounts id result w.telemetry
  refine ⟨?_, fun other hother => ?_, fun call' hcall => ?_⟩
  · have hgauge := hmoves.gauge
    rw [h.gauge] at hgauge
    exact Int.sub_eq_zero.mp (hgauge.trans (Int.sub_self _))
  · by_cases hid : other = id
    · subst hid
      refine ⟨_, List.getElem?_set_self (List.getElem?_eq_some_iff.mp hget).1, .inr ?_⟩
      by_contra hfailed
      refine closed_of_closing hcounts (Bool.eq_false_of_not_eq_true hfailed) ?_
      rw [← after_finish]
      exact hother
    · obtain ⟨call', hget', hcase⟩ := h.owned other ((hmoves.others other hid).mp hother)
      refine ⟨call', ?_, hcase⟩
      change (w.calls.set id _)[other]? = _
      rw [List.getElem?_set_ne (Ne.symm hid)]
      exact hget'
  · rcases List.mem_or_eq_of_mem_set hcall with hcall | rfl
    · exact h.exceptions call' hcall
    · intro exc hhandled
      obtain rfl := Option.some.inj hhandled
      rcases outcome_finish_error hooks id exc w.telemetry with
        hkept | ⟨e, hbase, hclosing, hended⟩
      · exact .inl (congrArg TracedPhase.ended hkept)
      · exact .inr ⟨⟨e, hbase, congrArg TracedPhase.ended hended⟩, by simp [hclosing, failed]⟩

theorem spansAccounted_inductive (hcounts : hooks.Counts gauge opened) :
    (tracing gauge opened hooks).Inductive (SpansAccounted gauge opened) where
  init := by
    rintro w ⟨hcalls, hopened, hgauge⟩
    refine ⟨by simp [hgauge, hopened], by simp [hopened], by simp [hcalls]⟩
  step := by
    intro w event w' h hstep
    cases hstep with
    | arrive => exact h.arrive hcounts
    | handled id result call hget hphase => exact h.handle hcounts hget result

/-- In flight, or with a hook that raised. -/
def TracedCall.mayHoldSpan (call : TracedCall) : Bool := call.isHandling || call.hookFailed

theorem countP_eq_range {α : Type} (p : α → Bool) (xs : List α) :
    xs.countP p = (List.range xs.length).countP fun i => xs[i]?.any p := by
  have hmap : (List.range xs.length).map (fun i => xs[i]?.any p) = xs.map p := by
    apply List.ext_getElem
    · simp
    · intro i hi hi'
      have hlt : i < xs.length := by simpa using hi
      simp [hlt]
  have hcount := congrArg (List.countP id) hmap
  rw [List.countP_map, List.countP_map] at hcount
  exact hcount.symm

/-- No more spans are open than calls may hold one. -/
theorem card_opened_le (h : SpansAccounted gauge opened w) :
    (opened w.telemetry).card ≤ w.calls.countP TracedCall.mayHoldSpan := by
  let holders := (List.range w.calls.length).filter fun id => w.calls[id]?.any TracedCall.mayHoldSpan
  have hsubset : opened w.telemetry ⊆ holders.toFinset := by
    intro id hid
    obtain ⟨call, hget, hcase⟩ := h.owned id hid
    have hholds : call.mayHoldSpan = true := by
      rcases hcase with hhandling | hfailed
      · simp [TracedCall.mayHoldSpan, TracedCall.isHandling, hhandling]
      · simp [TracedCall.mayHoldSpan, hfailed]
    have hlt := (List.getElem?_eq_some_iff.mp hget).1
    exact List.mem_toFinset.mpr
      (List.mem_filter.mpr ⟨List.mem_range.mpr hlt, by simp [hget, hholds]⟩)
  calc (opened w.telemetry).card ≤ holders.toFinset.card := Finset.card_le_card hsubset
    _ ≤ holders.length := List.toFinset_card_le _
    _ = w.calls.countP TracedCall.mayHoldSpan := by
        rw [countP_eq_range, List.countP_eq_length_filter]

/-- In every interleaving of requests, responses, failures and cancellations:
the gauge is the number of open spans, every open span is that of a request in
flight or of one whose hooks raised, so the gauge never exceeds their number,
and no call swaps the exception it is to let through. -/
theorem spans_accounted (hcounts : hooks.Counts gauge opened)
    (hw : (tracing gauge opened hooks).Reachable w) :
    SpansAccounted gauge opened w ∧
      gauge w.telemetry ≤ w.calls.countP TracedCall.mayHoldSpan := by
  have haccounted := (spansAccounted_inductive hcounts).reachable hw
  refine ⟨haccounted, ?_⟩
  rw [haccounted.gauge]
  exact_mod_cast card_opened_le haccounted

end Spans

/-! ### One response and one hang-up -/

/-- Open spans and their number, and a `process_response` that closes its own. -/
def metered : Instrumentation (Finset ℕ × ℤ) where
  processRequest id := Tx.write fun s =>
    if id ∈ s.1 then s else (insert id s.1, s.2 + 1)
  processException _ _ := pure ()
  processResponse id response := fun s =>
    (.ok response, if id ∈ s.1 then (s.1.erase id, s.2 - 1) else s)

theorem counts_metered : metered.Counts (fun s => s.2) fun s => s.1 where
  request id s := by
    change Touches _ _ id s (if id ∈ s.1 then s else (insert id s.1, s.2 + 1))
    split
    · exact ⟨rfl, fun _ _ => Iff.rfl⟩
    · rename_i hnew
      refine ⟨?_, fun other hne => by simp [hne]⟩
      rw [Finset.card_insert_of_notMem hnew]
      push_cast
      omega
  exception _ _ s := Std.Refl.refl s
  response id response s := by
    change Closes _ _ id s (if id ∈ s.1 then (s.1.erase id, s.2 - 1) else s)
    split
    · rename_i hopen
      refine ⟨⟨?_, fun other hne => by simp [hne]⟩, by simp⟩
      have hcard := Finset.card_erase_add_one hopen
      dsimp only
      omega
    · exact Std.Refl.refl s
  closed id response s returned _ := by
    change id ∉ (if id ∈ s.1 then (s.1.erase id, s.2 - 1) else s).1
    split
    · simp
    · assumption

def cancelledError : Thrown := { name := "CancelledError", isException := false }

/-- Two requests in flight; one is answered and the other hung up on. -/
def servedWorker : TracedWorker (Finset ℕ × ℤ) :=
  (((TracedWorker.arrive metered { telemetry := (∅, 0) }).arrive metered).handle metered 1
    (.error cancelledError)).handle metered 0 (.ok { status := 200 })

theorem spans_accounted_servedWorker :
    SpansAccounted (fun s : Finset ℕ × ℤ => s.2) (fun s => s.1) servedWorker ∧
      servedWorker.telemetry.2 ≤ servedWorker.calls.countP TracedCall.mayHoldSpan := by
  have hinit : (tracing (fun s => s.2) (fun s => s.1) metered).Reachable
      { telemetry := (∅, 0) } := .of_init ⟨rfl, rfl, rfl⟩
  have hboth := (hinit.next .arrive).next .arrive
  have hhung := hboth.next (.handled 1 (.error cancelledError) _ rfl rfl)
  exact spans_accounted counts_metered (hhung.next (.handled 0 (.ok { status := 200 }) _ rfl rfl))

end NetixBackend.Observability
