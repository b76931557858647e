import NetixBackend.Asgi.Messages
import NetixBackend.Transition.System
import Mathlib.Data.Finset.Card

/-!
`RequestTimeoutMiddleware`: any number of requests through one middleware.

What runs between two awaits is one step. A middleware call is in one phase;
the app it wraps runs beside it in a task of its own, sends through the
channel, and finishes when it likes. `wake` resumes a call from
`asyncio.wait`: it sees whether the app task is done at that moment, whatever
fired the wake-up, so nothing the app does between the timer and the wake-up
is lost. The timer may fire at any time, so a call may be woken at any time.

The app is held to the ASGI protocol (`Request.allows`): one
`http.response.start` at most, and no body before it. A cancelled call ends at
its await; the app task is left running, except where the call was awaiting
the app itself and the cancellation is the app's to handle.
-/

namespace NetixBackend.Asgi

open Python Transition

structure Config where
  /-- `None` applies the ceiling to every method. -/
  safeMethods : Option (List String) := some ["GET", "HEAD", "OPTIONS"]
  neverShed : List String := ["OPTIONS"]
  maxAbandoned : Number := .finite 50
  retryAfter : Option ℤ := some 5
  errorBody : ErrorRenderer
  timeoutMessage : String := "Request exceeded the server time limit."
  overloadedMessage : String := "Server is shedding load; retry shortly."

/-- Whether the ceiling applies to `method`. -/
def Config.isCapped (cfg : Config) (method : Option String) : Bool :=
  match cfg.safeMethods with
  | none => true
  | some methods => method.any methods.contains

inductive Outcome
  | returned
  | raised (error : String)
  | cancelled
  deriving DecidableEq, Repr

inductive App
  | notInvoked
  | running
  | done (outcome : Outcome)
  deriving DecidableEq, Repr

/-- Where a middleware call stands. -/
inductive Phase
  /-- Inside the app, which has the server's own `send`. -/
  | direct
  /-- In `asyncio.wait`. -/
  | waiting
  /-- In `await request`, the response having started. -/
  | awaiting
  /-- In `_reply`, with these messages to send. -/
  | replying (left : List Message)
  | ended (outcome : Outcome)
  deriving DecidableEq, Repr

/-- One request: the call, the app, the channel's two flags, and what was
sent, by the app and to the server. -/
structure Request where
  scope : Scope
  phase : Phase
  app : App
  started : Bool := false
  abandoned : Bool := false
  appSent : List Message := []
  wire : List Message := []

/-- The requests in order of arrival, and `_abandoned`. -/
structure Worker where
  requests : List Request := []
  abandoned : Finset ℕ := ∅

inductive RequestEvent
  | send (message : Message)
  | finish (outcome : Outcome)
  | wake
  | reply
  | cancel

inductive Event
  | arrive (scope : Scope)
  | request (id : ℕ) (event : RequestEvent)
  /-- The completion callback of an abandoned task. -/
  | callback (id : ℕ)

/-- `len(self._abandoned) >= self.max_abandoned`. -/
def Config.isFull (cfg : Config) (abandoned : ℕ) : Bool :=
  cfg.maxAbandoned.lt (.finite abandoned) || cfg.maxAbandoned.eq (.finite abandoned)

def pairList (pair : Message × Message) : List Message := [pair.1, pair.2]

def Config.shedReply (cfg : Config) (scope : Scope) : List Message :=
  pairList (cfg.errorBody.render 503 cfg.overloadedMessage scope cfg.retryAfter)

def Config.timeoutReply (cfg : Config) (scope : Scope) : List Message :=
  pairList (cfg.errorBody.render 504 cfg.timeoutMessage scope none)

/-- Whether `__call__` puts the request under the ceiling. -/
def Config.caps (cfg : Config) (scope : Scope) : Bool :=
  scope.type == "http" && cfg.isCapped scope.method

/-- `__call__` up to its first await. -/
def Config.call (cfg : Config) (abandoned : ℕ) (scope : Scope) : Request :=
  if !cfg.caps scope then { scope := scope, phase := .direct, app := .running }
  else if !scope.method.any cfg.neverShed.contains && cfg.isFull abandoned then
    { scope := scope, phase := .replying (cfg.shedReply scope), app := .notInvoked }
  else { scope := scope, phase := .waiting, app := .running }

/-- The app keeps to the protocol by sending `message` next. -/
def Request.allows (r : Request) (message : Message) : Bool :=
  if message.isStart then !r.appSent.any Message.isStart
  else if message.isBody then r.appSent.any Message.isStart
  else true

/-- The app sends: through `_ResponseChannel.send`, or directly. -/
def Request.send (r : Request) (message : Message) : Request :=
  match r.phase with
  | .direct => { r with appSent := r.appSent ++ [message], wire := r.wire ++ [message] }
  | _ =>
      if r.abandoned then { r with appSent := r.appSent ++ [message] }
      else
        { r with
          started := r.started || message.isStart
          appSent := r.appSent ++ [message]
          wire := r.wire ++ [message] }

/-- The app finishes; a call inside the app finishes with it. -/
def Request.finish (r : Request) (outcome : Outcome) : Request :=
  match r.phase with
  | .direct => { r with app := .done outcome, phase := .ended outcome }
  | _ => { r with app := .done outcome }

/-- The call resumes after `asyncio.wait`, or after `await request`. -/
def Request.wake (cfg : Config) (r : Request) : Option Request :=
  match r.phase, r.app with
  | .waiting, .done outcome => some { r with phase := .ended outcome }
  | .waiting, .running =>
      if r.started then some { r with phase := .awaiting }
      else some { r with abandoned := true, phase := .replying (cfg.timeoutReply r.scope) }
  | .awaiting, .done outcome => some { r with phase := .ended outcome }
  | _, _ => none

/-- `_reply` hands the next message to the server. -/
def Request.reply (r : Request) : Option Request :=
  match r.phase with
  | .replying (message :: left) =>
      some { r with
        wire := r.wire ++ [message]
        phase := if left.isEmpty then .ended .returned else .replying left }
  | _ => none

/-- The server cancels the call at its own await. -/
def Request.cancel (r : Request) : Option Request :=
  match r.phase with
  | .waiting | .replying _ => some { r with phase := .ended .cancelled }
  | _ => none

def Request.step (cfg : Config) (r : Request) : RequestEvent → Option Request
  | .send message =>
      if r.app = .running ∧ r.allows message = true then some (r.send message) else none
  | .finish outcome => if r.app = .running then some (r.finish outcome) else none
  | .wake => r.wake cfg
  | .reply => r.reply
  | .cancel => r.cancel

/-- One step of the worker. A request that is abandoned joins `_abandoned` in
the same step. -/
def Worker.step (cfg : Config) (w : Worker) : Event → Option Worker
  | .arrive scope =>
      some { w with requests := w.requests ++ [cfg.call w.abandoned.card scope] }
  | .request id event => do
      let r ← w.requests[id]?
      let r' ← r.step cfg event
      some
        { requests := w.requests.set id r'
          abandoned := if r'.abandoned && !r.abandoned then insert id w.abandoned else w.abandoned }
  | .callback id => do
      let r ← w.requests[id]?
      match r.app with
      | .done _ =>
          if id ∈ w.abandoned then some { w with abandoned := w.abandoned.erase id } else none
      | _ => none

def ceiling (cfg : Config) : System Worker Event where
  init w := w = {}
  step w event w' := w.step cfg event = some w'

/-! ### What a step can do -/

variable {cfg : Config} {w w' : Worker} {r r' : Request}

/-- The inversion lemma of the worker: each event is an arrival, a step of one
request, or a callback. -/
theorem Worker.step_cases {event : Event} (h : w.step cfg event = some w') :
    (∃ scope, event = .arrive scope ∧
      w' = { w with requests := w.requests ++ [cfg.call w.abandoned.card scope] }) ∨
    (∃ id e r r', event = .request id e ∧ w.requests[id]? = some r ∧ r.step cfg e = some r' ∧
      w' = { requests := w.requests.set id r'
             abandoned :=
              if r'.abandoned && !r.abandoned then insert id w.abandoned else w.abandoned }) ∨
    (∃ id r outcome, event = .callback id ∧ w.requests[id]? = some r ∧ r.app = .done outcome ∧
      id ∈ w.abandoned ∧ w' = { w with abandoned := w.abandoned.erase id }) := by
  cases event with
  | arrive scope => exact .inl ⟨scope, rfl, (Option.some.inj h).symm⟩
  | request id e =>
      simp only [Worker.step, Option.bind_eq_bind, Option.bind_eq_some_iff] at h
      obtain ⟨r, hr, r', hr', hw⟩ := h
      exact .inr (.inl ⟨id, e, r, r', rfl, hr, hr', (Option.some.inj hw).symm⟩)
  | callback id =>
      simp only [Worker.step, Option.bind_eq_bind, Option.bind_eq_some_iff] at h
      obtain ⟨r, hr, h⟩ := h
      cases happ : r.app with
      | notInvoked => simp [happ] at h
      | running => simp [happ] at h
      | done outcome =>
          simp only [happ, Option.ite_none_right_eq_some, Option.some.injEq] at h
          exact .inr (.inr ⟨id, r, outcome, rfl, hr, happ, h.1, h.2.symm⟩)

/-- What each event can do to a request, with the conditions under which it does. -/
inductive Request.Turn (cfg : Config) (r : Request) : RequestEvent → Request → Prop
  | sendDirect (message : Message) (hrunning : r.app = .running)
      (hallows : r.allows message = true) (hphase : r.phase = .direct) :
      Turn cfg r (.send message)
        { r with appSent := r.appSent ++ [message], wire := r.wire ++ [message] }
  | sendMuted (message : Message) (hrunning : r.app = .running)
      (hallows : r.allows message = true) (hphase : r.phase ≠ .direct)
      (hmuted : r.abandoned = true) :
      Turn cfg r (.send message) { r with appSent := r.appSent ++ [message] }
  | relay (message : Message) (hrunning : r.app = .running)
      (hallows : r.allows message = true) (hphase : r.phase ≠ .direct)
      (hlive : r.abandoned = false) :
      Turn cfg r (.send message)
        { r with
          started := r.started || message.isStart
          appSent := r.appSent ++ [message]
          wire := r.wire ++ [message] }
  | finishDirect (outcome : Outcome) (hrunning : r.app = .running) (hphase : r.phase = .direct) :
      Turn cfg r (.finish outcome) { r with app := .done outcome, phase := .ended outcome }
  | finishApart (outcome : Outcome) (hrunning : r.app = .running) (hphase : r.phase ≠ .direct) :
      Turn cfg r (.finish outcome) { r with app := .done outcome }
  | seeDone (outcome : Outcome) (hphase : r.phase = .waiting ∨ r.phase = .awaiting)
      (happ : r.app = .done outcome) : Turn cfg r .wake { r with phase := .ended outcome }
  | seeStarted (hphase : r.phase = .waiting) (hrunning : r.app = .running)
      (hstarted : r.started = true) : Turn cfg r .wake { r with phase := .awaiting }
  | abandon (hphase : r.phase = .waiting) (hrunning : r.app = .running)
      (hstarted : r.started = false) :
      Turn cfg r .wake
        { r with abandoned := true, phase := .replying (cfg.timeoutReply r.scope) }
  | reply (message : Message) (left : List Message)
      (hphase : r.phase = .replying (message :: left)) :
      Turn cfg r .reply
        { r with
          wire := r.wire ++ [message]
          phase := if left.isEmpty then .ended .returned else .replying left }
  | cancel (hphase : r.phase = .waiting ∨ ∃ left, r.phase = .replying left) :
      Turn cfg r .cancel { r with phase := .ended .cancelled }

/-- The inversion lemma of one request. -/
theorem Request.turn_of_step {event : RequestEvent} (h : r.step cfg event = some r') :
    r.Turn cfg event r' := by
  cases event with
  | send message =>
      obtain ⟨⟨hrunning, hallows⟩, hsent⟩ := Option.ite_none_right_eq_some.mp h
      obtain rfl := Option.some.inj hsent
      unfold Request.send
      split
      · exact .sendDirect message hrunning hallows ‹_›
      · rename_i hphase
        split
        · exact .sendMuted message hrunning hallows hphase ‹_›
        · exact .relay message hrunning hallows hphase (Bool.eq_false_of_not_eq_true ‹_›)
  | finish outcome =>
      obtain ⟨hrunning, hfinished⟩ := Option.ite_none_right_eq_some.mp h
      obtain rfl := Option.some.inj hfinished
      unfold Request.finish
      split
      · exact .finishDirect outcome hrunning ‹_›
      · exact .finishApart outcome hrunning ‹_›
  | wake =>
      change r.wake cfg = some r' at h
      unfold Request.wake at h
      split at h
      · exact Option.some.inj h ▸ .seeDone _ (.inl ‹_›) ‹_›
      · rename_i hphase hrunning
        split at h
        · exact Option.some.inj h ▸ .seeStarted hphase hrunning ‹_›
        · exact Option.some.inj h ▸
            .abandon hphase hrunning (Bool.eq_false_of_not_eq_true ‹_›)
      · exact Option.some.inj h ▸ .seeDone _ (.inr ‹_›) ‹_›
      · exact nomatch h
  | reply =>
      change r.reply = some r' at h
      unfold Request.reply at h
      split at h
      · exact Option.some.inj h ▸ .reply _ _ ‹_›
      · exact nomatch h
  | cancel =>
      change r.cancel = some r' at h
      unfold Request.cancel at h
      split at h
      · exact Option.some.inj h ▸ .cancel (.inl ‹_›)
      · exact Option.some.inj h ▸ .cancel (.inr ⟨_, ‹_›⟩)
      · exact nomatch h

/-! ### The history of a request -/

/-- The events of one request in their order. -/
def history (id : ℕ) (events : List Event) : List RequestEvent :=
  events.filterMap fun
    | .request i event => if i = id then some event else none
    | _ => none

theorem history_concat_request (id i : ℕ) (events : List Event) (e : RequestEvent) :
    history id (events ++ [.request i e]) =
      if i = id then history id events ++ [e] else history id events := by
  rw [history, List.filterMap_append]
  by_cases hid : i = id
  · simp [history, hid]
  · simp [history, hid]

theorem history_concat_arrive (id : ℕ) (events : List Event) (scope : Scope) :
    history id (events ++ [.arrive scope]) = history id events := by simp [history]

theorem history_concat_callback (id i : ℕ) (events : List Event) :
    history id (events ++ [.callback i]) = history id events := by simp [history]

/-- A property of each request and its history holds in every run if a new call
has it and every step of one request keeps it. -/
theorem forall_histories_of_reachable {guard : Worker → Event → Prop}
    {P : List RequestEvent → Request → Prop} {events : List Event}
    (hcall : ∀ abandoned scope, P [] (cfg.call abandoned scope))
    (hstep : ∀ w id e past r r', guard w (.request id e) → P past r → r.step cfg e = some r' →
      P (past ++ [e]) r')
    (hw : ((ceiling cfg).restrict guard).traced.Reachable (w, events)) :
    ∀ id r, w.requests[id]? = some r → P (history id events) r := by
  -- a request that has not arrived has no history
  have hinv : ((ceiling cfg).restrict guard).traced.Inductive fun s =>
      (∀ id, s.1.requests.length ≤ id → history id s.2 = []) ∧
        ∀ id r, s.1.requests[id]? = some r → P (history id s.2) r := by
    refine ⟨?_, ?_⟩
    · rintro ⟨w, events⟩ ⟨hinit, hevents⟩
      obtain rfl : w = {} := hinit
      obtain rfl : events = [] := hevents
      exact ⟨fun _ _ => rfl, fun id r hr => by simp at hr⟩
    · rintro ⟨w, events⟩ event ⟨w', events'⟩ ⟨hnew, hall⟩ ⟨⟨hguard, hstep'⟩, hevents⟩
      obtain rfl : events' = events ++ [event] := hevents
      rcases Worker.step_cases hstep' with ⟨scope, rfl, hw'⟩ |
        ⟨i, e, r₀, r₁, rfl, hget, hr₁, hw'⟩ | ⟨i, r₀, outcome, rfl, -, -, -, hw'⟩
      · obtain rfl : w' = _ := hw'
        simp only [history_concat_arrive]
        refine ⟨fun id hid => hnew id ?_, fun id r hr => ?_⟩
        · rw [List.length_append] at hid
          exact (Nat.le_add_right _ _).trans hid
        · rw [List.getElem?_append] at hr
          split at hr
          · exact hall id r hr
          · rename_i hid
            obtain rfl := List.mem_singleton.mp (List.mem_of_getElem? hr)
            rw [hnew id (not_lt.mp hid)]
            exact hcall _ scope
      · have hlt : i < w.requests.length := (List.getElem?_eq_some_iff.mp hget).choose
        obtain rfl : w' = _ := hw'
        simp only [history_concat_request]
        refine ⟨fun id hid => ?_, fun id r hr => ?_⟩
        · rw [List.length_set] at hid
          rw [if_neg (by omega), hnew id hid]
        · by_cases hid : i = id
          · subst hid
            rw [List.getElem?_set_self hlt] at hr
            obtain rfl := Option.some.inj hr
            rw [if_pos rfl]
            exact hstep w i e _ r₀ r₁ hguard (hall i r₀ hget) hr₁
          · rw [List.getElem?_set_ne hid] at hr
            rw [if_neg hid]
            exact hall id r hr
      · obtain rfl : w' = _ := hw'
        simp only [history_concat_callback]
        exact ⟨hnew, hall⟩
  exact (hinv.reachable hw).2

/-- The same of a property that does not look at the history. -/
theorem forall_requests_of_reachable {guard : Worker → Event → Prop} {P : Request → Prop}
    (hcall : ∀ abandoned scope, P (cfg.call abandoned scope))
    (hstep : ∀ w id e r r', guard w (.request id e) → P r → r.step cfg e = some r' → P r')
    (hw : ((ceiling cfg).restrict guard).Reachable w) : ∀ r ∈ w.requests, P r := by
  obtain ⟨events, hrun⟩ := hw.exists_traced
  intro r hr
  obtain ⟨id, hget⟩ := List.mem_iff_getElem?.mp hr
  exact forall_histories_of_reachable (P := fun _ => P) hcall
    (fun w id e _ => hstep w id e) hrun id r hget

def Worker.run (cfg : Config) (w : Worker) (events : List Event) : Option Worker :=
  events.foldlM (fun w event => w.step cfg event) w

theorem traced_run {guard : Worker → Event → Prop} {past events : List Event}
    (hw : ((ceiling cfg).restrict guard).traced.Reachable (w, past))
    (hguard : ∀ w, ∀ event ∈ events, guard w event) (hrun : w.run cfg events = some w') :
    ((ceiling cfg).restrict guard).traced.Reachable (w', past ++ events) := by
  induction events generalizing w past with
  | nil =>
      obtain rfl := Option.some.inj hrun
      rwa [List.append_nil]
  | cons event events ih =>
      obtain ⟨next, hstep, hrest⟩ := Option.bind_eq_some_iff.mp hrun
      have hnext := hw.next (t := (next, past ++ [event])) ⟨⟨hguard w event (by simp), hstep⟩, rfl⟩
      have hall := ih hnext (fun w e he => hguard w e (List.mem_cons_of_mem _ he)) hrest
      rwa [List.append_assoc] at hall

theorem reachable_run {guard : Worker → Event → Prop} {events : List Event}
    (hw : ((ceiling cfg).restrict guard).Reachable w)
    (hguard : ∀ w, ∀ event ∈ events, guard w event) (hrun : w.run cfg events = some w') :
    ((ceiling cfg).restrict guard).Reachable w' := by
  obtain ⟨past, hpast⟩ := hw.exists_traced
  exact (traced_run hpast hguard hrun).of_traced

end NetixBackend.Asgi
