import NetixBackend.Asgi.AbandonedPool
import NetixBackend.Transition.Ranking

/-!
A worker that gets no more work comes to rest.

The middleware waits for three things: the app task, the server taking the
next message of a reply, and the completion callback of an abandoned task.
None of them waits for the middleware, and each call asks for finitely many.
So once no request arrives and no app sends, every run is short (`pending`
counts what is left to happen) and goes on, without any cancellation, until
every call has ended and the abandoned pool is empty.
-/

namespace NetixBackend.Asgi

open Python Transition

/-- What a call may still go through. A reply has two messages; in
`asyncio.wait` there are also the wake-up and the callback to come. -/
def Phase.pending : Phase → ℕ
  | .waiting => 5
  | .awaiting => 1
  | .replying left => left.length + 1
  | .direct | .ended _ => 0

def App.pending : App → ℕ
  | .running => 1
  | .notInvoked | .done _ => 0

def Request.pending (r : Request) : ℕ := r.phase.pending + r.app.pending

/-- How many events are left, if there is no new work. -/
def Worker.pending (w : Worker) : ℕ := (w.requests.map Request.pending).sum + w.abandoned.card

/-- No request arrives and no app sends. -/
def windsDown (_ : Worker) : Event → Prop
  | .arrive _ => False
  | .request _ (.send _) => False
  | _ => True

/-- Every call has ended, no app runs and the pool is empty. -/
structure Idle (w : Worker) : Prop where
  ended : ∀ r ∈ w.requests, ∃ outcome, r.phase = .ended outcome
  finished : ∀ r ∈ w.requests, r.app ≠ .running
  pool : w.abandoned = ∅

variable {cfg : Config} {w w' : Worker} {r r' : Request}

/-! ### Every event is one less to come -/

theorem length_pairList (pair : Message × Message) : (pairList pair).length = 2 := rfl

/-- What is left to a request after an event other than a send, with its place
in the pool. -/
theorem Request.pending_lt {event : RequestEvent} (hsend : ∀ message, event ≠ .send message)
    (h : r.step cfg event = some r') :
    r'.pending + (if r'.abandoned && !r.abandoned then 1 else 0) < r.pending := by
  cases Request.turn_of_step h with
  | sendDirect message | sendMuted message | relay message => exact absurd rfl (hsend message)
  | finishDirect outcome hrunning hphase =>
      simp [pending, hrunning, hphase, Phase.pending, App.pending]
  | finishApart outcome hrunning hphase => simp [pending, hrunning, App.pending]
  | seeDone outcome hphase happ =>
      rcases hphase with hphase | hphase <;>
        simp [pending, hphase, happ, Phase.pending, App.pending]
  | seeStarted hphase hrunning hstarted => simp [pending, hphase, hrunning, Phase.pending]
  | abandon hphase hrunning hstarted =>
      have hreply : (cfg.timeoutReply r.scope).length = 2 := length_pairList _
      have hpool : (if true && !r.abandoned then 1 else 0) ≤ 1 := by split <;> simp
      simp only [pending, hphase, hrunning, Phase.pending, App.pending, hreply]
      omega
  | reply message left hphase =>
      cases left <;> simp [pending, hphase, Phase.pending]
  | cancel hphase =>
      rcases hphase with hphase | ⟨left, hphase⟩ <;>
        simp [pending, hphase, Phase.pending]

/-- The step lemma of the run's length. -/
theorem pending_lt {event : Event} (hguard : windsDown w event) (h : w.step cfg event = some w') :
    w'.pending < w.pending := by
  rcases Worker.step_cases h with ⟨scope, rfl, -⟩ | ⟨id, e, r, r', rfl, hget, hr, rfl⟩ |
    ⟨id, r, outcome, rfl, -, -, hmem, rfl⟩
  · exact hguard.elim
  · have hsend : ∀ message, e ≠ .send message := by
      rintro message rfl
      exact hguard
    have hless := Request.pending_lt hsend hr
    have hsum := sum_map_set Request.pending r' hget
    have hpool : (if r'.abandoned && !r.abandoned then insert id w.abandoned
        else w.abandoned).card ≤ w.abandoned.card + (if r'.abandoned && !r.abandoned then 1 else 0) := by
      split
      · exact Finset.card_insert_le _ _
      · exact le_rfl
    simp only [Worker.pending]
    omega
  · have hcard := Finset.card_erase_lt_of_mem hmem
    simp only [Worker.pending]
    omega

/-! ### Something can happen until then -/

/-- A request is never where nothing can move it on. -/
structure Poised (r : Request) : Prop where
  direct : r.phase = .direct → r.app = .running
  invoked : r.phase = .waiting ∨ r.phase = .awaiting ∨ r.abandoned = true → r.app ≠ .notInvoked
  replying : r.phase ≠ .replying []

theorem Poised.call (cfg : Config) (abandoned : ℕ) (scope : Scope) :
    Poised (cfg.call abandoned scope) := by
  unfold Config.call
  split
  · exact ⟨fun _ => rfl, by simp, by simp⟩
  · split
    · exact ⟨by simp, by simp, by simp [Config.shedReply, pairList]⟩
    · exact ⟨by simp, by simp, by simp⟩

theorem Poised.step {event : RequestEvent} (h : Poised r) (hstep : r.step cfg event = some r') :
    Poised r' := by
  cases Request.turn_of_step hstep with
  | sendDirect | sendMuted | relay => exact ⟨h.direct, h.invoked, h.replying⟩
  | finishDirect outcome hrunning hphase => exact ⟨by simp, by simp, by simp⟩
  | finishApart outcome hrunning hphase =>
      exact ⟨fun hdirect => absurd hdirect hphase, by simp, h.replying⟩
  | seeDone outcome hphase happ => exact ⟨by simp, by simp [happ], by simp⟩
  | seeStarted hphase hrunning hstarted => exact ⟨by simp, by simp [hrunning], by simp⟩
  | abandon hphase hrunning hstarted =>
      exact ⟨by simp, by simp [hrunning], by simp [Config.timeoutReply, pairList]⟩
  | reply message left hphase =>
      have hinvoked : r.abandoned = true → r.app ≠ .notInvoked := fun hmuted =>
        h.invoked (.inr (.inr hmuted))
      cases left with
      | nil => exact ⟨by simp, by simpa using hinvoked, by simp⟩
      | cons next rest => exact ⟨by simp, by simpa using hinvoked, by simp⟩
  | cancel hphase =>
      refine ⟨by simp, fun hcase => h.invoked (.inr (.inr ?_)), by simp⟩
      simpa using hcase

/-- What is in the pool is a request that was abandoned. -/
def PoolMuted (w : Worker) : Prop :=
  ∀ id ∈ w.abandoned, ∃ r, w.requests[id]? = some r ∧ r.abandoned = true

theorem muted_of_step {event : RequestEvent} (hstep : r.step cfg event = some r')
    (hmuted : r.abandoned = true) : r'.abandoned = true := by
  cases Request.turn_of_step hstep with
  | abandon => rfl
  | _ => exact hmuted

theorem poolMuted_inductive : (ceiling cfg).Inductive PoolMuted where
  init := by
    rintro w rfl id hid
    exact absurd hid (Finset.notMem_empty id)
  step := by
    intro w event w' h hstep id hid
    rcases Worker.step_cases hstep with ⟨scope, rfl, rfl⟩ | ⟨i, e, r, r', rfl, hget, hr, rfl⟩ |
      ⟨i, r, outcome, rfl, -, -, -, rfl⟩
    · obtain ⟨r, hget, hmuted⟩ := h id hid
      refine ⟨r, ?_, hmuted⟩
      rw [List.getElem?_append_left (List.getElem?_eq_some_iff.mp hget).1]
      exact hget
    · have hset : (w.requests.set i r')[i]? = some r' :=
        List.getElem?_set_self (List.getElem?_eq_some_iff.mp hget).1
      by_cases hid' : id = i
      · subst hid'
        refine ⟨r', hset, ?_⟩
        by_cases hmem : id ∈ w.abandoned
        · obtain ⟨r₀, hget₀, hmuted⟩ := h id hmem
          obtain rfl := Option.some.inj (hget.symm.trans hget₀)
          exact muted_of_step hr hmuted
        · dsimp only at hid
          split at hid
          · rename_i hjoins
            exact (Bool.and_eq_true_iff.mp hjoins).1
          · exact absurd hid hmem
      · have hmem : id ∈ w.abandoned := by
          dsimp only at hid
          split at hid
          · exact (Finset.mem_insert.mp hid).resolve_left hid'
          · exact hid
        obtain ⟨r₀, hget₀, hmuted⟩ := h id hmem
        exact ⟨r₀, by rw [List.getElem?_set_ne (Ne.symm hid')]; exact hget₀, hmuted⟩
    · exact h id (Finset.mem_of_mem_erase hid)

/-- The invariant of a worker that something can move on. -/
def Movable (w : Worker) : Prop := (∀ r ∈ w.requests, Poised r) ∧ PoolMuted w

theorem movable_of_reachable (hw : (ceiling cfg).Reachable w) : Movable w := by
  have hany : ((ceiling cfg).restrict fun _ _ => True).Reachable w := hw.restrict fun _ _ => trivial
  exact ⟨forall_requests_of_reachable (Poised.call cfg) (fun _ _ _ _ _ _ h hstep => h.step hstep)
    hany, poolMuted_inductive.reachable hw⟩

/-- An event that needs neither new work nor a cancellation is possible. -/
def Moves (cfg : Config) (w : Worker) : Prop :=
  ∃ event, windsDown w event ∧ (∀ id, event ≠ .request id .cancel) ∧
    (w.step cfg event).isSome = true

theorem moves_of_request {id : ℕ} (event : RequestEvent) (hget : w.requests[id]? = some r)
    (hsend : ∀ message, event ≠ .send message) (hcancel : event ≠ .cancel)
    (hstep : r.step cfg event = some r') : Moves cfg w := by
  refine ⟨.request id event, ?_, fun i heq => hcancel (Event.request.inj heq).2, ?_⟩
  · cases event with
    | send message => exact hsend message rfl
    | _ => trivial
  · simp only [Worker.step, hget, Option.bind_eq_bind, Option.bind_some, hstep, Option.isSome_some]

theorem App.cases_done (app : App) (hrunning : app ≠ .running) (hinvoked : app ≠ .notInvoked) :
    ∃ outcome, app = .done outcome := by
  cases app with
  | done outcome => exact ⟨outcome, rfl⟩
  | running => exact absurd rfl hrunning
  | notInvoked => exact absurd rfl hinvoked

/-- Whatever keeps a worker from being idle is something that can happen. -/
theorem idle_or_moves (h : Movable w) : Idle w ∨ Moves cfg w := by
  by_cases hrunning : ∃ r ∈ w.requests, r.app = .running
  · obtain ⟨r, hr, happ⟩ := hrunning
    obtain ⟨id, hget⟩ := List.mem_iff_getElem?.mp hr
    exact .inr (moves_of_request (.finish .returned) hget (by simp) (by simp) (if_pos happ))
  simp only [not_exists, not_and] at hrunning
  by_cases hopen : ∃ r ∈ w.requests, ∀ outcome, r.phase ≠ .ended outcome
  · obtain ⟨r, hr, hopen⟩ := hopen
    obtain ⟨id, hget⟩ := List.mem_iff_getElem?.mp hr
    have hpoised := h.1 r hr
    right
    cases hphase : r.phase with
    | ended outcome => exact absurd hphase (hopen outcome)
    | direct => exact absurd (hpoised.direct hphase) (hrunning r hr)
    | waiting =>
        obtain ⟨outcome, happ⟩ := r.app.cases_done (hrunning r hr) (hpoised.invoked (.inl hphase))
        exact moves_of_request .wake hget (by simp) (by simp)
          (by simp only [Request.step, Request.wake, hphase, happ]; rfl)
    | awaiting =>
        obtain ⟨outcome, happ⟩ :=
          r.app.cases_done (hrunning r hr) (hpoised.invoked (.inr (.inl hphase)))
        exact moves_of_request .wake hget (by simp) (by simp)
          (by simp only [Request.step, Request.wake, hphase, happ]; rfl)
    | replying left =>
        cases left with
        | nil => exact absurd hphase hpoised.replying
        | cons message rest =>
            exact moves_of_request .reply hget (by simp) (by simp)
              (by simp only [Request.step, Request.reply, hphase]; rfl)
  simp only [not_exists, not_and, not_forall, not_not] at hopen
  by_cases hpool : w.abandoned = ∅
  · exact .inl ⟨hopen, hrunning, hpool⟩
  · obtain ⟨id, hid⟩ := Finset.nonempty_iff_ne_empty.mpr hpool
    obtain ⟨r, hget, hmuted⟩ := h.2 id hid
    have hr := List.mem_of_getElem? hget
    obtain ⟨outcome, happ⟩ :=
      r.app.cases_done (hrunning r hr) ((h.1 r hr).invoked (.inr (.inr hmuted)))
    refine .inr ⟨.callback id, trivial, by simp, ?_⟩
    simp only [Worker.step, hget, Option.bind_eq_bind, Option.bind_some, happ, if_pos hid,
      Option.isSome_some]

/-! ### Coming to rest -/

theorem ranked_windsDown :
    ((ceiling cfg).restrict windsDown).Ranked (ceiling cfg).Reachable Worker.pending where
  keeps _ _ _ hs hstep := hs.next hstep.2
  falls _ _ _ _ hstep := pending_lt hstep.1 hstep.2

/-- Whatever the worker is in the middle of, a run without new work is over
after as many events as are pending, and where it cannot go on without a
cancellation the worker is idle. -/
theorem comes_to_rest (hw : (ceiling cfg).Reachable w) {events : List Event}
    (hrun : ((ceiling cfg).restrict windsDown).Run w events w') :
    events.length + w'.pending ≤ w.pending ∧ (Idle w' ∨ Moves cfg w') :=
  ⟨ranked_windsDown.length_le hw hrun,
    idle_or_moves (movable_of_reachable (ranked_windsDown.inv_of_run hw hrun))⟩

/-- One `GET` is being answered 504 while its app still runs. -/
def busyWorker : Worker :=
  (Worker.run { errorBody := textMessages } {} [.arrive getScope, .request 0 .wake]).getD {}

/-- The app finishes, the reply is sent, and the callback empties the pool. -/
def restingWorker : Worker :=
  (busyWorker.run { errorBody := textMessages } [.request 0 (.finish .returned), .request 0 .reply,
    .request 0 .reply, .callback 0]).getD {}

theorem comes_to_rest_busyWorker :
    4 + restingWorker.pending ≤ busyWorker.pending ∧
      (Idle restingWorker ∨ Moves { errorBody := textMessages } restingWorker) := by
  have hrun : Worker.run { errorBody := textMessages } {} [.arrive getScope, .request 0 .wake] =
      some busyWorker := rfl
  have hinit : ((ceiling { errorBody := textMessages }).restrict fun _ _ => True).Reachable {} :=
    .of_init rfl
  have hbusy := (reachable_run hinit (fun _ _ _ => trivial) hrun).of_restrict
  have hrest : ((ceiling { errorBody := textMessages }).restrict windsDown).Run busyWorker
      [.request 0 (.finish .returned), .request 0 .reply, .request 0 .reply, .callback 0]
      restingWorker :=
    .cons ⟨trivial, rfl⟩ (.cons ⟨trivial, rfl⟩ (.cons ⟨trivial, rfl⟩ (.cons ⟨trivial, rfl⟩
      (.nil restingWorker))))
  exact comes_to_rest hbusy hrest

end NetixBackend.Asgi
