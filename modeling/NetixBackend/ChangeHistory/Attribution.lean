import NetixBackend.ChangeHistory.Actor
import NetixBackend.Python.Contexts
import NetixBackend.Transition.System

/-!
Who an entry names, when requests are served side by side.

A worker serves each request in a task of its own, and what the request starts
runs in copies of the task's context: more tasks, and the threads of the
synchronous code, whose binding is copied back when they are done. Between two
steps of one task any other may take any number of steps, and tokens may be
handed from one to another.

An entry is stamped with what `get_actor` gives in the context that writes it.
What it may give is settled by `Own`: the identity, and the reason, were given
for the same request, or for the server, whose binding the tasks start with; or
nobody is bound. Every step keeps it, the reset of another task's token
included, which clears the binding.
-/

namespace NetixBackend.ChangeHistory

open Python Effects Transition

/-! ### The steps of a task -/

/-- The actor that `actor_context` binds. -/
def contextActor (user : Option User) (source : String) (reason : Option String) :
    Except PyError ChangeActor :=
  match user with
  | some user => ChangeActor.fromUser user source reason
  | none => .ok { source := source, reason := normalizeReason reason }

/-- What code does to the binding in its own context, or writes under it. A
block is left by the reset of its token. -/
inductive TaskEvent
  /-- `set_actor(actor)`, of the middleware too. -/
  | setActor (actor : Option ChangeActor)
  | resetActor (token : Option ℕ)
  | enterActorContext (user : Option User) (source : String) (reason : Option String)
  | enterReasonContext (reason : Option String)
  | write (now : String) (action : Action) (changes : List Change)

namespace TaskEvent

def act : TaskEvent → Act Unit Unit
  | setActor actor => do
      let _ ← ChangeHistory.setActor actor
  | resetActor token => ChangeHistory.resetActor token
  | enterActorContext user source reason => do
      let actor ← Tx.ofExcept (contextActor user source reason)
      let _ ← ChangeHistory.setActor (some actor)
  | enterReasonContext reason => do
      let actor ← getActor
      let _ ← ChangeHistory.setActor (some { actor with reason := normalizeReason reason })
  | write now action changes => writeEntry now action changes

/-- The actors that the caller names. `reason_context` names none. -/
def introduced : TaskEvent → List ChangeActor
  | setActor actor => actor.toList
  | enterActorContext user source reason => (contextActor user source reason).toOption.toList
  | _ => []

/-- The reasons that the caller states. -/
def stated : TaskEvent → List String
  | enterReasonContext reason => [normalizeReason reason]
  | event => event.introduced.map ChangeActor.reason

end TaskEvent

/-! ### The worker -/

structure Worker where
  vars : ContextVars (Option ChangeActor) := .unset
  /-- The request for which each context was made; the server's own comes first,
  and is request 0. -/
  requests : List ℕ := [0]
  /-- The actors and the reasons given to the functions, and for which request. -/
  introduced : List (ℕ × ChangeActor) := []
  stated : List (ℕ × String) := []
  /-- The entries written, and for which request. -/
  written : List (ℕ × Entry) := []

namespace Worker

def request (w : Worker) (context : ℕ) : ℕ := w.requests.getD context 0

/-- What code in the context works on. -/
def session (w : Worker) (context : ℕ) : Session Unit where
  actor := w.vars.here context
  vars := ()

end Worker

def Event.entry? : Event → Option Entry
  | .wrote entry _ => some entry
  | _ => none

namespace Worker

def perform (w : Worker) (context : ℕ) (event : TaskEvent) : Worker :=
  let s := Tx.after event.act (w.session context)
  { w with
    vars := w.vars.put s.actor
    introduced := w.introduced ++ event.introduced.map (w.request context, ·)
    stated := w.stated ++ event.stated.map (w.request context, ·)
    written := w.written ++ (s.log.filterMap Event.entry?).map (w.request context, ·) }

end Worker

/-- A task or a thread, in a copy of the context `source`. -/
def Worker.started (w : Worker) (source request : ℕ) : Worker :=
  { w with
    vars := w.vars.copy source w.requests.length
    requests := w.requests ++ [request] }

inductive WorkerEvent
  /-- A task for a new request, in a copy of the server's context. -/
  | serve
  /-- A task or a thread started in `context`. -/
  | spawn (context : ℕ)
  /-- What a thread started in `context` has bound is bound there. -/
  | restore (context thread : ℕ)
  | task (context : ℕ) (event : TaskEvent)

/-- What a thread leaves bound; nothing is done where it has the same bound. -/
def Worker.restored (w : Worker) (context thread : ℕ) : Worker :=
  match w.vars.values thread with
  | none => w
  | some bound =>
      if (w.vars.values context).map Bound.value = some bound.value then w
      else { w with vars := w.vars.put ((w.vars.here context).set bound.value).2 }

inductive WorkerStep (w : Worker) : WorkerEvent → Worker → Prop
  | serve : WorkerStep w .serve (w.started 0 w.requests.length)
  | spawn (context : ℕ) (hcontext : context < w.requests.length) :
      WorkerStep w (.spawn context) (w.started context (w.request context))
  | restore (context thread : ℕ) (hsame : w.request thread = w.request context) :
      WorkerStep w (.restore context thread) (w.restored context thread)
  | task (context : ℕ) (event : TaskEvent) (hcontext : context < w.requests.length) :
      WorkerStep w (.task context event) (w.perform context event)

def serving : System Worker WorkerEvent where
  init w := w = {}
  step := WorkerStep

/-! ### Whose identity it is -/

def ChangeActor.identity (actor : ChangeActor) : Option ℤ × String × String :=
  (actor.userId, actor.name, actor.source)

def Entry.identity (entry : Entry) : Option ℤ × String × String :=
  (entry.byUser, entry.byName, entry.source)

/-- Given for the request itself, or for the server, whose binding the tasks
start with. -/
def Given {β : Type} (given : List (ℕ × β)) (request : ℕ) (b : β) : Prop :=
  (request, b) ∈ given ∨ (0, b) ∈ given

namespace Worker

/-- An identity, and a reason, that is nobody's or the request's own. -/
structure Own (w : Worker) (request : ℕ) (identity : Option ℤ × String × String)
    (reason : String) : Prop where
  identity : identity = ({} : ChangeActor).identity ∨
    ∃ who, Given w.introduced request who ∧ who.identity = identity
  reason : reason = "" ∨ Given w.stated request reason

def OwnActor (w : Worker) (request : ℕ) (actor : Option ChangeActor) : Prop :=
  w.Own request (actor.getD {}).identity (actor.getD {}).reason

structure Attributed (w : Worker) : Prop where
  server : w.requests[0]? = some 0
  vars : w.vars.Allows fun context actor => w.OwnActor (w.request context) actor
  written : ∀ x ∈ w.written, ∃ reason, x.2.reason = some reason ∧ w.Own x.1 x.2.identity reason

end Worker

variable {w w' : Worker} {context request : ℕ} {event : TaskEvent}

theorem Given.mono {β : Type} {given given' : List (ℕ × β)} {b : β} (h : Given given request b)
    (hsubset : given ⊆ given') : Given given' request b :=
  h.imp (fun hmem => hsubset hmem) fun hmem => hsubset hmem

theorem Given.of_server {β : Type} {given : List (ℕ × β)} {b : β} (h : Given given 0 b) :
    Given given request b := .inr (h.elim id id)

theorem Worker.Own.mono {identity : Option ℤ × String × String} {reason : String}
    (h : w.Own request identity reason) (hintroduced : w.introduced ⊆ w'.introduced)
    (hstated : w.stated ⊆ w'.stated) : w'.Own request identity reason where
  identity := h.identity.imp id fun ⟨who, hgiven, heq⟩ => ⟨who, hgiven.mono hintroduced, heq⟩
  reason := h.reason.imp id fun hgiven => hgiven.mono hstated

theorem Worker.Own.of_server {identity : Option ℤ × String × String} {reason : String}
    (h : w.Own 0 identity reason) : w.Own request identity reason where
  identity := h.identity.imp id fun ⟨who, hgiven, heq⟩ => ⟨who, hgiven.of_server, heq⟩
  reason := h.reason.imp id Given.of_server

theorem Worker.ownActor_none : w.OwnActor request none := ⟨.inl rfl, .inl rfl⟩

/-- The binding in a context is own there. -/
theorem Worker.Attributed.getActor (h : w.Attributed) (context : ℕ) :
    w.Own (w.request context) (w.session context).getActor.identity
      (w.session context).getActor.reason := by
  change w.OwnActor (w.request context) ((w.vars.here context).get none)
  cases hvalue : w.vars.values context with
  | none =>
      rw [show (w.vars.here context).get none = none by
        simp [ContextVar.get, ContextVars.here, hvalue]]
      exact ownActor_none
  | some bound =>
      rw [show (w.vars.here context).get none = bound.value by
        simp [ContextVar.get, ContextVars.here, hvalue]]
      exact h.vars.value context bound hvalue

/-! ### One step of one task -/

/-- What a task may leave its binding as. -/
inductive Bindings (w : Worker) (context : ℕ) (event : TaskEvent) :
    ContextVar (Option ChangeActor) → Prop
  | same : Bindings w context event (w.vars.here context)
  | cleared : Bindings w context event ((w.vars.here context).set none).2
  | named (who : ChangeActor) (hwho : who ∈ event.introduced) (hstated : who.reason ∈ event.stated) :
      Bindings w context event ((w.vars.here context).set (some who)).2
  | reasoned (reason : String) (hstated : reason ∈ event.stated) :
      Bindings w context event
        ((w.vars.here context).set
          (some { (w.session context).getActor with reason := reason })).2
  | restored (token : ℕ) (var : ContextVar (Option ChangeActor))
      (hreset : (w.vars.here context).reset token = .ok var) : Bindings w context event var

theorem bindings_act (w : Worker) (context : ℕ) (event : TaskEvent) :
    Bindings w context event (Tx.after event.act (w.session context)).actor := by
  cases event with
  | setActor actor =>
      cases actor with
      | none => exact .cleared
      | some who =>
          refine .named who ?_ ?_
          · simp [TaskEvent.introduced]
          · simp [TaskEvent.stated, TaskEvent.introduced]
  | resetActor token =>
      cases token with
      | none => exact .cleared
      | some token =>
          have hact : ∀ var, (Tx.after (TaskEvent.resetActor (some token)).act
              (w.session context)).actor = var →
              Bindings w context (.resetActor (some token)) var →
              Bindings w context (.resetActor (some token))
                (Tx.after (TaskEvent.resetActor (some token)).act (w.session context)).actor :=
            fun var heq hvar => heq ▸ hvar
          cases hreset : (w.vars.here context).reset token with
          | ok var =>
              refine hact var ?_ (.restored token var hreset)
              simp only [TaskEvent.act, Tx.after, resetActor, Worker.session, hreset]
          | error refused =>
              cases refused with
              | valueError =>
                  refine hact _ ?_ .cleared
                  simp only [TaskEvent.act, Tx.after, resetActor, Worker.session, hreset]
              | runtimeError =>
                  refine hact _ ?_ .same
                  simp only [TaskEvent.act, Tx.after, resetActor, Worker.session, hreset]
  | enterActorContext user source reason =>
      cases hactor : contextActor user source reason with
      | error e =>
          have hafter : Tx.after (TaskEvent.enterActorContext user source reason).act
              (w.session context) = w.session context :=
            Tx.after_bind_of_error (e := e) (by rw [hactor]; rfl)
          rw [hafter]
          exact .same
      | ok who =>
          have hafter : Tx.after (TaskEvent.enterActorContext user source reason).act
              (w.session context) = { w.session context with
                actor := ((w.vars.here context).set (some who)).2 } :=
            (Tx.after_bind_of_ok (a := who) (by rw [hactor]; rfl)).trans rfl
          rw [hafter]
          refine .named who ?_ ?_
          · simp [TaskEvent.introduced, hactor, Except.toOption]
          · simp [TaskEvent.stated, TaskEvent.introduced, hactor, Except.toOption]
  | enterReasonContext reason => exact .reasoned (normalizeReason reason) (by simp [TaskEvent.stated])
  | write now action changes => exact .same

/-- An entry that a task writes names the actor bound in its context. -/
theorem mem_written_act {entry : Entry}
    (h : entry ∈ (Tx.after event.act (w.session context)).log.filterMap Event.entry?) :
    entry.identity = (w.session context).getActor.identity ∧
      entry.reason = some (w.session context).getActor.reason := by
  cases event with
  | setActor actor => exact absurd h List.not_mem_nil
  | resetActor token =>
      cases token with
      | none => exact absurd h List.not_mem_nil
      | some token =>
          simp only [TaskEvent.act, Tx.after, resetActor] at h
          cases hreset : (w.session context).actor.reset token with
          | ok var =>
              simp only [hreset] at h
              exact absurd h List.not_mem_nil
          | error refused =>
              cases refused with
              | valueError =>
                  simp only [hreset] at h
                  exact absurd h List.not_mem_nil
              | runtimeError =>
                  simp only [hreset] at h
                  exact absurd h List.not_mem_nil
  | enterActorContext user source reason =>
      cases hactor : contextActor user source reason with
      | error e =>
          have hafter : Tx.after (TaskEvent.enterActorContext user source reason).act
              (w.session context) = w.session context :=
            Tx.after_bind_of_error (e := e) (by rw [hactor]; rfl)
          rw [hafter] at h
          exact absurd h List.not_mem_nil
      | ok who =>
          have hafter : Tx.after (TaskEvent.enterActorContext user source reason).act
              (w.session context) = { w.session context with
                actor := ((w.vars.here context).set (some who)).2 } :=
            (Tx.after_bind_of_ok (a := who) (by rw [hactor]; rfl)).trans rfl
          rw [hafter] at h
          exact absurd h List.not_mem_nil
  | enterReasonContext reason => exact absurd h List.not_mem_nil
  | write now action changes =>
      obtain rfl := List.mem_singleton.mp h
      exact ⟨rfl, rfl⟩

section Perform

variable (w context event)

theorem introduced_subset_perform : w.introduced ⊆ (w.perform context event).introduced :=
  List.subset_append_left _ _

theorem stated_subset_perform : w.stated ⊆ (w.perform context event).stated :=
  List.subset_append_left _ _

end Perform

theorem given_introduced {who : ChangeActor} (h : who ∈ event.introduced) :
    Given (w.perform context event).introduced (w.request context) who :=
  .inl (List.mem_append_right _ (List.mem_map.mpr ⟨who, h, rfl⟩))

theorem given_stated {reason : String} (h : reason ∈ event.stated) :
    Given (w.perform context event).stated (w.request context) reason :=
  .inl (List.mem_append_right _ (List.mem_map.mpr ⟨reason, h, rfl⟩))

theorem Worker.Attributed.perform (h : w.Attributed) : (w.perform context event).Attributed := by
  have hmono : ∀ {request identity reason}, w.Own request identity reason →
      (w.perform context event).Own request identity reason := fun hown =>
    hown.mono (introduced_subset_perform w context event) (stated_subset_perform w context event)
  have hvars : w.vars.Allows fun other actor =>
      (w.perform context event).OwnActor (w.request other) actor :=
    h.vars.mono fun _ _ hown => hmono hown
  refine ⟨h.server, ?_, fun x hx => ?_⟩
  · change (w.vars.put (Tx.after event.act (w.session context)).actor).Allows fun other actor =>
      (w.perform context event).OwnActor (w.request other) actor
    generalize hvar : (Tx.after event.act (w.session context)).actor = var
    have hbindings : Bindings w context event var := hvar ▸ bindings_act w context event
    cases hbindings with
    | same =>
        rw [ContextVars.put_here]
        exact hvars
    | cleared => exact hvars.set ownActor_none
    | named who hwho hstated =>
        exact hvars.set ⟨.inr ⟨who, given_introduced hwho, rfl⟩, .inr (given_stated hstated)⟩
    | reasoned reason hstated =>
        exact hvars.set ⟨(hmono (h.getActor context)).identity, .inr (given_stated hstated)⟩
    | restored token var hreset => exact hvars.reset hreset
  · rcases List.mem_append.mp hx with hold | hnew
    · obtain ⟨reason, hreason, hown⟩ := h.written x hold
      exact ⟨reason, hreason, hmono hown⟩
    · obtain ⟨entry, hentry, rfl⟩ := List.mem_map.mp hnew
      obtain ⟨hidentity, hreason⟩ := mem_written_act hentry
      refine ⟨_, hreason, ?_⟩
      change (w.perform context event).Own (w.request context) entry.identity _
      rw [hidentity]
      exact hmono (h.getActor context)

/-! ### A new context -/

/-- A context made for a request in a copy of one of the same request, or of the
server's. -/
theorem Worker.Attributed.started (h : w.Attributed) {source : ℕ}
    (hsource : source < w.requests.length)
    (hcarry : w.request source = request ∨ w.request source = 0) :
    (w.started source request).Attributed := by
  have hold : ∀ other, other < w.requests.length →
      (w.started source request).request other = w.request other := fun other hother => by
    simp only [Worker.started, Worker.request, List.getD_eq_getElem?_getD,
      List.getElem?_append_left hother]
  have hnew : (w.started source request).request w.requests.length = request := by
    simp [Worker.started, Worker.request, List.getD_eq_getElem?_getD]
  have hmono : ∀ {asked own identity reason}, own = asked ∨ own = 0 → w.Own own identity reason →
      (w.started source request).Own asked identity reason := by
    intro asked own identity reason hasked hown
    have hown' : (w.started source request).Own own identity reason :=
      hown.mono (fun _ => id) fun _ => id
    rcases hasked with rfl | rfl
    · exact hown'
    · exact hown'.of_server
  have hvars : w.vars.Allows fun other actor =>
      (w.started source request).OwnActor ((w.started source request).request other) actor := by
    refine h.vars.mono fun other _ hown => hmono ?_ hown
    by_cases hother : other < w.requests.length
    · exact .inl (hold other hother).symm
    · exact .inr (by simp [Worker.request, List.getD_eq_getElem?_getD, not_lt.mp hother])
  refine ⟨?_, hvars.copy fun actor hown => ?_, fun x hx => ?_⟩
  · have hzero : 0 < w.requests.length := (List.getElem?_eq_some_iff.mp h.server).1
    exact (List.getElem?_append_left hzero).trans h.server
  · rw [hold source hsource] at hown
    rw [hnew]
    rcases hcarry with heq | hserver
    · exact heq ▸ hown
    · rw [hserver] at hown
      exact Own.of_server hown
  · obtain ⟨reason, hreason, hown⟩ := h.written x hx
    exact ⟨reason, hreason, hmono (.inl rfl) hown⟩

theorem Worker.Attributed.restored (h : w.Attributed) {thread : ℕ}
    (hsame : w.request thread = w.request context) : (w.restored context thread).Attributed := by
  unfold Worker.restored
  cases hvalue : w.vars.values thread with
  | none => exact h
  | some bound =>
      have hown : w.OwnActor (w.request context) bound.value :=
        hsame ▸ h.vars.value thread bound hvalue
      change Worker.Attributed (if _ then w else _)
      split
      · exact h
      · refine ⟨h.server, (h.vars.set hown).mono fun _ _ hother => ?_, fun x hx => ?_⟩
        · exact hother.mono (fun _ => id) fun _ => id
        · obtain ⟨reason, hreason, hentry⟩ := h.written x hx
          exact ⟨reason, hreason, hentry.mono (fun _ => id) fun _ => id⟩

/-! ### Runs -/

theorem attributed_inductive : serving.Inductive Worker.Attributed where
  init := by
    rintro w rfl
    exact ⟨rfl, .unset, fun x hx => absurd hx List.not_mem_nil⟩
  step := by
    intro w event w' h hstep
    cases hstep with
    | serve =>
        have hzero : 0 < w.requests.length := (List.getElem?_eq_some_iff.mp h.server).1
        refine h.started hzero (.inr ?_)
        rw [Worker.request, List.getD_eq_getElem?_getD, h.server]
        rfl
    | spawn context hcontext => exact h.started hcontext (.inl rfl)
    | restore context thread hsame => exact h.restored hsame
    | task context event hcontext => exact h.perform

/-- However the tasks of a worker take turns, and whatever tokens they hand to
one another: an entry names nobody, or who was named for its own request or for
the server before it, and the same goes for its reason; what a task does leaves
the binding of every other as it is; and the reset of a token that another task
minted leaves nobody bound. -/
theorem entries_attributed (h : serving.Reachable w) :
    (∀ x ∈ w.written, ∃ reason, x.2.reason = some reason ∧ w.Own x.1 x.2.identity reason) ∧
      ∀ context event,
        (∀ other, other ≠ context →
          (w.perform context event).vars.values other = w.vars.values other) ∧
        ∀ token, event = .resetActor (some token) → (w.vars.tokens token).used = false →
          (w.vars.tokens token).context ≠ context →
            ((w.perform context event).session context).getActor = {} := by
  refine ⟨(attributed_inductive.reachable h).written,
    fun context event => ⟨fun other hother => ?_, ?_⟩⟩
  · refine ContextVars.values_put_of_ne fun heq => hother (heq.trans ?_)
    generalize hvar : (Tx.after event.act (w.session context)).actor = var
    have hbindings : Bindings w context event var := hvar ▸ bindings_act w context event
    cases hbindings with
    | restored token var hreset =>
        obtain ⟨-, -, rfl⟩ := ContextVar.reset_cases hreset
        rfl
    | _ => rfl
  · rintro token rfl hused hforeign
    have hreset := ContextVars.reset_of_foreign hused hforeign
    have hafter : Tx.after (TaskEvent.resetActor (some token)).act (w.session context) =
        { w.session context with actor := ((w.vars.here context).set none).2 } := by
      simp only [TaskEvent.act, Tx.after, resetActor, Worker.session, hreset]
    have hvalue : ((w.perform context (.resetActor (some token))).vars.here context).get none =
        none := by
      simp [Worker.perform, hafter, ContextVar.get, ContextVars.here, ContextVars.put,
        ContextVar.set]
    exact congrArg (Option.getD · {}) hvalue

/-! ### A token handed over -/

def attendant : ChangeActor := { userId := some 7, name := "attendant", source := "api" }

def stamping : TaskEvent := .write "" .updated []

/-- The task of the second request resets the token of the first. -/
def crossedTokens : Worker :=
  (((((Worker.started {} 0 1).started 0 2).perform 1 (.setActor (some attendant))).perform 2
    (.resetActor (some 0))).perform 2 stamping).perform 1 stamping

theorem entries_attributed_crossedTokens :
    crossedTokens.written.map (fun x => (x.1, x.2.byUser)) = [(2, none), (1, some 7)] ∧
      ∀ x ∈ crossedTokens.written, ∃ reason, x.2.reason = some reason ∧
        crossedTokens.Own x.1 x.2.identity reason := by
  have hserved : serving.Reachable (Worker.started {} 0 1) :=
    (System.Reachable.of_init rfl).next .serve
  have hboth : serving.Reachable ((Worker.started {} 0 1).started 0 2) := hserved.next .serve
  have hcrossed : serving.Reachable crossedTokens :=
    (((hboth.next (.task 1 _ (by decide))).next (.task 2 _ (by decide))).next
      (.task 2 _ (by decide))).next (.task 1 _ (by decide))
  exact ⟨rfl, (entries_attributed hcrossed).1⟩

end NetixBackend.ChangeHistory
