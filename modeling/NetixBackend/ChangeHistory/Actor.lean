import NetixBackend.ChangeHistory.Model
import NetixBackend.Effects.Transaction
import NetixBackend.Python.ContextVar
import NetixBackend.Python.Integers

/-!
Who is making the change: the binding of the actor and the blocks around it.

The functions below run in one context. Its variable `_current_actor` is kept
together with the tokens the program has been given and its own variables, and
with a log of what concerns the trail: the entries written, the tokens reset,
and the blocks that have ended. The log is for the theorems; no function reads
it.

`actor_context`, `reason_context` and the two calls of the middleware bind and
unbind in the same way (`bracket`); the first two take the block's body as an
argument.
-/

namespace NetixBackend.ChangeHistory

open Python Effects

def maxReasonLength : ℕ := 256

/-- A reason by what is read of it: its `str`, or nothing where it is falsy. -/
def normalizeReason (reason : Option String) : String :=
  match reason with
  | none => ""
  | some text => String.ofList ((strip text.toList).take maxReasonLength)

/-- A user-shaped object, by what `from_user` reads of it. -/
structure User where
  /-- `pk`, where it is an integer. -/
  pk : Option ℤ
  /-- What calling `get_full_name` gives or raises, where it is callable. -/
  getFullName : Option (Except PyError String)
  username : String

def ChangeActor.fromUser (user : User) (source : String) (reason : Option String) :
    Except PyError ChangeActor := do
  let fullName ← user.getFullName.getD (.ok "")
  let name := String.ofList (strip fullName.toList)
  return {
    userId := user.pk
    name := if name.isEmpty then user.username else name
    source := source
    reason := normalizeReason reason }

inductive BlockKind
  | actorContext
  | reasonContext (reason : Option String)
  | middleware
  deriving DecidableEq, Repr

/-- A block that has ended: its own token and the next token at its end, and
what `get_actor` gave just before it bound its actor, just after, and at its
end. -/
structure Block where
  kind : BlockKind
  token : ℕ
  next : ℕ
  before : ChangeActor
  inside : ChangeActor
  after : ChangeActor

inductive Event
  | reset (token : ℕ)
  /-- An entry, and the `set` that bound the actor it is stamped with. -/
  | wrote (entry : Entry) (setter : Option ℕ)
  | ended (block : Block)

structure Session (σ : Type) where
  actor : ContextVar (Option ChangeActor)
  /-- The tokens the program was given, in order. -/
  held : List ℕ := []
  vars : σ
  log : List Event := []

abbrev Act (σ : Type) (α : Type) := Tx PyError (Session σ) α

variable {σ α : Type}

def Session.getActor (s : Session σ) : ChangeActor := (s.actor.get none).getD {}

def getActor : Act σ ChangeActor := Tx.read fun s => .ok s.getActor

def setActor (actor : Option ChangeActor) : Act σ ℕ := fun s =>
  let (token, var) := s.actor.set actor
  (.ok token, { s with actor := var })

/-- A token of another context clears the binding; one that was used raises. -/
def resetActor (token : Option ℕ) : Act σ Unit := fun s =>
  match token with
  | none => (.ok (), { s with actor := (s.actor.set none).2 })
  | some token =>
      match s.actor.reset token with
      | .ok var => (.ok (), { s with actor := var, log := s.log ++ [.reset token] })
      | .error .valueError => (.ok (), { s with actor := (s.actor.set none).2 })
      | .error .runtimeError => (.error (.other "RuntimeError"), s)

def Session.endBlock (s : Session σ) (kind : BlockKind) (token : ℕ) (before inside : ChangeActor) :
    Session σ :=
  let block : Block :=
    { kind, token, before, inside, next := s.actor.fresh, after := s.getActor }
  { s with log := s.log ++ [.ended block] }

/-- `token = set_actor(actor)`, then the body, then `finally: reset_actor(token)`. -/
def bracket (kind : BlockKind) (actor : Option ChangeActor) (body : Act σ α) : Act σ α := do
  let before ← getActor
  let token ← setActor actor
  let inside ← getActor
  let bracketed := Tx.finalizing body (resetActor (some token))
  -- however the block ends, the log says how it left the binding
  Tx.finalizing bracketed (Tx.write fun s => s.endBlock kind token before inside)

def actorContext (user : Option User) (source : String) (reason : Option String)
    (body : ChangeActor → Act σ α) : Act σ α := do
  let actor ← Tx.ofExcept <|
    match user with
    | some user => ChangeActor.fromUser user source reason
    | none => .ok { source := source, reason := normalizeReason reason }
  bracket .actorContext (some actor) (body actor)

def reasonContext (reason : Option String) (body : ChangeActor → Act σ α) : Act σ α := do
  let actor ← getActor
  bracket (.reasonContext reason) (some { actor with reason := normalizeReason reason })
    (body actor)

namespace ChangeHistoryActorMiddleware

/-- `__acall__`. -/
def acall (resolveActor : Act σ (Option ChangeActor)) (getResponse : Act σ α) : Act σ α := do
  let actor ← resolveActor
  bracket .middleware actor getResponse

/-- `__call__`. -/
def call (asyncMode : Bool) (resolveActor : Act σ (Option ChangeActor)) (getResponse : Act σ α) :
    Act σ α :=
  if asyncMode then acall resolveActor getResponse
  else do
    let actor ← resolveActor
    bracket .middleware actor getResponse

end ChangeHistoryActorMiddleware

/-- An entry is stamped with the actor bound at the time. -/
def writeEntry (now : String) (action : Action) (changes : List Change) : Act σ Unit :=
  Tx.write fun s =>
    let entry := HistoryModel.historyEntry { now := now, actor := s.getActor } action changes
    { s with log := s.log ++ [.wrote entry s.actor.setter] }

end NetixBackend.ChangeHistory
