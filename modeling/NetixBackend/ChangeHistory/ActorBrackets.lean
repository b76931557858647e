import NetixBackend.ChangeHistory.Actor

/-!
Programs that bind and unbind the actor, and what their blocks leave behind.

A program may leave the binding as it likes: bind without resetting, clear,
reset its tokens in any order and more than once, raise and catch. It never
holds the token of a block. So whatever the body of a block does, that token is
untouched when the block ends (`Onward`), and its reset restores what the block
found.

What a request bound can come back only through a token minted while it was
served. `LogSound` says so of the log: an entry written after a block, with no
token of that block reset in between, is stamped with nothing the block bound.
-/

namespace NetixBackend.ChangeHistory

open Python Effects

variable {σ α : Type}

/-- A program over its own variables. It names a token by its place among those
it was given. -/
inductive Program (σ : Type)
  | pass
  | assign (f : σ → σ)
  | raising (error : σ → PyError)
  | seq (first next : Program σ)
  | ifElse (cond : σ → Bool) (yes no : Program σ)
  | forRange (times : σ → ℕ) (body : Program σ)
  | tryExcept (body : Program σ) (handler : PyError → Program σ)
  | readActor (into : ChangeActor → σ → σ)
  | setActor (actor : σ → Option ChangeActor)
  | resetActor (token : σ → Option ℕ)
  | write (now : σ → String) (action : σ → Action) (changes : σ → List Change)
  | actorContext (user : σ → Option User) (source : σ → String) (reason : σ → Option String)
      (into : ChangeActor → σ → σ) (body : Program σ)
  | reasonContext (reason : σ → Option String) (into : ChangeActor → σ → σ) (body : Program σ)
  /-- `resolve_actor` is a program too, and what it returns. -/
  | middleware (asyncMode : Bool) (resolve : Program σ) (resolved : σ → Option ChangeActor)
      (getResponse : Program σ)

namespace Program

def vars : Act σ σ := Tx.read fun s => .ok s.vars

def assigning (f : σ → σ) : Act σ Unit := Tx.write fun s => { s with vars := f s.vars }

def hold (token : ℕ) : Act σ Unit := Tx.write fun s => { s with held := s.held ++ [token] }

def heldToken (i : ℕ) : Act σ ℕ := Tx.read fun s =>
  match s.held[i]? with
  | some token => .ok token
  | none => .error (.other "IndexError")

def run : Program σ → Act σ Unit
  | pass => pure ()
  | assign f => assigning f
  | raising error => do
      let v ← vars
      Tx.raise (error v)
  | seq first next => do
      first.run
      next.run
  | ifElse cond yes no => do
      let v ← vars
      if cond v then yes.run else no.run
  | forRange times body => do
      let v ← vars
      Tx.each (List.range (times v)) fun _ => body.run
  | tryExcept body handler => Tx.catching body.run fun e => (handler e).run
  | readActor into => do
      let actor ← getActor
      assigning (into actor)
  | setActor actor => do
      let v ← vars
      let token ← ChangeHistory.setActor (actor v)
      hold token
  | resetActor token => do
      let v ← vars
      match token v with
      | none => ChangeHistory.resetActor none
      | some i => do
          let token ← heldToken i
          ChangeHistory.resetActor (some token)
  | write now action changes => do
      let v ← vars
      writeEntry (now v) (action v) (changes v)
  | actorContext user source reason into body => do
      let v ← vars
      ChangeHistory.actorContext (user v) (source v) (reason v) fun actor => do
        assigning (into actor)
        body.run
  | reasonContext reason into body => do
      let v ← vars
      ChangeHistory.reasonContext (reason v) fun actor => do
        assigning (into actor)
        body.run
  | middleware asyncMode resolve resolved getResponse =>
      ChangeHistoryActorMiddleware.call asyncMode
        (do
          resolve.run
          let v ← vars
          return resolved v)
        getResponse.run

end Program

/-- A program is entered with any actor bound, or none, and with no tokens. -/
def Session.start (bound : Option (Option ChangeActor)) (vars : σ) : Session σ where
  actor := .initial 0 bound
  vars := vars

/-- What a run of the program logs. -/
def Program.log (p : Program σ) (bound : Option (Option ChangeActor)) (vars : σ) : List Event :=
  (Tx.after p.run (Session.start bound vars)).log

/-! ### The log -/

/-- The tokens minted from the block's own binding to its end. -/
def Block.minted (b : Block) (n : ℕ) : Prop := b.token ≤ n ∧ n < b.next

/-- None of them is reset in `events`. -/
def Block.Spared (b : Block) (events : List Event) : Prop :=
  ∀ token, .reset token ∈ events → ¬ b.minted token

structure Block.Restores (b : Block) : Prop where
  after : b.after = b.before
  reason : ∀ reason, b.kind = .reasonContext reason →
    b.inside = { b.before with reason := normalizeReason reason }

structure LogSound (log : List Event) (var : ContextVar (Option ChangeActor)) : Prop where
  restores : ∀ b, .ended b ∈ log → b.Restores
  past : ∀ b, .ended b ∈ log → b.next ≤ var.fresh
  avoids : ∀ (before : List Event) (b : Block) (mid : List Event),
    log = before ++ .ended b :: mid → b.Spared mid → var.Avoids b.minted
  unstamped : ∀ (before : List Event) (b : Block) (mid : List Event) (entry : Entry)
    (setter : Option ℕ) (rest : List Event),
    log = (before ++ .ended b :: mid) ++ .wrote entry setter :: rest → b.Spared mid →
      ∀ n, setter = some n → ¬ b.minted n

variable {log : List Event} {var var' : ContextVar (Option ChangeActor)} {b : Block}

theorem Block.Spared.of_append {events more : List Event} (h : b.Spared (events ++ more)) :
    b.Spared events := fun token hmem => h token (List.mem_append_left _ hmem)

/-- A split of a longer log is a split of the old one, or at the new event. -/
theorem append_singleton_split {β : Type} {xs before mid : List β} {x y : β}
    (h : xs ++ [x] = before ++ y :: mid) :
    (mid = [] ∧ x = y ∧ before = xs) ∨ ∃ mid', mid = mid' ++ [x] ∧ xs = before ++ y :: mid' := by
  rcases List.eq_nil_or_concat mid with rfl | ⟨mid', last, rfl⟩
  · obtain ⟨rfl, hlast⟩ := List.append_inj' h rfl
    exact .inl ⟨rfl, List.singleton_inj.mp hlast, rfl⟩
  · have hsnoc : xs ++ [x] = (before ++ y :: mid') ++ [last] := by simpa using h
    obtain ⟨hxs, hlast⟩ := List.append_inj' hsnoc rfl
    exact .inr ⟨mid', by rw [List.singleton_inj.mp hlast, List.concat_eq_append], hxs⟩

theorem LogSound.nil (var : ContextVar (Option ChangeActor)) : LogSound [] var where
  restores _ h := nomatch h
  past _ h := nomatch h
  avoids before b mid h := absurd h.symm (by simp)
  unstamped before b mid entry setter rest h := absurd h.symm (by simp)

theorem LogSound.set (h : LogSound log var) (actor : Option ChangeActor) :
    LogSound log (var.set actor).2 where
  restores := h.restores
  past b hmem := (h.past b hmem).trans (Nat.le_succ _)
  avoids before b mid hsplit hspared := by
    have hnext := h.past b (by simp [hsplit])
    exact (h.avoids before b mid hsplit hspared).set (fun hminted => by
      have := hminted.2
      omega) actor
  unstamped := h.unstamped

/-- One more event: what it says of the blocks before it, where it is an entry,
and what it says of itself, where it ends a block. -/
theorem LogSound.snoc {event : Event} (h : LogSound log var)
    (hfresh : var'.fresh = var.fresh)
    (havoids : ∀ b, .ended b ∈ log → (∀ token, event = .reset token → ¬ b.minted token) →
      var.Avoids b.minted → var'.Avoids b.minted)
    (hwrote : ∀ entry setter, event = .wrote entry setter → setter = var.setter)
    (hended : ∀ b, event = .ended b → b.Restores ∧ b.next = var'.fresh ∧ var'.Avoids b.minted) :
    LogSound (log ++ [event]) var' where
  restores b hmem := by
    rcases List.mem_append.mp hmem with hmem | hmem
    · exact h.restores b hmem
    · exact (hended b (List.mem_singleton.mp hmem).symm).1
  past b hmem := by
    rcases List.mem_append.mp hmem with hmem | hmem
    · exact hfresh ▸ h.past b hmem
    · exact (hended b (List.mem_singleton.mp hmem).symm).2.1.le
  avoids before b mid hsplit hspared := by
    rcases append_singleton_split hsplit with ⟨rfl, hevent, rfl⟩ | ⟨mid', rfl, hold⟩
    · exact (hended b hevent).2.2
    · refine havoids b (by simp [hold]) (fun token hevent => ?_)
        (h.avoids before b mid' hold hspared.of_append)
      exact hspared token (by simp [hevent])
  unstamped before b mid entry setter rest hsplit hspared n hn := by
    rcases append_singleton_split hsplit with ⟨rfl, hevent, hold⟩ | ⟨rest', rfl, hold⟩
    · have hsetter := hwrote entry setter hevent
      exact (h.avoids before b mid hold.symm hspared).value n (hsetter ▸ hn)
    · exact h.unstamped before b mid entry setter rest' hold hspared n hn

theorem LogSound.reset (h : LogSound log var) {token : ℕ} (hreset : var.reset token = .ok var') :
    LogSound (log ++ [.reset token]) var' := by
  refine h.snoc ?_ (fun b _ hspared hb => hb.reset (hspared token rfl) hreset)
    (fun _ _ hevent => nomatch hevent) (fun _ hevent => nomatch hevent)
  obtain ⟨-, -, rfl⟩ := ContextVar.reset_cases hreset
  rfl

theorem LogSound.wrote (h : LogSound log var) (entry : Entry) :
    LogSound (log ++ [.wrote entry var.setter]) var := by
  refine h.snoc rfl (fun _ _ _ hb => hb) (fun _ _ hevent => ?_) (fun _ hevent => nomatch hevent)
  exact (Event.wrote.inj hevent).2.symm

theorem LogSound.ended (h : LogSound log var) (hrestores : b.Restores) (hnext : b.next = var.fresh)
    (havoids : var.Avoids b.minted) : LogSound (log ++ [.ended b]) var := by
  refine h.snoc rfl (fun _ _ _ hb => hb) (fun _ _ hevent => nomatch hevent) (fun _ hevent => ?_)
  obtain rfl := Event.ended.inj hevent
  exact ⟨hrestores, hnext, havoids⟩

/-! ### One step of a program -/

structure Session.Sound (s : Session σ) : Prop where
  ordered : s.actor.Ordered
  held : ∀ token ∈ s.held, token < s.actor.fresh
  log : LogSound s.log s.actor

/-- A token that the program does not hold is left alone, and is not handed to
it. -/
structure Onward (s s' : Session σ) : Prop where
  context : s'.actor.context = s.actor.context
  fresh : s.actor.fresh ≤ s'.actor.fresh
  untouched : ∀ token < s.actor.fresh, token ∉ s.held →
    token ∉ s'.held ∧ s'.actor.tokens token = s.actor.tokens token

def Keeps (s s' : Session σ) : Prop := s.Sound → s'.Sound ∧ Onward s s'

theorem Onward.refl (s : Session σ) : Onward s s := ⟨rfl, le_rfl, fun _ _ hheld => ⟨hheld, rfl⟩⟩

theorem Onward.trans {s t u : Session σ} (h : Onward s t) (h' : Onward t u) : Onward s u where
  context := h'.context.trans h.context
  fresh := h.fresh.trans h'.fresh
  untouched token hlt hheld := by
    obtain ⟨hheld', htoken⟩ := h.untouched token hlt hheld
    obtain ⟨hheld'', htoken'⟩ := h'.untouched token (hlt.trans_le h.fresh) hheld'
    exact ⟨hheld'', htoken'.trans htoken⟩

instance : Std.Refl (Keeps (σ := σ)) where
  refl s hs := ⟨hs, Onward.refl s⟩

instance : IsTrans (Session σ) Keeps where
  trans _ _ _ h h' hs :=
    have ht := h hs
    have hu := h' ht.1
    ⟨hu.1, ht.2.trans hu.2⟩

variable {s : Session σ}

theorem Onward.set (s : Session σ) (actor : Option ChangeActor) :
    Onward s { s with actor := (s.actor.set actor).2 } := by
  refine ⟨rfl, Nat.le_succ _, fun token hlt hheld => ⟨hheld, ?_⟩⟩
  exact Function.update_of_ne (Nat.ne_of_lt hlt) ..

theorem Session.Sound.set (h : s.Sound) (actor : Option ChangeActor) :
    Session.Sound { s with actor := (s.actor.set actor).2 } where
  ordered := h.ordered.set actor
  held token hmem := (h.held token hmem).trans (Nat.lt_succ_self _)
  log := h.log.set actor

theorem keeps_set (s : Session σ) (actor : Option ChangeActor) :
    Keeps s { s with actor := (s.actor.set actor).2 } :=
  fun hs => ⟨hs.set actor, Onward.set s actor⟩

theorem Session.Sound.reset (h : s.Sound) {token : ℕ} (hreset : s.actor.reset token = .ok var') :
    Session.Sound { s with actor := var', log := s.log ++ [.reset token] } where
  ordered := h.ordered.reset hreset
  held token hmem := by
    obtain ⟨-, -, rfl⟩ := ContextVar.reset_cases hreset
    exact h.held token hmem
  log := h.log.reset hreset

/-- A token may be reset that the program holds, or that was not there before. -/
theorem Onward.reset {t : Session σ} (h : Onward s t) {token : ℕ}
    (hreset : t.actor.reset token = .ok var')
    (htoken : token ∈ s.held ∨ s.actor.fresh ≤ token) :
    Onward s { t with actor := var', log := t.log ++ [.reset token] } := by
  obtain ⟨-, -, rfl⟩ := ContextVar.reset_cases hreset
  refine ⟨h.context, h.fresh, fun other hlt hheld => ?_⟩
  obtain ⟨hheld', hother⟩ := h.untouched other hlt hheld
  have hne : other ≠ token := by
    rintro rfl
    rcases htoken with hmem | hle
    · exact hheld hmem
    · omega
  exact ⟨hheld', (Function.update_of_ne hne ..).trans hother⟩

theorem within_keeps_of_same {f : Session σ → Session σ}
    (hactor : ∀ s, (f s).actor = s.actor) (hheld : ∀ s, (f s).held = s.held)
    (hlog : ∀ s, (f s).log = s.log) : Tx.Within (ε := PyError) Keeps (Tx.write f) := by
  intro s hs
  change (f s).Sound ∧ Onward s (f s)
  refine ⟨⟨?_, ?_, ?_⟩, ⟨?_, ?_, fun token hlt hmem => ?_⟩⟩
  · exact hactor s ▸ hs.ordered
  · rw [hheld, hactor]
    exact hs.held
  · rw [hlog, hactor]
    exact hs.log
  · rw [hactor]
  · rw [hactor]
  · rw [hactor, hheld]
    exact ⟨hmem, rfl⟩

theorem within_assigning (f : σ → σ) : Tx.Within Keeps (Program.assigning f) :=
  within_keeps_of_same (fun _ => rfl) (fun _ => rfl) fun _ => rfl

/-- Binding, and keeping the token. -/
theorem within_setActor (actor : Option ChangeActor) :
    Tx.Within Keeps (setActor actor >>= fun token => (Program.hold token : Act σ Unit)) := by
  intro s hs
  obtain ⟨hset, honward⟩ := keeps_set s actor hs
  refine ⟨⟨hset.ordered, fun token hmem => ?_, hset.log⟩, honward.context, honward.fresh,
    fun token hlt hheld => ⟨fun hmem => ?_, (honward.untouched token hlt hheld).2⟩⟩
  · rcases List.mem_append.mp hmem with hmem | hmem
    · exact hset.held token hmem
    · obtain rfl := List.mem_singleton.mp hmem
      exact Nat.lt_succ_self _
  · rcases List.mem_append.mp hmem with hmem | hmem
    · exact hheld hmem
    · obtain rfl := List.mem_singleton.mp hmem
      exact absurd hlt (lt_irrefl _)

theorem within_clear : Tx.Within Keeps (resetActor none : Act σ Unit) :=
  fun s => keeps_set s none

/-- A token that the program holds, in use or used up. -/
theorem within_resetActor (i : ℕ) :
    Tx.Within Keeps
      (Program.heldToken i >>= fun token => (resetActor (some token) : Act σ Unit)) := by
  intro s hs
  cases htoken : s.held[i]? with
  | none =>
      have hafter : Tx.after (Program.heldToken i >>= fun token =>
          (resetActor (some token) : Act σ Unit)) s = s :=
        Tx.after_bind_of_error (e := .other "IndexError")
          (by simp [Tx.outcome, Program.heldToken, Tx.read, htoken])
      rw [hafter]
      exact ⟨hs, Onward.refl s⟩
  | some token =>
      have hafter : Tx.after (Program.heldToken i >>= fun token =>
          (resetActor (some token) : Act σ Unit)) s = Tx.after (resetActor (some token)) s :=
        Tx.after_bind_of_ok (by simp [Tx.outcome, Program.heldToken, Tx.read, htoken])
      rw [hafter]
      cases hreset : s.actor.reset token with
      | ok var' =>
          simp only [Tx.after, resetActor, hreset]
          exact ⟨hs.reset hreset,
            (Onward.refl s).reset hreset (.inl (List.mem_of_getElem? htoken))⟩
      | error e =>
          cases e with
          | valueError =>
              simp only [Tx.after, resetActor, hreset]
              exact keeps_set s none hs
          | runtimeError =>
              simp only [Tx.after, resetActor, hreset]
              exact ⟨hs, Onward.refl s⟩

theorem within_writeEntry (now : String) (action : Action) (changes : List Change) :
    Tx.Within Keeps (writeEntry now action changes : Act σ Unit) :=
  fun _ hs => ⟨⟨hs.ordered, hs.held, hs.log.wrote _⟩, rfl, le_rfl, fun _ _ hmem => ⟨hmem, rfl⟩⟩

/-! ### A block -/

/-- The block restores what it found: its own token is as it was minted. -/
theorem keeps_bracket {kind : BlockKind} {actor : Option ChangeActor} {body : Act σ α}
    (hbody : Tx.Within Keeps body) (s : Session σ)
    (hkind : ∀ reason, kind = .reasonContext reason →
      actor = some { s.getActor with reason := normalizeReason reason }) :
    Keeps s (Tx.after (bracket kind actor body) s) := by
  intro hs
  let own := s.actor.fresh
  let bound : Session σ := { s with actor := (s.actor.set actor).2 }
  obtain ⟨hbound, honward⟩ := keeps_set s actor hs
  obtain ⟨hleft, honward'⟩ := hbody bound hbound
  have hnotheld : own ∉ bound.held := fun hmem => absurd (hs.held own hmem) (lt_irrefl _)
  obtain ⟨-, htoken⟩ := honward'.untouched own (Nat.lt_succ_self _) hnotheld
  have hminted : (Tx.after body bound).actor.tokens own =
      { context := s.actor.context, old := s.actor.value } :=
    htoken.trans (Function.update_self ..)
  obtain ⟨var', hreset, hvalue⟩ : ∃ var', (Tx.after body bound).actor.reset own = .ok var' ∧
      var'.value = s.actor.value :=
    ⟨_, ContextVar.reset_of_unused (by rw [hminted]) (by rw [hminted]; exact honward'.context.symm),
      by rw [hminted]⟩
  let freed : Session σ :=
    { Tx.after body bound with
      actor := var'
      log := (Tx.after body bound).log ++ [.reset own] }
  have hafter : Tx.after (bracket kind actor body) s =
      freed.endBlock kind own s.getActor bound.getActor := by
    change Tx.after (Tx.finalizing (Tx.finalizing body (resetActor (some own)))
      (Tx.write fun t => t.endBlock kind own s.getActor bound.getActor)) bound = _
    rw [Tx.after_finalizing, Tx.after_finalizing]
    simp only [Tx.after, resetActor] at hreset ⊢
    rw [hreset]
    rfl
  have hfreed : freed.Sound := hleft.reset hreset
  have hsame : freed.getActor = s.getActor := by
    simp only [Session.getActor, ContextVar.get, freed, hvalue]
  rw [hafter]
  refine ⟨⟨hfreed.ordered, hfreed.held, ?_⟩, ?_⟩
  · refine hfreed.log.ended ⟨hsame, fun reason hreason => ?_⟩ rfl
      (hleft.ordered.avoids_of_reset hreset)
    change bound.getActor = { s.getActor with reason := normalizeReason reason }
    simp only [bound, hkind reason hreason]
    rfl
  · have hon : Onward s freed :=
      (honward.trans honward').reset hreset (.inr (le_refl own))
    exact ⟨hon.context, hon.fresh, hon.untouched⟩

theorem within_actorContext {user : Option User} {source : String} {reason : Option String}
    {body : ChangeActor → Act σ α} (hbody : ∀ actor, Tx.Within Keeps (body actor)) :
    Tx.Within Keeps (actorContext user source reason body) :=
  Tx.Within.bind (.ofExcept _) fun actor _ s =>
    keeps_bracket (hbody actor) s fun _ hkind => nomatch hkind

theorem within_reasonContext {reason : Option String} {body : ChangeActor → Act σ α}
    (hbody : ∀ actor, Tx.Within Keeps (body actor)) :
    Tx.Within Keeps (reasonContext reason body) := by
  intro s
  refine keeps_bracket (hbody s.getActor) s fun reason' hkind => ?_
  obtain rfl := BlockKind.reasonContext.inj hkind
  rfl

theorem within_call {asyncMode : Bool} {resolveActor : Act σ (Option ChangeActor)}
    {getResponse : Act σ α} (hresolve : Tx.Within Keeps resolveActor)
    (hresponse : Tx.Within Keeps getResponse) :
    Tx.Within Keeps (ChangeHistoryActorMiddleware.call asyncMode resolveActor getResponse) := by
  have hbracket : Tx.Within Keeps
      (resolveActor >>= fun actor => bracket .middleware actor getResponse) :=
    Tx.Within.bind hresolve fun actor _ s =>
      keeps_bracket hresponse s fun _ hkind => nomatch hkind
  unfold ChangeHistoryActorMiddleware.call
  split
  · exact hbracket
  · exact hbracket

/-! ### Whole programs -/

/-- Every construct keeps the invariant; the induction is over the program. -/
theorem within_run (p : Program σ) : Tx.Within Keeps p.run := by
  have hvars : Tx.Within Keeps (Program.vars : Act σ σ) := .read _
  induction p with
  | pass => exact .pure
  | assign f => exact within_assigning f
  | raising error => exact hvars.bind fun v _ => .raise
  | seq first next ihfirst ihnext => exact ihfirst.bind fun _ _ => ihnext
  | ifElse cond yes no ihyes ihno =>
      refine hvars.bind fun v _ => ?_
      split
      · exact ihyes
      · exact ihno
  | forRange times body ih => exact hvars.bind fun v _ => .each fun _ _ => ih
  | tryExcept body handler ihbody ihhandler => exact ihbody.catching ihhandler
  | readActor into => exact Tx.Within.bind (.read _) fun actor _ => within_assigning _
  | setActor actor => exact hvars.bind fun v _ => within_setActor (actor v)
  | resetActor token =>
      refine hvars.bind fun v _ => ?_
      split
      · exact within_clear
      · exact within_resetActor _
  | write now action changes => exact hvars.bind fun v _ => within_writeEntry _ _ _
  | actorContext user source reason into body ih =>
      refine hvars.bind fun v _ => within_actorContext fun actor => ?_
      exact (within_assigning _).bind fun _ _ => ih
  | reasonContext reason into body ih =>
      refine hvars.bind fun v _ => within_reasonContext fun actor => ?_
      exact (within_assigning _).bind fun _ _ => ih
  | middleware asyncMode resolve resolved getResponse ihresolve ihresponse =>
      refine within_call (ihresolve.bind fun _ _ => hvars.bind fun v _ => .pure) ihresponse

/-- In every run of every program: each block leaves the binding it found and
`reason_context` changes the reason only; and an entry written after a
middleware call is stamped with nothing that was bound from the call's own
binding to its end, unless a token minted in that time was reset in between. -/
theorem brackets_restore (p : Program σ) (bound : Option (Option ChangeActor)) (vars : σ) :
    (∀ b, .ended b ∈ p.log bound vars →
      b.after = b.before ∧
        ∀ reason, b.kind = .reasonContext reason →
          b.inside = { b.before with reason := normalizeReason reason }) ∧
    ∀ (before : List Event) (b : Block) (mid : List Event) (entry : Entry) (setter : Option ℕ)
      (rest : List Event),
      p.log bound vars = (before ++ .ended b :: mid) ++ .wrote entry setter :: rest →
      b.kind = .middleware → b.Spared mid → ∀ n, setter = some n → ¬ b.minted n := by
  have hstart : (Session.start bound vars).Sound :=
    ⟨.initial 0 bound, fun _ h => absurd h List.not_mem_nil, .nil _⟩
  obtain ⟨hsound, -⟩ := within_run p (.start bound vars) hstart
  refine ⟨fun b hb => ?_, fun before b mid entry setter rest hlog _ hspared => ?_⟩
  · have hrestores := hsound.log.restores b hb
    exact ⟨hrestores.after, hrestores.reason⟩
  · exact hsound.log.unstamped before b mid entry setter rest hlog hspared

/-! ### One request, and a write after it -/

def alice : ChangeActor := { userId := some 1, name := "Alice", source := "api" }

def bob : ChangeActor := { userId := some 2, name := "Bob", source := "api" }

def writeUpdate : Program Unit := .write (fun _ => "") (fun _ => .updated) fun _ => []

def updateBy (actor : ChangeActor) : Entry :=
  HistoryModel.historyEntry { now := "", actor := actor } .updated []

/-- The view binds and never resets, and raises. -/
def viewsetRequest : Program Unit :=
  .seq
    (.tryExcept
      (.middleware false .pass (fun _ => none)
        (.seq (.setActor fun _ => some alice) (.raising fun _ => .databaseError)))
      fun _ => .pass)
    writeUpdate

theorem viewsetRequest_restores :
    ∃ b : Block, viewsetRequest.log none () =
        [.reset 0] ++ [.ended b] ++ [.wrote (updateBy {}) none] ∧
      b.kind = .middleware ∧ b.after = b.before ∧ ∀ n, none = some n → ¬ b.minted n := by
  let b : Block := ⟨.middleware, 0, 2, {}, {}, {}⟩
  have hlog : viewsetRequest.log none () =
      [.reset 0] ++ [.ended b] ++ [.wrote (updateBy {}) none] := rfl
  obtain ⟨hrestores, hunstamped⟩ := brackets_restore viewsetRequest none ()
  refine ⟨b, hlog, rfl, (hrestores b (by rw [hlog]; simp)).1, ?_⟩
  exact hunstamped [.reset 0] b [] _ none [] hlog rfl fun _ h => absurd h List.not_mem_nil

/-- The view binds twice, and the second token is reset after the request. -/
def strayToken : Program Unit :=
  .seq
    (.middleware false .pass (fun _ => none)
      (.seq (.setActor fun _ => some alice) (.setActor fun _ => some bob)))
    (.seq (.resetActor fun _ => some 1) writeUpdate)

/-- `resolve_actor` binds on its own. -/
def bindingHook : Program Unit :=
  .seq (.middleware false (.setActor fun _ => some alice) (fun _ => none) .pass) writeUpdate

/-- Both requests leave their identity to an entry written after them. -/
theorem identity_outlives_request :
    (∃ (before : List Event) (b : Block) (mid : List Event) (entry : Entry) (setter : Option ℕ)
      (rest : List Event),
      strayToken.log none () = (before ++ .ended b :: mid) ++ .wrote entry setter :: rest ∧
      b.kind = .middleware ∧ entry.byUser = alice.userId ∧ ∃ n, setter = some n ∧ b.minted n) ∧
    ∃ (before : List Event) (b : Block) (entry : Entry) (setter : Option ℕ),
      bindingHook.log none () = before ++ [.ended b] ++ [.wrote entry setter] ∧
      b.kind = .middleware ∧ entry.byUser = alice.userId := by
  refine ⟨⟨[.reset 0], ⟨.middleware, 0, 3, {}, {}, {}⟩, [.reset 2], updateBy alice, some 1, [], rfl,
    rfl, rfl, 1, rfl, ?_⟩, ?_⟩
  · exact ⟨by decide, by decide⟩
  · exact ⟨[.reset 1], ⟨.middleware, 1, 2, alice, {}, alice⟩, updateBy alice, some 0, rfl, rfl, rfl⟩

end NetixBackend.ChangeHistory
