import NetixBackend.Transition.System
import Mathlib.Data.List.Count
import Mathlib.Data.Finset.Insert
import Mathlib.Order.Basic

/-!
The registration threads of a process, and the heartbeats they start.

The latch is taken under the lock and released by a reset, which signals the
stop event and puts a new one in its place. Which event a heartbeat will look
at is settled neither by the trigger nor by the reset, but when the
registration thread, done with its attempts, looks it up, outside the lock. A
thread that is late for that gets the event of a latch it does not belong to.

Registration is enabled and configured throughout, and the interval positive,
so no thread ends before its heartbeat has started.
-/

namespace NetixBackend.Registration

open Transition

/-- How far a registration thread is, or the heartbeat it ended in. Stop events
are numbered in the order they are put in place. -/
inductive Phase
  /-- The latch is taken, the thread not started. -/
  | latched (attempts : ℕ)
  /-- In `register()`, with so many attempts left. -/
  | registering (attempts : ℕ)
  /-- In `start_heartbeat()`, which has looked up the stop event. -/
  | holding (stop : ℕ)
  /-- In `_heartbeat()`, between two wake-ups. -/
  | beating (stop : ℕ)
  | stopped
  deriving DecidableEq, Repr

structure RegistrationThread where
  /-- The stop event in place when the latch was taken. -/
  epoch : ℕ
  phase : Phase

/-- How far a reset is that holds the lock. -/
inductive Resetting
  | released
  | signalled
  deriving DecidableEq, Repr

structure Latch where
  /-- `_registration_state["started"]`. -/
  started : Bool := false
  /-- `_heartbeat_stop["event"]`. -/
  event : ℕ := 0
  /-- The stop events that are set. -/
  signalled : Finset ℕ := ∅
  /-- The reset under way, which holds the lock. -/
  resetting : Option Resetting := none
  /-- The latches for which `trigger_service_registration` has been called. -/
  called : Finset ℕ := ∅
  threads : List RegistrationThread := []

inductive ThreadEvent
  | start
  /-- An attempt of `register()`, and whether it was accepted. -/
  | attempt (accepted : Bool)
  | lookUp
  | startHeartbeat
  /-- `stop.wait()` times out, and the registration is sent again. -/
  | beat
  /-- `stop.wait()` finds the event set. -/
  | stop
  deriving DecidableEq, Repr

inductive Event
  | trigger (attempts : ℕ)
  | thread (id : ℕ) (event : ThreadEvent)
  | reset
  | signal
  | replace
  deriving DecidableEq, Repr

/-- What one thread does next. -/
inductive Turn (l : Latch) : Phase → ThreadEvent → Phase → Prop
  | start (attempts : ℕ) : Turn l (.latched attempts) .start (.registering attempts)
  | accepted (attempts : ℕ) :
      Turn l (.registering (attempts + 1)) (.attempt true) (.registering 0)
  | failed (attempts : ℕ) :
      Turn l (.registering (attempts + 1)) (.attempt false) (.registering attempts)
  | lookUp : Turn l (.registering 0) .lookUp (.holding l.event)
  | startHeartbeat (stop : ℕ) : Turn l (.holding stop) .startHeartbeat (.beating stop)
  | beat (stop : ℕ) (hunset : stop ∉ l.signalled) : Turn l (.beating stop) .beat (.beating stop)
  | stop (stop : ℕ) (hset : stop ∈ l.signalled) : Turn l (.beating stop) .stop .stopped

/-- `trigger_service_registration`, holding the lock. -/
def Latch.trigger (l : Latch) (attempts : ℕ) : Latch :=
  if l.started then { l with called := insert l.event l.called }
  else
    { l with
      started := true
      called := insert l.event l.called
      threads := l.threads ++ [⟨l.event, .latched attempts⟩] }

inductive Step (l : Latch) : Event → Latch → Prop
  | trigger (attempts : ℕ) (hfree : l.resetting = none) :
      Step l (.trigger attempts) (l.trigger attempts)
  | thread (id : ℕ) (event : ThreadEvent) (r : RegistrationThread) (phase : Phase)
      (hget : l.threads[id]? = some r) (hturn : Turn l r.phase event phase) :
      Step l (.thread id event)
        { l with threads := l.threads.set id { r with phase := phase } }
  | reset (hfree : l.resetting = none) :
      Step l .reset { l with started := false, resetting := some .released }
  | signal (hreset : l.resetting = some .released) :
      Step l .signal
        { l with signalled := insert l.event l.signalled, resetting := some .signalled }
  | replace (hreset : l.resetting = some .signalled) :
      Step l .replace { l with event := l.event + 1, resetting := none }

def registration : System Latch Event where
  init l := l = {}
  step := Step

/-- The stop event a thread looks at. -/
def Phase.stop? : Phase → Option ℕ
  | .holding stop => some stop
  | .beating stop => some stop
  | _ => none

/-- A heartbeat that sends at its next wake-up, if nobody stops it. -/
def Latch.willSend (l : Latch) (r : RegistrationThread) : Bool :=
  match r.phase with
  | .beating stop => stop ∉ l.signalled
  | _ => false

variable {l l' : Latch} {r : RegistrationThread}

theorem Latch.willSend_iff :
    l.willSend r = true ↔ ∃ stop, r.phase = .beating stop ∧ stop ∉ l.signalled := by
  unfold willSend
  cases r.phase <;> simp

/-! ### One thread for each latch -/

/-- The latch says whether the thread of its epoch has been started, and every
epoch before it has been stopped. -/
structure OnePerEpoch (l : Latch) : Prop where
  counted : ∀ epoch, (l.threads.map (·.epoch)).count epoch = if epoch ∈ l.called then 1 else 0
  past : ∀ epoch ∈ l.called, epoch ≤ l.event
  latch : l.started = true ↔ l.event ∈ l.called ∧ l.resetting = none
  stopped : ∀ epoch, epoch < l.event → epoch ∈ l.signalled
  signalled : l.resetting = some .signalled → l.event ∈ l.signalled

theorem OnePerEpoch.trigger (h : OnePerEpoch l) (hfree : l.resetting = none) (attempts : ℕ) :
    OnePerEpoch (l.trigger attempts) := by
  unfold Latch.trigger
  split
  · rename_i hstarted
    have hcalled : l.event ∈ l.called := (h.latch.mp hstarted).1
    rw [Finset.insert_eq_self.mpr hcalled]
    exact h
  · rename_i hstarted
    have hcalled : l.event ∉ l.called := fun hmem => hstarted (h.latch.mpr ⟨hmem, hfree⟩)
    refine ⟨fun epoch => ?_, fun epoch hepoch => ?_, ?_, h.stopped, h.signalled⟩
    · simp only [List.map_append, List.map_cons, List.map_nil, List.count_append, h.counted,
        List.count_singleton, beq_iff_eq, Finset.mem_insert]
      by_cases heq : epoch = l.event
      · subst heq
        simp [hcalled]
      · simp [heq, Ne.symm heq]
    · rcases Finset.mem_insert.mp hepoch with rfl | hmem
      · exact le_refl _
      · exact h.past epoch hmem
    · simp [hfree]

/-- A thread keeps the epoch it was started for. -/
theorem map_epoch_set {id : ℕ} {phase : Phase} (hget : l.threads[id]? = some r) :
    (l.threads.set id { r with phase := phase }).map (·.epoch) =
      l.threads.map (·.epoch) := by
  obtain ⟨hid, rfl⟩ := List.getElem?_eq_some_iff.mp hget
  rw [List.map_set]
  refine List.ext_getElem? fun k => ?_
  rw [List.getElem?_set]
  split
  · subst k
    simp [hid]
  · rfl

theorem onePerEpoch_inductive : registration.Inductive OnePerEpoch where
  init := by
    rintro l rfl
    exact ⟨by simp, by simp, by simp, by simp, by simp⟩
  step := by
    intro l event l' h hstep
    cases hstep with
    | trigger attempts hfree => exact h.trigger hfree attempts
    | thread id event r phase hget hturn =>
        refine ⟨fun epoch => ?_, h.past, h.latch, h.stopped, h.signalled⟩
        rw [map_epoch_set hget, h.counted]
    | reset hfree =>
        exact ⟨h.counted, h.past, by simp, h.stopped, by simp⟩
    | signal hreset =>
        refine ⟨h.counted, h.past, ?_, fun epoch hlt => ?_, fun _ => Finset.mem_insert_self _ _⟩
        · simp [h.latch, hreset]
        · exact Finset.mem_insert_of_mem (h.stopped epoch hlt)
    | replace hreset =>
        refine ⟨h.counted, fun epoch hepoch => (h.past epoch hepoch).trans (Nat.le_succ _), ?_, ?_,
          by simp⟩
        · have hfuture : l.event + 1 ∉ l.called := fun hmem =>
            absurd (h.past _ hmem) (by simp)
          simp [h.latch, hreset, hfuture]
        · intro epoch hlt
          rcases (Nat.lt_succ_iff.mp hlt).lt_or_eq with hlt | rfl
          · exact h.stopped epoch hlt
          · exact h.signalled hreset

/-! ### One live heartbeat -/

/-- A registration thread gets to its stop event before a reset made since its
trigger has put a new one in place. -/
def LooksUpInTime (l : Latch) : Event → Prop
  | .thread id .lookUp => ∀ r ∈ l.threads[id]?, r.epoch = l.event
  | _ => True

/-- Each thread looks at the stop event of its own epoch. -/
def Tied (l : Latch) : Prop :=
  ∀ r ∈ l.threads, ∀ stop ∈ r.phase.stop?, stop = r.epoch

theorem Turn.stop?_eq {phase phase' : Phase} {event : ThreadEvent} (h : Turn l phase event phase') :
    phase'.stop? = none ∨ phase'.stop? = phase.stop? ∨
      event = .lookUp ∧ phase'.stop? = some l.event := by
  cases h with
  | start | accepted | failed | stop => exact .inl rfl
  | lookUp => exact .inr (.inr ⟨rfl, rfl⟩)
  | startHeartbeat | beat => exact .inr (.inl rfl)

theorem tied_inductive : (registration.restrict LooksUpInTime).Inductive Tied where
  init := by
    rintro l rfl
    exact fun r hr => absurd hr List.not_mem_nil
  step := by
    rintro l event l' h ⟨hguard, hstep⟩
    cases hstep with
    | trigger attempts hfree =>
        unfold Latch.trigger
        split
        · exact h
        · intro r hr
          rcases List.mem_append.mp hr with hr | hr
          · exact h r hr
          · obtain rfl := List.mem_singleton.mp hr
            simp [Phase.stop?]
    | thread id event r phase hget hturn =>
        intro r' hr' stop hstop
        rcases List.mem_or_eq_of_mem_set hr' with hr' | rfl
        · exact h r' hr' stop hstop
        rcases hturn.stop?_eq with hnone | hsame | ⟨rfl, hlookUp⟩
        · simp [hnone] at hstop
        · exact h r (List.mem_of_getElem? hget) stop (hsame ▸ hstop)
        · rw [hlookUp] at hstop
          exact (Option.some.inj hstop).symm.trans (hguard r hget).symm
    | reset | signal | replace => exact h

theorem epoch_le_event (h : OnePerEpoch l) (hr : r ∈ l.threads) : r.epoch ≤ l.event := by
  refine h.past _ ?_
  by_contra hcalled
  have hcount := h.counted r.epoch
  rw [if_neg hcalled, List.count_eq_zero] at hcount
  exact hcount (List.mem_map_of_mem hr)

/-- A heartbeat that goes on is that of the latch in place. -/
theorem epoch_of_willSend (h : OnePerEpoch l) (htied : Tied l) (hr : r ∈ l.threads)
    (hsend : l.willSend r = true) : r.epoch = l.event := by
  obtain ⟨stop, hphase, hunset⟩ := Latch.willSend_iff.mp hsend
  have hstop : stop = r.epoch := htied r hr stop (by simp [hphase, Phase.stop?])
  refine (epoch_le_event h hr).antisymm (not_lt.mp fun hlt => hunset ?_)
  rw [hstop]
  exact h.stopped _ hlt

/-- Each latch epoch whose trigger has been called has one registration thread,
a heartbeat triggered before a reset is silent after it, and one heartbeat at
most goes on. -/
structure SingleHeartbeat (l : Latch) : Prop where
  oneThread : ∀ epoch, (l.threads.map (·.epoch)).count epoch =
    if epoch ∈ l.called then 1 else 0
  silenced : ∀ id l', Step l (.thread id .beat) l' → ∀ r ∈ l.threads[id]?,
    ¬r.epoch < l.event
  oneLive : l.threads.countP l.willSend ≤ 1

theorem singleHeartbeat_of_looksUpInTime
    (h : (registration.restrict LooksUpInTime).Reachable l) : SingleHeartbeat l := by
  have hepochs : OnePerEpoch l := onePerEpoch_inductive.reachable h.of_restrict
  have htied : Tied l := tied_inductive.reachable h
  refine ⟨hepochs.counted, ?_, ?_⟩
  · rintro id l' hstep r hr hlt
    cases hstep with
    | thread id event r' phase hget hturn =>
        obtain rfl : r = r' := Option.some.inj (hr.symm.trans hget)
        cases hphase : r.phase with
        | beating stop =>
            rw [hphase] at hturn
            cases hturn with
            | beat stop hunset =>
                have hsend : l.willSend r = true := Latch.willSend_iff.mpr ⟨stop, hphase, hunset⟩
                exact hlt.ne (epoch_of_willSend hepochs htied (List.mem_of_getElem? hget) hsend)
        | _ =>
            rw [hphase] at hturn
            cases hturn
  · calc l.threads.countP l.willSend
        ≤ l.threads.countP (fun r => r.epoch == l.event) :=
          List.countP_mono_left fun r hr hsend =>
            beq_iff_eq.mpr (epoch_of_willSend hepochs htied hr hsend)
      _ = (l.threads.map (·.epoch)).count l.event := by
          rw [List.count, List.countP_map]
          rfl
      _ ≤ 1 := by
          rw [hepochs.counted]
          split <;> simp

/-- A heartbeat is running when the latch is reset and taken again. -/
def beatingAtReset : Latch where
  started := true
  event := 1
  signalled := {0}
  called := {1, 0}
  threads := [⟨0, .beating 0⟩, ⟨1, .latched 8⟩]

theorem beatingAtReset_reachable :
    (registration.restrict LooksUpInTime).Reachable beatingAtReset := by
  let S := registration.restrict LooksUpInTime
  have hinit : S.Reachable {} := .of_init rfl
  have h₁ := hinit.next (t := _) (show S.step _ (.trigger 8) _ from ⟨trivial, .trigger 8 rfl⟩)
  have h₂ := h₁.next (t := _) (show S.step _ (.thread 0 .start) _ from
    ⟨trivial, .thread 0 .start _ _ rfl (.start 8)⟩)
  have h₃ := h₂.next (t := _) (show S.step _ (.thread 0 (.attempt true)) _ from
    ⟨trivial, .thread 0 (.attempt true) _ _ rfl (.accepted 7)⟩)
  have h₄ := h₃.next (t := _) (show S.step _ (.thread 0 .lookUp) _ from
    ⟨fun r hr => by rw [← Option.some.inj hr]; rfl, .thread 0 .lookUp _ _ rfl .lookUp⟩)
  have h₅ := h₄.next (t := _) (show S.step _ (.thread 0 .startHeartbeat) _ from
    ⟨trivial, .thread 0 .startHeartbeat _ _ rfl (.startHeartbeat 0)⟩)
  have h₆ := h₅.next (t := _) (show S.step _ .reset _ from ⟨trivial, .reset rfl⟩)
  have h₇ := h₆.next (t := _) (show S.step _ .signal _ from ⟨trivial, .signal rfl⟩)
  have h₈ := h₇.next (t := _) (show S.step _ .replace _ from ⟨trivial, .replace rfl⟩)
  have h₉ := h₈.next (t := _) (show S.step _ (.trigger 8) _ from ⟨trivial, .trigger 8 rfl⟩)
  exact h₉

theorem singleHeartbeat_beatingAtReset : SingleHeartbeat beatingAtReset :=
  singleHeartbeat_of_looksUpInTime beatingAtReset_reachable

/-- Two heartbeats, of which the first belongs to a latch that was reset while
its thread was still registering. -/
def resetInLadder : Latch where
  started := true
  event := 1
  signalled := {0}
  called := {1, 0}
  threads := [⟨0, .beating 1⟩, ⟨1, .beating 1⟩]

theorem resetInLadder_reachable : registration.Reachable resetInLadder := by
  let S := registration
  have hinit : S.Reachable {} := .of_init rfl
  have h₁ := hinit.next (t := _) (show S.step _ (.trigger 8) _ from .trigger 8 rfl)
  have h₂ := h₁.next (t := _) (show S.step _ (.thread 0 .start) _ from
    .thread 0 .start _ _ rfl (.start 8))
  have h₃ := h₂.next (t := _) (show S.step _ .reset _ from .reset rfl)
  have h₄ := h₃.next (t := _) (show S.step _ .signal _ from .signal rfl)
  have h₅ := h₄.next (t := _) (show S.step _ .replace _ from .replace rfl)
  have h₆ := h₅.next (t := _) (show S.step _ (.trigger 8) _ from .trigger 8 rfl)
  have h₇ := h₆.next (t := _) (show S.step _ (.thread 1 .start) _ from
    .thread 1 .start _ _ rfl (.start 8))
  have h₈ := h₇.next (t := _) (show S.step _ (.thread 0 (.attempt true)) _ from
    .thread 0 (.attempt true) _ _ rfl (.accepted 7))
  have h₉ := h₈.next (t := _) (show S.step _ (.thread 0 .lookUp) _ from
    .thread 0 .lookUp _ _ rfl .lookUp)
  have h₁₀ := h₉.next (t := _) (show S.step _ (.thread 0 .startHeartbeat) _ from
    .thread 0 .startHeartbeat _ _ rfl (.startHeartbeat 1))
  have h₁₁ := h₁₀.next (t := _) (show S.step _ (.thread 1 (.attempt true)) _ from
    .thread 1 (.attempt true) _ _ rfl (.accepted 7))
  have h₁₂ := h₁₁.next (t := _) (show S.step _ (.thread 1 .lookUp) _ from
    .thread 1 .lookUp _ _ rfl .lookUp)
  have h₁₃ := h₁₂.next (t := _) (show S.step _ (.thread 1 .startHeartbeat) _ from
    .thread 1 .startHeartbeat _ _ rfl (.startHeartbeat 1))
  exact h₁₃

theorem not_singleHeartbeat_resetInLadder :
    registration.Reachable resetInLadder ∧ ¬SingleHeartbeat resetInLadder :=
  ⟨resetInLadder_reachable, fun h => absurd h.oneLive (by decide)⟩

end NetixBackend.Registration
