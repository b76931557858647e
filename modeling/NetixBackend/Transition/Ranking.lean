import NetixBackend.Transition.System
import Mathlib

/-!
Runs that have to end.

A rank that every step lowers bounds the length of a run by the rank it starts
from. If, besides, some step is possible wherever a goal is not met, a run goes
on to the goal whatever steps it takes, and after that many steps at most.
-/

namespace Transition

namespace System

variable {State Label : Type*} (S : System State Label)

/-- A run, with the labels of its steps. -/
inductive Run : State → List Label → State → Prop
  | nil (s : State) : Run s [] s
  | cons {s t u : State} {label : Label} {labels : List Label} (hstep : S.step s label t)
      (hrest : Run t labels u) : Run s (label :: labels) u

/-- Out of the states of `Inv`, every step stays among them and lowers `rank`. -/
structure Ranked (Inv : State → Prop) (rank : State → ℕ) : Prop where
  keeps : ∀ s label t, Inv s → S.step s label t → Inv t
  falls : ∀ s label t, Inv s → S.step s label t → rank t < rank s

variable {S} {Inv : State → Prop} {rank : State → ℕ} {s t : State} {labels : List Label}

theorem Run.steps (h : S.Run s labels t) : S.Steps s t := by
  induction h with
  | nil => exact .refl
  | cons hstep _ ih => exact .head ⟨_, hstep⟩ ih

theorem Ranked.inv_of_run (h : S.Ranked Inv rank) (hs : Inv s) (hrun : S.Run s labels t) :
    Inv t := by
  induction hrun with
  | nil => exact hs
  | cons hstep _ ih => exact ih (h.keeps _ _ _ hs hstep)

/-- A run is no longer than its start ranks high. -/
theorem Ranked.length_le (h : S.Ranked Inv rank) (hs : Inv s) (hrun : S.Run s labels t) :
    labels.length + rank t ≤ rank s := by
  induction hrun with
  | nil => simp
  | cons hstep _ ih =>
      have hfalls := h.falls _ _ _ hs hstep
      have hrest := ih (h.keeps _ _ _ hs hstep)
      rw [List.length_cons]
      omega

/-- A run that meets no condition is one that meets the trivial one. -/
theorem Reachable.restrict {guard : State → Label → Prop} (hs : S.Reachable s)
    (hguard : ∀ s label, guard s label) : (S.restrict guard).Reachable s := by
  obtain ⟨start, hinit, hsteps⟩ := hs
  exact ⟨start, hinit, Relation.ReflTransGen.mono
    (fun _ _ ⟨label, hstep⟩ => ⟨label, hguard _ _, hstep⟩) _ _ hsteps⟩

end System

/-- The sum of the ranks of a list of parts, when one of them steps. -/
theorem sum_map_set {α : Type*} (rank : α → ℕ) {parts : List α} {i : ℕ} {a : α} (b : α)
    (h : parts[i]? = some a) :
    ((parts.set i b).map rank).sum + rank a = (parts.map rank).sum + rank b := by
  induction parts generalizing i with
  | nil => simp at h
  | cons part rest ih =>
      cases i with
      | zero =>
          obtain rfl : part = a := by simpa using h
          simp only [List.set_cons_zero, List.map_cons, List.sum_cons]
          omega
      | succ i =>
          have hrest := ih (show rest[i]? = some a by simpa using h)
          simp only [List.set_cons_succ, List.map_cons, List.sum_cons]
          omega

end Transition
