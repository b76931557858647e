import Mathlib.Data.List.Basic
import NetixBackend.Transition.System

/-!
One run beside another that takes other steps in place of its own.

`shown` says as what the coarser system takes a step of the finer one. If the
states stay related whatever step is taken, every run of the finer system has
beside it the run of the coarser one over the steps as they are shown to it.
-/

namespace Transition.System

variable {State State' Label Label' : Type*}

/-- `T` follows `S` through `R`: it takes each step as `shown` has it. -/
structure Simulates (S : System State Label) (T : System State' Label')
    (shown : Label → Label') (R : State → State' → Prop) : Prop where
  init : ∀ s, S.init s → ∃ t, T.init t ∧ R s t
  step : ∀ s label s' t, R s t → S.step s label s' → ∃ t', T.step t (shown label) t' ∧ R s' t'

variable {S : System State Label} {T : System State' Label'} {shown : Label → Label'}
  {R : State → State' → Prop} {s : State} {labels : List Label}

/-- The run lemma, by induction on the run of `S`. -/
theorem Simulates.traced (h : Simulates S T shown R) (hs : S.traced.Reachable (s, labels)) :
    ∃ t, T.traced.Reachable (t, labels.map shown) ∧ R s t := by
  obtain ⟨start, hinit, hsteps⟩ := hs
  generalize htarget : (s, labels) = target at hsteps
  induction hsteps generalizing s labels with
  | refl =>
      subst htarget
      obtain ⟨hstart, rfl⟩ := hinit
      obtain ⟨t, ht, hR⟩ := h.init s hstart
      exact ⟨t, .of_init ⟨ht, rfl⟩, hR⟩
  | @tail mid last hprefix hnext ih =>
      subst htarget
      obtain ⟨s', labels'⟩ := mid
      obtain ⟨label, hstep, rfl⟩ := hnext
      obtain ⟨t, ht, hR⟩ := ih rfl
      obtain ⟨t', ht', hR'⟩ := h.step s' label s t hR hstep
      exact ⟨t', ht.next ⟨ht', List.map_append⟩, hR'⟩

end Transition.System
