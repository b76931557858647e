import NetixBackend.Transition.System

/-!
One system seen through another.

A map of states refines a system into a coarser one if every step of the finer,
out of a state that can be reached, either shows nothing of itself under the map
or is a step of the coarser. Then every run is one of the coarser system, and
its invariants hold of what the map shows.
-/

namespace Transition.System

variable {State State' Label Label' : Type*} {S : System State Label} {T : System State' Label'}

/-- `f` refines `S` into `T`, out of states that meet `Inv`. -/
structure Refines (S : System State Label) (T : System State' Label') (Inv : State → Prop)
    (f : State → State') : Prop where
  inv : S.Inductive Inv
  init : ∀ s, S.init s → T.init (f s)
  step : ∀ s label t, Inv s → S.step s label t → f t = f s ∨ T.Next (f s) (f t)

variable {Inv : State → Prop} {f : State → State'} {s : State}

theorem Refines.reachable (h : Refines S T Inv f) (hs : S.Reachable s) : T.Reachable (f s) := by
  obtain ⟨start, hinit, hsteps⟩ := hs
  induction hsteps with
  | refl => exact .of_init (h.init start hinit)
  | tail hprefix hnext ih =>
      obtain ⟨label, hstep⟩ := hnext
      have hinv := h.inv.reachable ⟨start, hinit, hprefix⟩
      rcases h.step _ label _ hinv hstep with heq | ⟨label', hstep'⟩
      · rw [heq]
        exact ih
      · exact ih.next hstep'


end Transition.System
