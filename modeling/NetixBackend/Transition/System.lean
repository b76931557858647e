import Mathlib.Logic.Relation

/-!
Labelled transition systems and the rules by which something is shown to hold
of a whole run: an invariant from one step, a preorder between the states of a
run from one step, and both under a condition that every step meets.
-/

namespace Transition

/-- Where a run may start, and what one labelled step may do. -/
structure System (State Label : Type*) where
  init : State → Prop
  step : State → Label → State → Prop

namespace System

variable {State Label : Type*} (S : System State Label)

/-- Some step leads from `s` to `t`. -/
def Next (s t : State) : Prop := ∃ label, S.step s label t

/-- A run of any length leads from `s` to `t`. -/
def Steps : State → State → Prop := Relation.ReflTransGen S.Next

def Reachable (s : State) : Prop := ∃ start, S.init start ∧ S.Steps start s

/-- The system whose every step meets `guard`. -/
def restrict (guard : State → Label → Prop) : System State Label where
  init := S.init
  step s label t := guard s label ∧ S.step s label t

/-- The system with the labels of its run so far beside its state. -/
def traced : System (State × List Label) Label where
  init s := S.init s.1 ∧ s.2 = []
  step s label t := S.step s.1 label t.1 ∧ t.2 = s.2 ++ [label]

/-- `Inv` holds at the start and is kept by every step. -/
structure Inductive (Inv : State → Prop) : Prop where
  init : ∀ s, S.init s → Inv s
  step : ∀ s label t, Inv s → S.step s label t → Inv t

variable {S} {Inv : State → Prop} {s t : State} {label : Label}

theorem Reachable.of_init (h : S.init s) : S.Reachable s := ⟨s, h, .refl⟩

theorem Reachable.next (hs : S.Reachable s) (h : S.step s label t) : S.Reachable t := by
  obtain ⟨start, hinit, hsteps⟩ := hs
  exact ⟨start, hinit, hsteps.tail ⟨label, h⟩⟩

/-- A run that meets a condition is a run. -/
theorem Reachable.of_restrict {guard : State → Label → Prop}
    (hs : (S.restrict guard).Reachable s) : S.Reachable s := by
  obtain ⟨start, hinit, hsteps⟩ := hs
  exact ⟨start, hinit, Relation.ReflTransGen.mono (fun _ _ ⟨label, hstep⟩ => ⟨label, hstep.2⟩) _ _ hsteps⟩

/-- A run has the labels of its steps. -/
theorem Reachable.exists_traced (hs : S.Reachable s) :
    ∃ labels, S.traced.Reachable (s, labels) := by
  obtain ⟨start, hinit, hsteps⟩ := hs
  induction hsteps with
  | refl => exact ⟨[], .of_init ⟨hinit, rfl⟩⟩
  | tail _ hnext ih =>
      obtain ⟨labels, hlabels⟩ := ih
      obtain ⟨label, hstep⟩ := hnext
      exact ⟨labels ++ [label], hlabels.next ⟨hstep, rfl⟩⟩

theorem Inductive.steps (h : S.Inductive Inv) (hs : Inv s) (hrun : S.Steps s t) : Inv t := by
  induction hrun with
  | refl => exact hs
  | tail _ hnext ih =>
      obtain ⟨label, hstep⟩ := hnext
      exact h.step _ label _ ih hstep

/-- The run lemma: an inductive invariant holds in every reachable state. -/
theorem Inductive.reachable (h : S.Inductive Inv) (hs : S.Reachable s) : Inv s := by
  obtain ⟨start, hinit, hsteps⟩ := hs
  exact h.steps (h.init start hinit) hsteps

theorem Reachable.of_traced {labels : List Label} (hs : S.traced.Reachable (s, labels)) :
    S.Reachable s := by
  have hinv : S.traced.Inductive fun run => S.Reachable run.1 :=
    ⟨fun _ hinit => .of_init hinit.1, fun _ _ _ hrun hstep => hrun.next hstep.1⟩
  exact hinv.reachable hs

/-- What each step out of an invariant state does to two states, if it is
reflexive and transitive, a whole run does. -/
theorem Inductive.relates {R : State → State → Prop} (h : S.Inductive Inv)
    (hrefl : ∀ s, R s s) (htrans : ∀ s t u, R s t → R t u → R s u)
    (hstep : ∀ s label t, Inv s → S.step s label t → R s t)
    (hs : Inv s) (hrun : S.Steps s t) : R s t := by
  induction hrun with
  | refl => exact hrefl s
  | tail hprefix hnext ih =>
      obtain ⟨label, hlast⟩ := hnext
      exact htrans _ _ _ ih (hstep _ label _ (h.steps hs hprefix) hlast)

end System

end Transition
