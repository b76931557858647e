import Mathlib.Algebra.BigOperators.Group.List.Basic

/-!
Verdicts of filters that run one after another on the same thing.

A filter may reject the thing, or have a label for it; what is rejected is
rejected whoever else is asked, and the first label counts. So verdicts
multiply, and a list of filters has the product of its verdicts. The order of
the list matters for the labels alone: rejections may stand anywhere in it.
-/

namespace Effects

/-- What a filter says about a thing. -/
@[ext] structure Verdict (Label : Type*) where
  rejects : Bool
  label : Option Label

namespace Verdict

variable {Label : Type*}

/-- The first says it, else the second. -/
instance : Monoid (Verdict Label) where
  one := ⟨false, none⟩
  mul v w := ⟨v.rejects || w.rejects, v.label.or w.label⟩
  one_mul v := Verdict.ext (Bool.false_or _) Option.none_or
  mul_one v := Verdict.ext (Bool.or_false _) Option.or_none
  mul_assoc u v w := Verdict.ext (Bool.or_assoc _ _ _) Option.or_assoc

@[simp] theorem rejects_one : (1 : Verdict Label).rejects = false := rfl

@[simp] theorem label_one : (1 : Verdict Label).label = none := rfl

@[simp] theorem rejects_mul (v w : Verdict Label) :
    (v * w).rejects = (v.rejects || w.rejects) := rfl

@[simp] theorem label_mul (v w : Verdict Label) : (v * w).label = v.label.or w.label := rfl

/-! ### Lists of verdicts -/

theorem rejects_prod (verdicts : List (Verdict Label)) :
    verdicts.prod.rejects = verdicts.any rejects := by
  induction verdicts with
  | nil => rfl
  | cons v verdicts ih => rw [List.prod_cons, rejects_mul, ih, List.any_cons]

theorem label_prod (verdicts : List (Verdict Label)) :
    verdicts.prod.label = verdicts.findSome? label := by
  induction verdicts with
  | nil => rfl
  | cons v verdicts ih =>
      rw [List.prod_cons, label_mul, ih, List.findSome?_cons]
      cases v.label <;> rfl

/-- Two lists whose verdicts reject for the same reasons, in any order, and
have the same labels in the same order, have the same product. -/
theorem prod_congr {verdicts verdicts' : List (Verdict Label)}
    (hrejects : (∃ v ∈ verdicts, v.rejects = true) ↔ ∃ v ∈ verdicts', v.rejects = true)
    (hlabels : verdicts.filterMap label = verdicts'.filterMap label) :
    verdicts.prod = verdicts'.prod := by
  refine Verdict.ext ?_ ?_
  · rw [rejects_prod, rejects_prod, Bool.eq_iff_iff, List.any_eq_true, List.any_eq_true]
    exact hrejects
  · rw [label_prod, label_prod, ← List.head?_filterMap, ← List.head?_filterMap, hlabels]

end Verdict

end Effects
