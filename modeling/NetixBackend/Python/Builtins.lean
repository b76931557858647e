import Mathlib.Data.Rat.Defs
import Mathlib.Algebra.Order.Ring.Unbundled.Rat
import Mathlib.Tactic.Linarith

/-!
The built-in numbers, comparisons and slices of Python that the modelled
code relies on.

A float is an exact rational, one of the two infinities or NaN. Rounding is
not modelled; the rules of comparison are: every comparison with NaN is
false, and `max` / `min` keep the first argument unless the later one
compares larger / smaller, so a NaN in first position survives both.
-/

namespace Python

/-- A Python number, by the value it compares with. -/
inductive Number
  | finite (q : ℚ)
  | inf
  | negInf
  | nan
  deriving DecidableEq, Repr

namespace Number

instance : Inhabited Number := ⟨finite 0⟩

def lt : Number → Number → Bool
  | nan, _ | _, nan => false
  | finite a, finite b => decide (a < b)
  | negInf, negInf => false
  | negInf, _ => true
  | _, negInf => false
  | inf, _ => false
  | finite _, inf => true

def eq : Number → Number → Bool
  | finite a, finite b => decide (a = b)
  | inf, inf => true
  | negInf, negInf => true
  | _, _ => false

def max (a b : Number) : Number := if lt a b then b else a

def min (a b : Number) : Number := if lt b a then b else a

@[simp] theorem lt_finite (a b : ℚ) : lt (finite a) (finite b) = decide (a < b) := rfl

end Number

/-- `seq[start:]` for a list: a negative start counts from the end and stops
at the first element. -/
def sliceFrom {α : Type*} (start : ℤ) (seq : List α) : List α :=
  seq.drop (if start < 0 then (seq.length + start).toNat else start.toNat)

theorem sliceFrom_suffix {α : Type*} (start : ℤ) (seq : List α) :
    sliceFrom start seq <:+ seq := List.drop_suffix _ _

theorem length_sliceFrom_neg {α : Type*} {n : ℤ} (seq : List α) (hpos : 0 < n) :
    ((sliceFrom (-n) seq).length : ℤ) = Min.min n seq.length := by
  simp only [sliceFrom, Int.neg_neg_iff_pos, hpos, if_true, List.length_drop]
  omega

end Python
