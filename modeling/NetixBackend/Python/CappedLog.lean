import NetixBackend.Python.Builtins
import Mathlib.Data.List.DropRight
import Mathlib.Data.List.Infix

/-!
A list that grows at the end and is cut back to its last `cap` elements after
each addition: `log.append(x); log = log[-cap:]`.

`pushAll` is what a run of additions leaves. Whatever the cap, it is a suffix
of all that was ever added; for a positive one it is the last `cap` of them,
and all of them while the cap is not exceeded. A cap of zero cuts nothing,
because `log[-0:]` is the whole list.
-/

namespace Python.CappedLog

variable {α : Type*} {cap : ℤ} {log xs ys : List α}

/-- `(log + [x])[-cap:]`. -/
def push (cap : ℤ) (log : List α) (x : α) : List α := sliceFrom (-cap) (log ++ [x])

/-- The additions of `xs`, one after the other. -/
def pushAll (cap : ℤ) (log xs : List α) : List α := xs.foldl (push cap) log

theorem push_of_pos {n : ℕ} (hn : 0 < n) (log : List α) (x : α) :
    push n log x = (log ++ [x]).rtake n := by
  have hstart : (((log ++ [x]).length : ℤ) + -n).toNat = (log ++ [x]).length - n := by omega
  rw [push, sliceFrom, if_pos (by omega), hstart, List.rtake]

/-- `log[-0:]` is the whole list. -/
theorem push_zero (log : List α) (x : α) : push 0 log x = log ++ [x] := rfl

@[simp] theorem pushAll_nil : pushAll cap log [] = log := rfl

theorem pushAll_append : pushAll cap log (xs ++ ys) = pushAll cap (pushAll cap log xs) ys :=
  List.foldl_append

/-- Nothing is in the log that was not added, and what is lost is lost at the
front. -/
theorem pushAll_suffix : pushAll cap log xs <:+ log ++ xs := by
  induction xs generalizing log with
  | nil => simp
  | cons x xs ih =>
      have hpush : push cap log x ++ xs <:+ (log ++ [x]) ++ xs := by
        obtain ⟨front, hfront⟩ := sliceFrom_suffix (-cap) (log ++ [x])
        exact ⟨front, by rw [← List.append_assoc, push, hfront]⟩
      exact ih.trans (by simpa using hpush)

theorem length_push (hcap : 0 < cap) (log : List α) (x : α) :
    ((push cap log x).length : ℤ) = min cap (log.length + 1) := by
  rw [push, length_sliceFrom_neg _ hcap, List.length_append, List.length_singleton]
  omega

theorem length_pushAll (log xs : List α) (hcap : 0 < cap) (hlog : (log.length : ℤ) ≤ cap) :
    ((pushAll cap log xs).length : ℤ) = min cap (log.length + xs.length) := by
  induction xs generalizing log with
  | nil => simp [hlog]
  | cons x xs ih =>
      have hpush := length_push hcap log x
      have hrest := ih (push cap log x) (by omega)
      change ((pushAll cap (push cap log x) xs).length : ℤ) = _
      rw [hrest, hpush, List.length_cons]
      omega

/-- While the cap is not exceeded nothing is lost. -/
theorem pushAll_of_length_le (hcap : 0 < cap) (hlen : (log.length + xs.length : ℤ) ≤ cap) :
    pushAll cap log xs = log ++ xs := by
  refine pushAll_suffix.eq_of_length ?_
  have hlength := length_pushAll log xs hcap (by omega)
  rw [List.length_append]
  omega

end Python.CappedLog
