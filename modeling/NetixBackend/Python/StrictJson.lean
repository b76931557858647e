import NetixBackend.Python.Json
import NetixBackend.Python.Dict

/-!
Documents in the strict sense, and which values equal themselves.

`json.loads` reads `NaN` and `Infinity`, but neither is JSON, and a NaN is not
equal to itself. A document without them, whose objects name no key twice, is
equal to itself under Python's `==`.
-/

namespace Python

def Number.isFinite : Number → Bool
  | finite _ => true
  | _ => false

theorem Number.eq_self {x : Number} (h : x.isFinite = true) : x.eq x = true := by
  cases x with
  | finite q => simp [Number.eq]
  | inf => rfl
  | negInf => rfl
  | nan => cases h

namespace JsonValue

mutual
/-- `p` holds of the value and of every value inside it. -/
def Everywhere (p : JsonValue → Prop) : JsonValue → Prop
  | .arr items => p (.arr items) ∧ EverywhereItems p items
  | .obj entries => p (.obj entries) ∧ EverywhereEntries p entries
  | .null => p .null
  | .bool b => p (.bool b)
  | .int n => p (.int n)
  | .float x => p (.float x)
  | .str s => p (.str s)

def EverywhereItems (p : JsonValue → Prop) : List JsonValue → Prop
  | [] => True
  | item :: rest => Everywhere p item ∧ EverywhereItems p rest

def EverywhereEntries (p : JsonValue → Prop) : List (String × JsonValue) → Prop
  | [] => True
  | (_, value) :: rest => Everywhere p value ∧ EverywhereEntries p rest
end

theorem everywhereEntries_iff {p : JsonValue → Prop} {entries : List (String × JsonValue)} :
    EverywhereEntries p entries ↔ ∀ entry ∈ entries, Everywhere p entry.2 := by
  induction entries with
  | nil => simp [EverywhereEntries]
  | cons entry rest ih =>
      obtain ⟨key, value⟩ := entry
      rw [EverywhereEntries, ih, List.forall_mem_cons]

/-- An object names no key twice. -/
def Keyed : JsonValue → Prop
  | .obj entries => (entries.map Prod.fst).Nodup
  | _ => True

/-- A number is neither NaN nor infinite. -/
def FiniteNumber : JsonValue → Prop
  | .float x => x.isFinite = true
  | _ => True

/-- A JSON document: null, booleans, integers, finite numbers, strings, arrays
of such and objects with string keys to such. -/
def Strict (value : JsonValue) : Prop := value.Everywhere Keyed ∧ value.Everywhere FiniteNumber

mutual
theorem pyEq_self (value : JsonValue) (hkeyed : value.Everywhere Keyed)
    (hfinite : value.Everywhere FiniteNumber) : value.pyEq value = true := by
  cases value with
  | null => rfl
  | bool b => simp [pyEq, number, Number.eq]
  | int n => simp [pyEq, number, Number.eq]
  | float x => exact Number.eq_self hfinite
  | str s => simp [pyEq]
  | arr items => exact pyEqItems_self items hkeyed.2 hfinite.2
  | obj entries =>
      have hlookup : ∀ entry ∈ entries, entries.lookup entry.1 = some entry.2 :=
        fun entry hentry => ((⟨entries, hkeyed.1⟩ : Dict String JsonValue).mem_items_iff _ _).mp hentry
      simp [pyEq, pyEqEntries_self entries entries hlookup hkeyed.2 hfinite.2]

theorem pyEqItems_self (items : List JsonValue) (hkeyed : EverywhereItems Keyed items)
    (hfinite : EverywhereItems FiniteNumber items) : pyEqItems items items = true := by
  cases items with
  | nil => rfl
  | cons item rest =>
      rw [pyEqItems, pyEq_self item hkeyed.1 hfinite.1, pyEqItems_self rest hkeyed.2 hfinite.2]
      rfl

theorem pyEqEntries_self (entries all : List (String × JsonValue))
    (hlookup : ∀ entry ∈ entries, all.lookup entry.1 = some entry.2)
    (hkeyed : EverywhereEntries Keyed entries) (hfinite : EverywhereEntries FiniteNumber entries) :
    pyEqEntries entries all = true := by
  cases entries with
  | nil => rfl
  | cons entry rest =>
      obtain ⟨key, value⟩ := entry
      rw [List.forall_mem_cons] at hlookup
      rw [pyEqEntries, hlookup.1, pyEqEntries_self rest all hlookup.2 hkeyed.2 hfinite.2]
      simp [pyEq_self value hkeyed.1 hfinite.1]
end

theorem Strict.pyNe_self {value : JsonValue} (h : value.Strict) : value.pyNe value = false := by
  rw [pyNe, pyEq_self value h.1 h.2, Bool.not_true]

end JsonValue

end Python
