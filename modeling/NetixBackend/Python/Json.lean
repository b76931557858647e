import NetixBackend.Python.Builtins

/-!
The values a JSON column holds, as Python sees them, with Python's `==` and
truth test.

A document is what `json.loads` can return: `None`, booleans, integers,
floats (NaN and the infinities included, which Python's encoder accepts),
strings, lists and string-keyed dicts. `==` compares booleans, integers and
floats by number, lists in order and dicts as mappings. The shortcut by which
a container compares an element with itself by identity is not modelled: a
NaN is unequal to every value wherever it stands.
-/

namespace Python

inductive JsonValue
  | null
  | bool (b : Bool)
  | int (n : ℤ)
  | float (x : Number)
  | str (s : String)
  | arr (items : List JsonValue)
  | obj (entries : List (String × JsonValue))

namespace JsonValue

instance : Inhabited JsonValue := ⟨null⟩

/-- The number a value compares as, if it is one: `True == 1 == 1.0`. -/
def number : JsonValue → Option Number
  | .bool b => some (.finite (if b then 1 else 0))
  | .int n => some (.finite n)
  | .float x => some x
  | _ => none

mutual
def pyEq : JsonValue → JsonValue → Bool
  | .null, .null => true
  | .str a, .str b => a == b
  | .arr xs, .arr ys => pyEqItems xs ys
  | .obj xs, .obj ys => xs.length == ys.length && pyEqEntries xs ys
  | a, b =>
      match a.number, b.number with
      | some x, some y => x.eq y
      | _, _ => false

def pyEqItems : List JsonValue → List JsonValue → Bool
  | [], [] => true
  | x :: xs, y :: ys => pyEq x y && pyEqItems xs ys
  | _, _ => false

/-- Every key of the first dict is in the second with an equal value. -/
def pyEqEntries : List (String × JsonValue) → List (String × JsonValue) → Bool
  | [], _ => true
  | (key, x) :: xs, ys =>
      (match ys.lookup key with
        | some y => pyEq x y
        | none => false) && pyEqEntries xs ys
end

def pyNe (a b : JsonValue) : Bool := !pyEq a b

def truthy : JsonValue → Bool
  | .null => false
  | .bool b => b
  | .int n => n ≠ 0
  | .float x => x ≠ .finite 0
  | .str s => s ≠ ""
  | .arr items => !items.isEmpty
  | .obj entries => !entries.isEmpty

end JsonValue

/-! ### `json.dumps` of a string -/

end Python
