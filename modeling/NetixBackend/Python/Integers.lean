import NetixBackend.Python.Json
import Mathlib.Data.List.DropRight

/-!
`int(value)`, and the text of an integer.

A string is an integer literal when, between white space, it is a sign or
none and decimal digits of any script, with single underscores between digits
allowed; a literal of more than 4300 digits is refused. The four separators that
`str.strip` takes for white space are none here. A float is truncated.
What has no integer raises, and the three exceptions are kept apart because
callers catch two of them.
-/

namespace Python

/-- The exceptions of `int(value)`. -/
inductive IntError
  | typeError
  | valueError
  | overflowError
  deriving DecidableEq, Repr

/-- The code points of the digits zero, one for each script; the other nine
digits of the script follow. -/
def decimalZeros : List ℕ :=
  [0x30, 0x660, 0x6f0, 0x7c0, 0x966, 0x9e6, 0xa66, 0xae6, 0xb66, 0xbe6, 0xc66, 0xce6, 0xd66,
    0xde6, 0xe50, 0xed0, 0xf20, 0x1040, 0x1090, 0x17e0, 0x1810, 0x1946, 0x19d0, 0x1a80, 0x1a90,
    0x1b50, 0x1bb0, 0x1c40, 0x1c50, 0xa620, 0xa8d0, 0xa900, 0xa9d0, 0xa9f0, 0xaa50, 0xabf0,
    0xff10, 0x104a0, 0x10d30, 0x10d40, 0x11066, 0x110f0, 0x11136, 0x111d0, 0x112f0, 0x11450,
    0x114d0, 0x11650, 0x116c0, 0x116d0, 0x116da, 0x11730, 0x118e0, 0x11950, 0x11bf0, 0x11c50,
    0x11d50, 0x11da0, 0x11f50, 0x16130, 0x16a60, 0x16ac0, 0x16b50, 0x16d70, 0x1ccf0, 0x1d7ce,
    0x1d7d8, 0x1d7e2, 0x1d7ec, 0x1d7f6, 0x1e140, 0x1e2f0, 0x1e4f0, 0x1e5f1, 0x1e950, 0x1fbf0]

def decimalDigit (c : Char) : Option ℕ :=
  (decimalZeros.find? fun first => first ≤ c.toNat ∧ c.toNat < first + 10).map (c.toNat - ·)

def isSpace (c : Char) : Bool :=
  let n := c.toNat
  (0x09 ≤ n ∧ n ≤ 0x0d) ∨ (0x1c ≤ n ∧ n ≤ 0x20) ∨ n = 0x85 ∨ n = 0xa0 ∨ n = 0x1680 ∨
    (0x2000 ≤ n ∧ n ≤ 0x200a) ∨ n = 0x2028 ∨ n = 0x2029 ∨ n = 0x202f ∨ n = 0x205f ∨ n = 0x3000

/-- White space around a number, without U+001C to U+001F. -/
def isNumberSpace (c : Char) : Bool := isSpace c ∧ ¬(0x1c ≤ c.toNat ∧ c.toNat ≤ 0x1f)

def stripBy (space : Char → Bool) (chars : List Char) : List Char :=
  ((chars.dropWhile space).reverse.dropWhile space).reverse

/-- `text.strip()` -/
def strip (chars : List Char) : List Char := stripBy isSpace chars

theorem strip_strip (chars : List Char) : strip (strip chars) = strip chars := by
  have hprefix : strip chars <+: chars.dropWhile isSpace := List.rdropWhile_prefix isSpace _
  have hfront : (strip chars).dropWhile isSpace = strip chars := by
    rw [List.dropWhile_eq_self_iff]
    intro hlen
    obtain ⟨rest, hrest⟩ := hprefix
    have hpos : 0 < (chars.dropWhile isSpace).length := by
      rw [← hrest, List.length_append]
      omega
    have hhead : (strip chars)[0] = (chars.dropWhile isSpace)[0] := by
      simp only [← hrest, List.getElem_append_left hlen]
    rw [hhead]
    exact List.dropWhile_get_zero_not isSpace chars hpos
  rw [strip, stripBy, hfront]
  exact List.rdropWhile_idempotent isSpace _

/-- Digits with single underscores between them, after at least one digit. -/
def digitsAfter : List Char → Option (List ℕ)
  | [] => some []
  | '_' :: c :: rest =>
      match decimalDigit c, digitsAfter rest with
      | some d, some ds => some (d :: ds)
      | _, _ => none
  | c :: rest =>
      match decimalDigit c, digitsAfter rest with
      | some d, some ds => some (d :: ds)
      | _, _ => none

def parseDigits : List Char → Option (List ℕ)
  | [] => none
  | c :: rest =>
      match decimalDigit c, digitsAfter rest with
      | some d, some ds => some (d :: ds)
      | _, _ => none

def intMaxStrDigits : ℕ := 4300

/-- `int(text)` of the characters between sign and end. -/
def natOfDigits (chars : List Char) : Except IntError ℕ :=
  match parseDigits chars with
  | some ds =>
      if ds.length ≤ intMaxStrDigits then .ok (ds.foldl (fun n d => 10 * n + d) 0)
      else .error .valueError
  | none => .error .valueError

/-- `int(text)`. -/
def intOfString (text : String) : Except IntError ℤ :=
  match stripBy isNumberSpace text.toList with
  | '-' :: chars => (natOfDigits chars).map fun n => -(n : ℤ)
  | '+' :: chars => (natOfDigits chars).map fun n => (n : ℤ)
  | chars => (natOfDigits chars).map fun n => (n : ℤ)

/-- `int(x)` of a float truncates. -/
def Number.toInt : Number → Except IntError ℤ
  | .finite q => .ok (q.num.tdiv q.den)
  | .inf | .negInf => .error .overflowError
  | .nan => .error .valueError

namespace JsonValue

/-- `int(value)`. -/
def toInt : JsonValue → Except IntError ℤ
  | .bool b => .ok (if b then 1 else 0)
  | .int n => .ok n
  | .float x => x.toInt
  | .str s => intOfString s
  | .null | .arr _ | .obj _ => .error .typeError

/-- `str(value) == str(n)`. The text of a boolean, a null, a float, a list or a
dict is never that of an integer. -/
def sameTextAsInt (n : ℤ) : JsonValue → Bool
  | .int m => m = n
  | .str s => s = toString n
  | _ => false

end JsonValue

end Python
