import NetixBackend.Python.Integers

/-!
`float(text)`.

The literals are those of Python: white space around, a sign or none, then
`inf`, `infinity` or `nan` in any case, or decimal digits of any script with
an optional fraction and exponent and single underscores between digits. The
value is exact; a literal beyond the largest double is infinite.
-/

namespace Python

/-- The digits that continue a digit part, and what follows it. -/
def moreDigits : List Char → List ℕ × List Char
  | [] => ([], [])
  | '_' :: c :: rest =>
      match decimalDigit c with
      | some d => let (ds, after) := moreDigits rest; (d :: ds, after)
      | none => ([], '_' :: c :: rest)
  | c :: rest =>
      match decimalDigit c with
      | some d => let (ds, after) := moreDigits rest; (d :: ds, after)
      | none => ([], c :: rest)

/-- A digit part, empty when the first character is no digit. -/
def digitPart : List Char → List ℕ × List Char
  | [] => ([], [])
  | c :: rest =>
      match decimalDigit c with
      | some d => let (ds, after) := moreDigits rest; (d :: ds, after)
      | none => ([], c :: rest)

def ofDigits (ds : List ℕ) : ℕ := ds.foldl (fun n d => 10 * n + d) 0

/-- An exponent, to the end of the text; no exponent is zero. -/
def exponentPart : List Char → Option ℤ
  | [] => some 0
  | c :: rest =>
      if c = 'e' ∨ c = 'E' then
        let (negative, rest) := match rest with
          | '-' :: rest => (true, rest)
          | '+' :: rest => (false, rest)
          | rest => (false, rest)
        match digitPart rest with
        | (d :: ds, []) =>
            let n : ℤ := ofDigits (d :: ds)
            some (if negative then -n else n)
        | _ => none
      else none

/-- Magnitudes from `2 ^ 1024 - 2 ^ 970` on round to infinity. -/
def floatOverflow : ℚ := (((2 ^ 256) ^ 4 - (2 ^ 194) ^ 5 : ℕ) : ℚ)

def scaled (n : ℕ) (exponent : ℤ) : ℚ :=
  if 0 ≤ exponent then ((n * 10 ^ exponent.toNat : ℕ) : ℚ) else mkRat n (10 ^ (-exponent).toNat)

/-- An unsigned decimal literal. -/
def decimalLiteral (chars : List Char) : Option ℚ :=
  let (whole, rest) := digitPart chars
  let (fraction, rest) := match rest with
    | '.' :: rest => digitPart rest
    | rest => ([], rest)
  if whole = [] ∧ fraction = [] then none
  else (exponentPart rest).map fun exponent =>
    scaled (ofDigits (whole ++ fraction)) (exponent - fraction.length)

/-- An unsigned literal. -/
def unsignedFloat (chars : List Char) : Option Number :=
  let lower := chars.map Char.toLower
  if lower = "inf".toList ∨ lower = "infinity".toList then some .inf
  else if lower = "nan".toList then some .nan
  else (decimalLiteral chars).map fun q => if q < floatOverflow then .finite q else .inf

def Number.neg : Number → Number
  | .finite q => .finite (-q)
  | .inf => .negInf
  | .negInf => .inf
  | .nan => .nan

/-- `float(text)`; `none` is a `ValueError`. -/
def floatOfString (text : String) : Option Number :=
  match stripBy isNumberSpace text.toList with
  | '-' :: chars => (unsignedFloat chars).map Number.neg
  | '+' :: chars => unsignedFloat chars
  | chars => unsignedFloat chars

end Python
