import NetixBackend.Python.Integers

/-!
Decimal digits, between `str(n)` and `int(text)`.

`str(n)` of a natural number is its ASCII digits, the first of them no zero
unless it stands alone. A run of decimal digits of any script is read back by
`int`, so a number has many spellings and exactly one is printed.
-/

namespace Python

/-- What `\d` matches. -/
def isDecimal (c : Char) : Bool := (decimalDigit c).isSome

/-- The number a run of decimal digits spells. -/
def decimalValue (digits : List Char) : ℕ :=
  digits.foldl (fun n c => 10 * n + (decimalDigit c).getD 0) 0

/-- `str(n)`: of more than 4300 digits it raises. -/
def strOfInt (n : ℤ) : Except IntError String :=
  if (Nat.toDigits 10 n.natAbs).length ≤ intMaxStrDigits then .ok (toString n)
  else .error .valueError

/-- The spelling that is printed: ASCII digits, and no zero in front. -/
def Canonical (digits : List Char) : Prop :=
  (∀ c ∈ digits, c.isDigit = true) ∧ (digits.head? = some '0' → digits = ['0'])

instance (digits : List Char) : Decidable (Canonical digits) :=
  inferInstanceAs (Decidable (_ ∧ _))

theorem isDecimal_iff (c : Char) :
    isDecimal c = true ↔ ∃ first ∈ decimalZeros, first ≤ c.toNat ∧ c.toNat < first + 10 := by
  simp only [isDecimal, decimalDigit, Option.isSome_map, List.find?_isSome, decide_eq_true_eq]

/-- Where the scripts' digits lie among the white space and the signs. -/
theorem decimalZeros_apart :
    ∀ first ∈ decimalZeros, first = 0x30 ∨ 0x660 ≤ first ∧ first + 10 ≤ 0x1680 ∨
      0x1680 < first ∧ first + 10 ≤ 0x2000 ∨ 0x3000 < first := by
  decide

theorem isSpace_of_isDecimal {c : Char} (h : isDecimal c = true) : isSpace c = false := by
  obtain ⟨first, hfirst, hle, hlt⟩ := (isDecimal_iff c).mp h
  have apart := decimalZeros_apart first hfirst
  simp only [isSpace, decide_eq_false_iff_not]
  omega

theorem toNat_ge_of_isDecimal {c : Char} (h : isDecimal c = true) : 0x30 ≤ c.toNat := by
  obtain ⟨first, hfirst, hle, -⟩ := (isDecimal_iff c).mp h
  have apart := decimalZeros_apart first hfirst
  omega

theorem ne_underscore_of_isDecimal {c : Char} (h : isDecimal c = true) : c ≠ '_' := by
  rintro rfl
  revert h
  decide

theorem isDigit_iff {c : Char} : c.isDigit = true ↔ 0x30 ≤ c.toNat ∧ c.toNat < 0x30 + 10 := by
  have htoNat : c.toNat = c.val.toNat := rfl
  simp only [Char.isDigit, Bool.and_eq_true, decide_eq_true_eq, ge_iff_le,
    UInt32.le_iff_toNat_le, htoNat]
  exact and_congr Iff.rfl Nat.lt_succ_iff.symm

theorem decimalDigit_of_isDigit {c : Char} (h : c.isDigit = true) :
    decimalDigit c = some (c.toNat - 0x30) := by
  have hrange := isDigit_iff.mp h
  simp only [decimalDigit, decimalZeros, List.find?_cons, hrange, and_self, decide_true,
    Option.map_some]

theorem isDecimal_of_isDigit {c : Char} (h : c.isDigit = true) : isDecimal c = true := by
  simp [isDecimal, decimalDigit_of_isDigit h]

/-! `int(text)` of a run of digits. -/

theorem digitsAfter_of_isDecimal {digits : List Char} (h : ∀ c ∈ digits, isDecimal c = true) :
    digitsAfter digits = some (digits.map fun c => (decimalDigit c).getD 0) := by
  induction digits with
  | nil => rfl
  | cons c digits ih =>
      have hc : isDecimal c = true := h c (by simp)
      obtain ⟨d, hd⟩ := Option.isSome_iff_exists.mp hc
      have hrest := ih fun x hx => h x (List.mem_cons_of_mem c hx)
      have hne := ne_underscore_of_isDecimal hc
      unfold digitsAfter
      simp [hd, hrest, hne]

theorem parseDigits_of_isDecimal {digits : List Char} (hne : digits ≠ [])
    (h : ∀ c ∈ digits, isDecimal c = true) :
    parseDigits digits = some (digits.map fun c => (decimalDigit c).getD 0) := by
  cases digits with
  | nil => exact absurd rfl hne
  | cons c digits =>
      obtain ⟨d, hd⟩ := Option.isSome_iff_exists.mp (h c (by simp))
      have hrest := digitsAfter_of_isDecimal fun x hx => h x (List.mem_cons_of_mem c hx)
      simp [parseDigits, hd, hrest]

theorem natOfDigits_of_isDecimal {digits : List Char} (hne : digits ≠ [])
    (h : ∀ c ∈ digits, isDecimal c = true) :
    natOfDigits digits =
      if digits.length ≤ intMaxStrDigits then .ok (decimalValue digits) else .error .valueError := by
  simp only [natOfDigits, parseDigits_of_isDecimal hne h, List.length_map, decimalValue,
    List.foldl_map]

theorem stripBy_of_no_space {space : Char → Bool} {chars : List Char}
    (h : ∀ c ∈ chars, space c = false) : stripBy space chars = chars := by
  have hdrop : ∀ {text : List Char}, (∀ c ∈ text, space c = false) →
      text.dropWhile space = text := by
    intro text htext
    cases text with
    | nil => rfl
    | cons c text => simp [htext c (by simp)]
  have hreverse : ∀ c ∈ chars.reverse, space c = false := fun c hc => h c (by simpa using hc)
  rw [stripBy, hdrop h, hdrop hreverse, List.reverse_reverse]

theorem isNumberSpace_of_isDecimal {c : Char} (h : isDecimal c = true) :
    isNumberSpace c = false := by
  simp [isNumberSpace, isSpace_of_isDecimal h]

theorem stripBy_of_isDecimal {chars : List Char} (h : ∀ c ∈ chars, isDecimal c = true) :
    stripBy isNumberSpace chars = chars :=
  stripBy_of_no_space fun c hc => isNumberSpace_of_isDecimal (h c hc)

theorem intOfString_of_isDecimal {text : String} (hne : text.toList ≠ [])
    (h : ∀ c ∈ text.toList, isDecimal c = true) :
    intOfString text =
      if text.toList.length ≤ intMaxStrDigits then .ok (decimalValue text.toList : ℤ)
      else .error .valueError := by
  have hparsed := natOfDigits_of_isDecimal hne h
  unfold intOfString
  rw [stripBy_of_isDecimal h]
  split
  · next chars hchars =>
      exact absurd (toNat_ge_of_isDecimal (h '-' (by simp [hchars]))) (by decide)
  · next chars hchars =>
      exact absurd (toNat_ge_of_isDecimal (h '+' (by simp [hchars]))) (by decide)
  · rw [hparsed]
    split <;> rfl

/-! Printed and read back. -/

theorem decimalValue_eq {digits : List Char} (h : ∀ c ∈ digits, c.isDigit = true) :
    decimalValue digits = Nat.ofDigitChars 10 digits 0 := by
  have hfold : ∀ n, digits.foldl (fun n c => 10 * n + (decimalDigit c).getD 0) n =
      Nat.ofDigitChars 10 digits n := by
    induction digits with
    | nil => intro n; rfl
    | cons c digits ih =>
        intro n
        rw [List.foldl_cons, Nat.ofDigitChars_cons, decimalDigit_of_isDigit (h c (by simp))]
        exact ih (fun x hx => h x (List.mem_cons_of_mem c hx)) _
  exact hfold 0

theorem decimalValue_toDigits (n : ℕ) : decimalValue (Nat.toDigits 10 n) = n := by
  have hdigits : ∀ c ∈ Nat.toDigits 10 n, c.isDigit = true :=
    fun _ hc => Nat.isDigit_of_mem_toDigits (by decide) (by decide) hc
  rw [decimalValue_eq hdigits, Nat.ofDigitChars_ten_toDigits]

theorem digitChar_of_isDigit {c : Char} (h : c.isDigit = true) :
    c.toNat - 0x30 < 10 ∧ Nat.digitChar (c.toNat - 0x30) = c := by
  obtain ⟨hle, hlt⟩ := isDigit_iff.mp h
  refine ⟨by omega, Char.toNat_inj.mp ?_⟩
  rw [Nat.toNat_digitChar_of_lt_ten (by omega)]
  omega

/-- After a first digit that is no zero, each digit read is one digit printed. -/
theorem toDigits_ofDigitChars {digits : List Char} (h : ∀ c ∈ digits, c.isDigit = true) {n : ℕ}
    (hn : 0 < n) : Nat.toDigits 10 (Nat.ofDigitChars 10 digits n) = Nat.toDigits 10 n ++ digits := by
  induction digits generalizing n with
  | nil => simp
  | cons c digits ih =>
      obtain ⟨hlt, hchar⟩ := digitChar_of_isDigit (h c (by simp))
      have hstep := Nat.toDigits_append_toDigits (by decide : 1 < 10) hn hlt
      rw [Nat.toDigits_of_lt_base hlt, hchar] at hstep
      rw [Nat.ofDigitChars_cons, ih (fun x hx => h x (List.mem_cons_of_mem c hx)) (by omega)]
      change Nat.toDigits 10 (10 * n + (c.toNat - 0x30)) ++ digits = _
      rw [← hstep, List.append_assoc, List.singleton_append]

theorem canonical_toDigits (n : ℕ) : Canonical (Nat.toDigits 10 n) := by
  refine ⟨fun _ hc => Nat.isDigit_of_mem_toDigits (by decide) (by decide) hc, ?_⟩
  induction n using Nat.base_induction 10 (by decide) with
  | single m hm =>
      rw [Nat.toDigits_of_lt_base hm]
      rintro hhead
      simpa using hhead
  | digit m k hk hm ih =>
      rw [← Nat.toDigits_append_toDigits (by decide) hm hk]
      intro hhead
      rw [List.head?_append, List.head?_eq_some_head Nat.toDigits_ne_nil, Option.some_or,
        ← List.head?_eq_some_head Nat.toDigits_ne_nil] at hhead
      -- a number in front of a last digit is not zero, so it does not begin with one
      have hzero : m = 0 := by
        rw [← decimalValue_toDigits m, ih hhead]
        decide
      omega

/-- Of the spellings of a number exactly the printed one is canonical. -/
theorem toDigits_decimalValue {digits : List Char} (hne : digits ≠ []) (h : Canonical digits) :
    Nat.toDigits 10 (decimalValue digits) = digits := by
  rw [decimalValue_eq h.1]
  cases digits with
  | nil => exact absurd rfl hne
  | cons c digits =>
      obtain ⟨hlt, hchar⟩ := digitChar_of_isDigit (h.1 c (by simp))
      by_cases hc : c = '0'
      · rw [h.2 (by rw [hc]; rfl)]
        rfl
      · have hpos : 0 < c.toNat - 0x30 := by
          apply Nat.pos_of_ne_zero
          intro hzero
          rw [hzero] at hchar
          exact hc hchar.symm
        rw [Nat.ofDigitChars_cons]
        change Nat.toDigits 10 (Nat.ofDigitChars 10 digits (10 * 0 + (c.toNat - 0x30))) = _
        rw [Nat.mul_zero, Nat.zero_add,
          toDigits_ofDigitChars (fun x hx => h.1 x (List.mem_cons_of_mem c hx)) hpos,
          Nat.toDigits_of_lt_base hlt, hchar, List.singleton_append]

theorem eq_toDigits_iff {digits : List Char} (hne : digits ≠ []) (n : ℕ) :
    digits = Nat.toDigits 10 n ↔ Canonical digits ∧ decimalValue digits = n := by
  constructor
  · rintro rfl
    exact ⟨canonical_toDigits n, decimalValue_toDigits n⟩
  · rintro ⟨hcanonical, rfl⟩
    exact (toDigits_decimalValue hne hcanonical).symm

theorem strOfInt_ofNat (n : ℕ) :
    strOfInt n =
      if n < 10 ^ intMaxStrDigits then .ok (String.ofList (Nat.toDigits 10 n))
      else .error .valueError := by
  have hlength : (Nat.toDigits 10 (n : ℤ).natAbs).length ≤ intMaxStrDigits ↔
      n < 10 ^ intMaxStrDigits :=
    Nat.length_toDigits_le_iff (by decide) (by decide)
  have htext : toString (n : ℤ) = String.ofList (Nat.toDigits 10 n) :=
    Nat.toString_eq_ofList_toDigits
  simp only [strOfInt, hlength, htext]

theorem toList_toString (n : ℤ) :
    (toString n).toList =
      if 0 ≤ n then Nat.toDigits 10 n.natAbs else '-' :: Nat.toDigits 10 n.natAbs := by
  rw [Int.toString_eq_repr, Int.repr_eq_if]
  split
  · next h => rw [Nat.toList_repr, show n.toNat = n.natAbs by omega]
  · next h =>
      rw [String.toList_append, Nat.toList_repr, show (-n).toNat = n.natAbs by omega]
      rfl

/-- `int(str(n))`, as far as `int` reads. -/
theorem intOfString_toString (n : ℤ) :
    intOfString (toString n) =
      if (Nat.toDigits 10 n.natAbs).length ≤ intMaxStrDigits then .ok n else .error .valueError := by
  have hdecimal : ∀ c ∈ Nat.toDigits 10 n.natAbs, isDecimal c = true := fun c hc =>
    isDecimal_of_isDigit (Nat.isDigit_of_mem_toDigits (by decide) (by decide) hc)
  have htext := toList_toString n
  by_cases hn : 0 ≤ n
  · rw [if_pos hn] at htext
    rw [intOfString_of_isDecimal (htext ▸ Nat.toDigits_ne_nil) (htext ▸ hdecimal), htext,
      decimalValue_toDigits, Int.natAbs_of_nonneg hn]
  · rw [if_neg hn] at htext
    have hstrip : stripBy isNumberSpace ('-' :: Nat.toDigits 10 n.natAbs) =
        '-' :: Nat.toDigits 10 n.natAbs := by
      refine stripBy_of_no_space fun c hc => ?_
      rcases List.mem_cons.mp hc with rfl | hc
      · decide
      · exact isNumberSpace_of_isDecimal (hdecimal c hc)
    have hparsed := natOfDigits_of_isDecimal Nat.toDigits_ne_nil hdecimal
    rw [decimalValue_toDigits] at hparsed
    simp only [intOfString, htext, hstrip, hparsed]
    split
    · exact congrArg Except.ok (show -(n.natAbs : ℤ) = n by omega)
    · rfl

theorem lt_strLimit {n : ℕ} (h : n < 10) : n < 10 ^ intMaxStrDigits :=
  Nat.lt_of_lt_of_le h (Nat.le_self_pow (by decide) 10)

end Python
