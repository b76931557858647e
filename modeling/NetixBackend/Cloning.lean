import NetixBackend.Python.Decimal

/-!
Org-prefixed machine keys. A key is read by a regular expression and written by
an f-string, and the two meet in the parts of a key: reading what the parts
write gives the parts back, whatever the base holds.

`int` and the f-string refuse more than 4300 digits, so an organization whose
id is longer has no key.
-/

namespace NetixBackend.Cloning

open Python

def orgKeyPrefix : String := "nc"

/-- The groups of a match of `^nc(?P<org>\d+)_(?P<base>.*)$`. -/
@[ext]
structure OrgKeyMatch where
  org : String
  base : String
  org_ne_nil : org.toList ≠ []
  org_decimal : ∀ c ∈ org.toList, isDecimal c = true

namespace OrgKeyMatch

/-- The text matched. -/
def text (m : OrgKeyMatch) : String :=
  orgKeyPrefix ++ m.org ++ "_" ++ m.base

/-- The match of the key that is written for an organization. -/
def printed (org : ℕ) (base : String) : OrgKeyMatch where
  org := String.ofList (Nat.toDigits 10 org)
  base := base
  org_ne_nil := by simp
  org_decimal := by
    intro c hc
    rw [String.toList_ofList] at hc
    exact isDecimal_of_isDigit (Nat.isDigit_of_mem_toDigits (by decide) (by decide) hc)

end OrgKeyMatch

/-- `_ORG_KEY_RE.match(name)`. No digit is an underscore, so the greedy `\d+`
never gives one back, and with DOTALL the base is all that follows, newlines
included. -/
def orgKeyRe (name : String) : Option OrgKeyMatch :=
  let rest := name.toList.drop orgKeyPrefix.toList.length
  match rest.dropWhile isDecimal with
  | '_' :: base =>
      if h : orgKeyPrefix.toList <+: name.toList ∧ rest.takeWhile isDecimal ≠ [] then
        some
          { org := String.ofList (rest.takeWhile isDecimal)
            base := String.ofList base
            org_ne_nil := by simpa using h.2
            org_decimal := by
              intro c hc
              rw [String.toList_ofList] at hc
              exact List.all_eq_true.mp List.all_takeWhile c hc }
      else none
  | _ => none

def orgPrefix (orgId : ℤ) : Except IntError String := do
  let org ← strOfInt orgId
  pure (orgKeyPrefix ++ org ++ "_")

def baseKey (name : Option String) : String :=
  match orgKeyRe (name.getD "") with
  | some m => m.base
  | none => name.getD ""

def orgKey (name : Option String) (orgId : ℤ) : Except IntError String := do
  let owner ← orgPrefix orgId
  pure (owner ++ baseKey name)

def keyOwner (name : Option String) : Except IntError (Option ℤ) :=
  match orgKeyRe (name.getD "") with
  | some m => (intOfString m.org).map some
  | none => .ok none

def isOrgKey (name : Option String) (orgId : ℤ) : Except IntError Bool :=
  (keyOwner name).map (· == some orgId)

/-! What is written is read back. -/

/-- The digits end at the underscore. -/
theorem span_decimal {digits : List Char} (h : ∀ c ∈ digits, isDecimal c = true)
    (base : List Char) :
    (digits ++ '_' :: base).takeWhile isDecimal = digits ∧
      (digits ++ '_' :: base).dropWhile isDecimal = '_' :: base := by
  have hunderscore : isDecimal '_' = false := by decide
  rw [List.takeWhile_append_of_pos h, List.dropWhile_append_of_pos h]
  simp [hunderscore]

theorem OrgKeyMatch.toList_text (m : OrgKeyMatch) :
    m.text.toList = orgKeyPrefix.toList ++ (m.org.toList ++ '_' :: m.base.toList) := by
  simp [OrgKeyMatch.text]

@[simp] theorem orgKeyRe_text (m : OrgKeyMatch) : orgKeyRe m.text = some m := by
  obtain ⟨htake, hdrop⟩ := span_decimal m.org_decimal m.base.toList
  have hrest : m.text.toList.drop orgKeyPrefix.toList.length =
      m.org.toList ++ '_' :: m.base.toList := by
    rw [m.toList_text, List.drop_left]
  have hprefix : orgKeyPrefix.toList <+: m.text.toList := ⟨_, m.toList_text.symm⟩
  simp only [orgKeyRe, hrest, hdrop, htake, hprefix, m.org_ne_nil, ne_eq, not_false_eq_true,
    and_self, dite_true, String.ofList_toList]

theorem text_of_orgKeyRe {name : String} {m : OrgKeyMatch} (h : orgKeyRe name = some m) :
    m.text = name := by
  unfold orgKeyRe at h
  simp only at h
  split at h
  · next base hbase =>
      split at h
      · next hmatch =>
          obtain ⟨rfl⟩ := h
          apply String.toList_injective
          have hrest := List.takeWhile_append_dropWhile
            (p := isDecimal) (l := name.toList.drop orgKeyPrefix.toList.length)
          have hname := List.prefix_iff_eq_append.mp hmatch.1
          rw [OrgKeyMatch.toList_text, String.toList_ofList, String.toList_ofList, ← hbase,
            hrest, hname]
      · exact absurd h (Option.some_ne_none m).symm
  · exact absurd h (Option.some_ne_none m).symm

/-- The regular expression matches exactly the texts of its matches. -/
theorem orgKeyRe_eq_some_iff (name : String) (m : OrgKeyMatch) :
    orgKeyRe name = some m ↔ m.text = name := by
  constructor
  · exact text_of_orgKeyRe
  · rintro rfl
    exact orgKeyRe_text m

theorem OrgKeyMatch.text_injective {m m' : OrgKeyMatch} (h : m.text = m'.text) : m = m' := by
  apply Option.some.inj
  rw [← orgKeyRe_text m, ← orgKeyRe_text m', h]

@[simp] theorem baseKey_text (m : OrgKeyMatch) : baseKey m.text = m.base := by
  simp [baseKey]

theorem keyOwner_text (m : OrgKeyMatch) :
    keyOwner m.text =
      if m.org.toList.length ≤ intMaxStrDigits then .ok (some (decimalValue m.org.toList : ℤ))
      else .error .valueError := by
  simp only [keyOwner, Option.getD_some, orgKeyRe_text,
    intOfString_of_isDecimal m.org_ne_nil m.org_decimal]
  split <;> rfl

theorem keyOwner_eq_none_iff (name : String) :
    keyOwner name = .ok none ↔ orgKeyRe name = none := by
  cases hmatch : orgKeyRe name with
  | none => simp [keyOwner, hmatch]
  | some m =>
      rw [← text_of_orgKeyRe hmatch, keyOwner_text]
      split <;> simp

theorem baseKey_of_unowned {name : String} (h : keyOwner name = .ok none) : baseKey name = name := by
  simp [baseKey, (keyOwner_eq_none_iff name).mp h]

theorem orgKey_eq (name : Option String) (org : ℕ) :
    orgKey name org =
      if org < 10 ^ intMaxStrDigits then .ok (OrgKeyMatch.printed org (baseKey name)).text
      else .error .valueError := by
  simp only [orgKey, orgPrefix, strOfInt_ofNat]
  split <;> rfl

theorem keyOwner_printed {org : ℕ} (h : org < 10 ^ intMaxStrDigits) (base : String) :
    keyOwner (OrgKeyMatch.printed org base).text = .ok (some (org : ℤ)) := by
  have hlength : (Nat.toDigits 10 org).length ≤ intMaxStrDigits :=
    (Nat.length_toDigits_le_iff (by decide) (by decide)).mpr h
  simp [keyOwner_text, OrgKeyMatch.printed, hlength, decimalValue_toDigits]

theorem printed_inj {org org' : ℕ} {base base' : String} :
    (OrgKeyMatch.printed org base).text = (OrgKeyMatch.printed org' base').text ↔
      org = org' ∧ base = base' := by
  constructor
  · intro h
    have hmatch := OrgKeyMatch.text_injective h
    have horg : Nat.toDigits 10 org = Nat.toDigits 10 org' :=
      String.ofList_injective (congrArg OrgKeyMatch.org hmatch)
    refine ⟨?_, congrArg OrgKeyMatch.base hmatch⟩
    rw [← decimalValue_toDigits org, horg, decimalValue_toDigits]
  · rintro ⟨rfl, rfl⟩
    rfl

/-- The keys of organizations whose id Python can print. -/
theorem org_key_algebra (n m : String) {o p : ℕ} (ho : o < 10 ^ intMaxStrDigits)
    (hp : p < 10 ^ intMaxStrDigits) :
    ∃ key key' : String, orgKey n o = .ok key ∧ orgKey m p = .ok key' ∧
      keyOwner key = .ok (some (o : ℤ)) ∧
      baseKey key = baseKey n ∧
      orgKey key p = orgKey n p ∧
      (keyOwner n = .ok none → baseKey key = n) ∧
      (key = key' ↔ o = p ∧ baseKey n = baseKey m) := by
  have hkey : orgKey n o = .ok (OrgKeyMatch.printed o (baseKey n)).text := by
    rw [orgKey_eq, if_pos ho]
  have hkey' : orgKey m p = .ok (OrgKeyMatch.printed p (baseKey m)).text := by
    rw [orgKey_eq, if_pos hp]
  have hbase : baseKey (OrgKeyMatch.printed o (baseKey n)).text = baseKey n := baseKey_text _
  refine ⟨_, _, hkey, hkey', keyOwner_printed ho _, hbase, ?_, ?_, printed_inj⟩
  · rw [orgKey_eq, orgKey_eq, hbase]
  · intro hunowned
    rw [hbase, baseKey_of_unowned hunowned]

theorem org_key_algebra_clone :
    ∃ key key' : String, orgKey "nc3_fire
alarm" (5 : ℕ) = .ok key ∧
      orgKey "fire
alarm" (7 : ℕ) = .ok key' ∧
      keyOwner key = .ok (some ((5 : ℕ) : ℤ)) ∧
      baseKey key = baseKey "nc3_fire
alarm" ∧
      orgKey key (7 : ℕ) = orgKey "nc3_fire
alarm" (7 : ℕ) ∧
      (keyOwner "nc3_fire
alarm" = .ok none → baseKey key = "nc3_fire
alarm") ∧
      (key = key' ↔ 5 = 7 ∧ baseKey "nc3_fire
alarm" = baseKey "fire
alarm") :=
  org_key_algebra "nc3_fire
alarm" "fire
alarm" (lt_strLimit (by decide)) (lt_strLimit (by decide))

theorem org_key_unprintable :
    orgKey "fire_alarm" ((10 ^ intMaxStrDigits : ℕ) : ℤ) = .error .valueError ∧
      ¬ ∃ key : String, orgKey "fire_alarm" ((10 ^ intMaxStrDigits : ℕ) : ℤ) = .ok key ∧
        keyOwner key = .ok (some ((10 ^ intMaxStrDigits : ℕ) : ℤ)) := by
  have hraises : orgKey "fire_alarm" ((10 ^ intMaxStrDigits : ℕ) : ℤ) = .error .valueError := by
    rw [orgKey_eq, if_neg (Nat.lt_irrefl _)]
  refine ⟨hraises, ?_⟩
  rintro ⟨key, hkey, -⟩
  rw [hraises] at hkey
  cases hkey

/-! `is_org_key` compares numbers, `org_key` writes one spelling. -/

/-- A prefix of the organization, if the name has one, is spelled as it is
printed: in ASCII digits without a zero in front. -/
def SpelledAsPrinted (name : String) (org : ℕ) : Prop :=
  ∀ m, orgKeyRe name = some m → m.org.toList.length ≤ intMaxStrDigits →
    decimalValue m.org.toList = org → Canonical m.org.toList

theorem isOrgKey_eq_true_iff (name : String) (org : ℕ) :
    isOrgKey name org = .ok true ↔
      ∃ m, orgKeyRe name = some m ∧ m.org.toList.length ≤ intMaxStrDigits ∧
        decimalValue m.org.toList = org := by
  cases hmatch : orgKeyRe name with
  | none => simp [isOrgKey, keyOwner, hmatch, Except.map]
  | some m =>
      rw [← text_of_orgKeyRe hmatch, isOrgKey, keyOwner_text]
      split
      · next hlength => simp [Except.map, hlength]
      · next hlength => simp [Except.map, hlength]

theorem orgKey_eq_self_iff (name : String) (org : ℕ) :
    orgKey name org = .ok name ↔
      ∃ m, orgKeyRe name = some m ∧ m.org.toList.length ≤ intMaxStrDigits ∧
        decimalValue m.org.toList = org ∧ Canonical m.org.toList := by
  constructor
  · intro h
    rw [orgKey_eq] at h
    split at h
    · next horg =>
        have hmatch := (orgKeyRe_eq_some_iff name _).mpr (Except.ok.inj h)
        refine ⟨_, hmatch, ?_⟩
        simp only [OrgKeyMatch.printed, String.toList_ofList]
        exact ⟨(Nat.length_toDigits_le_iff (by decide) (by decide)).mpr horg,
          decimalValue_toDigits org, canonical_toDigits org⟩
    · cases h
  · rintro ⟨m, hmatch, hlength, hvalue, hcanonical⟩
    have hdigits := (eq_toDigits_iff m.org_ne_nil org).mpr ⟨hcanonical, hvalue⟩
    obtain rfl := text_of_orgKeyRe hmatch
    have hprinted : OrgKeyMatch.printed org m.base = m := by
      ext1
      · change String.ofList (Nat.toDigits 10 org) = m.org
        rw [← hdigits, String.ofList_toList]
      · rfl
    have horg : org < 10 ^ intMaxStrDigits := by
      rw [hdigits] at hlength
      exact (Nat.length_toDigits_le_iff (by decide) (by decide)).mp hlength
    rw [orgKey_eq, if_pos horg, baseKey_text, hprinted]

theorem is_org_key_iff (n : String) (o : ℕ) :
    (isOrgKey n o = .ok true ↔ orgKey n o = .ok n) ↔ SpelledAsPrinted n o := by
  rw [isOrgKey_eq_true_iff, orgKey_eq_self_iff]
  constructor
  · intro hiff m hmatch hlength hvalue
    obtain ⟨m', hmatch', -, -, hcanonical⟩ := hiff.mp ⟨m, hmatch, hlength, hvalue⟩
    obtain rfl := Option.some.inj (hmatch.symm.trans hmatch')
    exact hcanonical
  · intro hspelled
    constructor
    · rintro ⟨m, hmatch, hlength, hvalue⟩
      exact ⟨m, hmatch, hlength, hvalue, hspelled m hmatch hlength hvalue⟩
    · rintro ⟨m, hmatch, hlength, hvalue, -⟩
      exact ⟨m, hmatch, hlength, hvalue⟩

theorem is_org_key_leading_zero :
    isOrgKey "nc03_x" 3 = .ok true ∧ orgKey "nc03_x" 3 = .ok "nc3_x" ∧
      ¬ (isOrgKey "nc03_x" 3 = .ok true ↔ orgKey "nc03_x" 3 = .ok "nc03_x") := by
  have hrecognised : isOrgKey "nc03_x" 3 = .ok true := by decide
  have hwritten : orgKey "nc03_x" 3 = .ok "nc3_x" := by decide
  refine ⟨hrecognised, hwritten, ?_⟩
  rw [hrecognised, hwritten]
  decide

end NetixBackend.Cloning
