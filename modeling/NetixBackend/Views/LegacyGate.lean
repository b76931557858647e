import NetixBackend.Python.Decimal
import NetixBackend.Views.Identity

/-!
The legacy ownership gate beside the write pin.

The pin asks `int()` what organization a claim means and takes any truthy flag
for a superuser; the gate, which keeps the semantics of an older library,
compares texts. Where they disagree the gate is the stricter one: it holds a
caller back whom the pin leaves free, never the other way round.

An integer of more than 4300 digits, whose `str()` raises, is not considered:
no JSON decoder of Python returns one.
-/

namespace NetixBackend.Views

open Python

def safeMethods : List String := ["GET", "HEAD", "OPTIONS"]

/-- `str(value).lower() == "true"`. -/
def lowerIsTrue : JsonValue → Bool
  | .bool b => b
  | .str s => s.toList.map Char.toLower = "true".toList
  | _ => false

/-- The part of `_legacy_object_org_permission` that does not look at the object:
`str(caller) == "0" or str(envoy.get("is_superuser")).lower() == "true"`. -/
def legacyUnrestricted (envoy : List (String × JsonValue)) : Bool :=
  ((envoy.lookup "organization").getD .null).sameTextAsInt 0 ||
    lowerIsTrue ((envoy.lookup "is_superuser").getD .null)

/-- `_legacy_object_org_permission`, for an object by its `organization_id`. -/
def legacyObjectOrgPermission (method : String) (request : Request) (owner : Option ℤ) :
    Except Raised Bool :=
  if method ∈ safeMethods then .ok true
  else if !request.envoy.truthy then .ok true
  else
    match request.envoy with
    | .obj envoy =>
        if legacyUnrestricted envoy then .ok true
        else
          match owner with
          | none => .ok true
          | some owner => .ok (((envoy.lookup "organization").getD .null).sameTextAsInt owner)
    | _ => .error .attributeError

/-- Pin and gate mean the same by a caller: both leave it free, or both keep it
to one organization. -/
structure Agree (method : String) (request : Request) (tenant : Option ℤ) : Prop where
  free : tenant = none ↔ ∀ owner, legacyObjectOrgPermission method request owner = .ok true
  kept : ∀ t, tenant = some t → ∀ owner, legacyObjectOrgPermission method request owner = .ok true ↔
    owner = none ∨ owner = some t

/-- The claims say what they mean in the one spelling that both sides read: the
flag is true or the text "true", or there is none that makes a superuser and
the organization is an integer or the text of one, or it is the platform's. -/
def PlainClaims (request : Request) (envoy : List (String × JsonValue)) : Prop :=
  lowerIsTrue ((envoy.lookup "is_superuser").getD .null) = true ∨
    (isSuperuser request = false ∧
      ∃ n, ((envoy.lookup "organization").getD .null).sameTextAsInt n = true) ∨
    ((envoy.lookup "organization").getD .null).sameTextAsInt 0 = true

/-! ### Texts and integers -/

theorem eq_of_sameTextAsInt {caller : JsonValue} {n t : ℤ} (htext : caller.sameTextAsInt n = true)
    (hint : caller.toInt = .ok t) : t = n := by
  cases caller with
  | int m =>
      obtain rfl : m = n := by simpa [JsonValue.sameTextAsInt] using htext
      exact (Except.ok.inj hint).symm
  | str s =>
      obtain rfl : s = toString n := by simpa [JsonValue.sameTextAsInt] using htext
      have hread := (intOfString_toString n).symm.trans hint
      split at hread
      · exact (Except.ok.inj hread).symm
      · cases hread
  | _ => cases htext

/-- One text is not that of two integers. -/
theorem sameTextAsInt_two {caller : JsonValue} (hone : caller.sameTextAsInt 1 = true) :
    caller.sameTextAsInt 2 = false := by
  cases caller with
  | int k =>
      obtain rfl : k = 1 := by simpa [JsonValue.sameTextAsInt] using hone
      rfl
  | str s =>
      obtain rfl : s = toString (1 : ℤ) := by simpa [JsonValue.sameTextAsInt] using hone
      decide
  | _ => rfl

theorem not_isUnresolved_of_sameTextAsInt {caller : JsonValue} {n : ℤ}
    (h : caller.sameTextAsInt n = true) : isUnresolved caller = false := by
  cases caller with
  | str s =>
      obtain rfl : s = toString n := by simpa [JsonValue.sameTextAsInt] using h
      have hhead : ∀ c ∈ (toString n).toList.head?, c = '-' ∨ c.isDigit = true := by
        intro c hc
        have htext := toList_toString n
        split at htext
        · exact .inr (Nat.isDigit_of_mem_toDigits (by decide) (by decide)
            (htext ▸ List.mem_of_mem_head? hc))
        · rw [htext] at hc
          exact .inl (Option.some.inj hc).symm
      have hne : (toString n).toList ≠ [] := by
        rw [toList_toString]
        split <;> simp [Nat.toDigits_ne_nil]
      rw [isUnresolved, decide_eq_false_iff_not]
      rintro (hempty | hbogus)
      · exact hne (hempty ▸ rfl)
      · have hb := hhead 'b' (by rw [hbogus]; rfl)
        exact absurd hb (by decide)
  | null => cases h
  | _ => rfl

/-! ### The flag -/

theorem toLower_of_isSpace {c : Char} (h : isSpace c = true) : c.toLower = c := by
  refine dif_neg fun hupper => ?_
  have hlow : 65 ≤ c.toNat := hupper.1
  have hhigh : c.toNat ≤ 90 := hupper.2
  simp only [isSpace, decide_eq_true_eq] at h
  omega

theorem isTrueText_of_lower {s : String} (h : s.toList.map Char.toLower = "true".toList) :
    isTrueText s = true := by
  have hletters : ∀ c ∈ "true".toList, isSpace c = false := by
    intro c hc
    have hc : c = 't' ∨ c = 'r' ∨ c = 'u' ∨ c = 'e' := by simpa using hc
    rcases hc with rfl | rfl | rfl | rfl <;> rfl
  have hspace : ∀ c ∈ s.toList, isSpace c = false := by
    intro c hc
    by_contra hnot
    have hnot : isSpace c = true := by simpa using hnot
    have hmem : c.toLower ∈ "true".toList := h ▸ List.mem_map_of_mem hc
    rw [toLower_of_isSpace hnot] at hmem
    exact Bool.false_ne_true ((hletters c hmem).symm.trans hnot)
  rw [isTrueText, strip, stripBy_of_no_space hspace, decide_eq_true h]

/-- What the gate takes for a superuser the pin does too. -/
theorem isSuperuser_of_lowerIsTrue {request : Request} {envoy : List (String × JsonValue)}
    (henvoy : request.envoy = .obj envoy)
    (h : lowerIsTrue ((envoy.lookup "is_superuser").getD .null) = true) :
    isSuperuser request = true := by
  cases hflag : envoy.lookup "is_superuser" with
  | none =>
      rw [hflag] at h
      cases h
  | some flag =>
      rw [hflag, Option.getD_some] at h
      cases flag with
      | bool b =>
          simp only [isSuperuser, henvoy, hflag]
          exact h
      | str s =>
          simp only [isSuperuser, henvoy, hflag]
          exact isTrueText_of_lower (of_decide_eq_true h)
      | _ => cases h

/-! ### The pin -/

/-- An integer claim and its text reach `int()`, and zero is the platform. -/
theorem eq_of_tenantOrganizationId {request : Request} {envoy : List (String × JsonValue)}
    {tenant : Option ℤ} {n : ℤ} (henvoy : request.envoy = .obj envoy)
    (hsuper : isSuperuser request = false) (hpin : tenantOrganizationId request = .ok tenant)
    (htext : ((envoy.lookup "organization").getD .null).sameTextAsInt n = true) :
    tenant = if n = 0 then none else some n := by
  simp only [tenantOrganizationId, henvoy, hsuper, not_isUnresolved_of_sameTextAsInt htext,
    Bool.false_eq_true, if_false] at hpin
  split at hpin
  · next t hint =>
      obtain rfl := eq_of_sameTextAsInt htext hint
      exact (Except.ok.inj hpin).symm
  · cases hpin
  · cases hpin

theorem isSuperuser_of_some {request : Request} {t : ℤ}
    (hpin : tenantOrganizationId request = .ok (some t)) : isSuperuser request = false := by
  rw [tenantOrganizationId] at hpin
  split at hpin
  · split at hpin
    · cases hpin
    · next hnot => exact Bool.eq_false_iff.mpr hnot
  · cases hpin

/-- A caller held to `t` names no other integer. -/
theorem eq_of_some {request : Request} {envoy : List (String × JsonValue)} {t n : ℤ}
    (henvoy : request.envoy = .obj envoy) (hpin : tenantOrganizationId request = .ok (some t))
    (htext : ((envoy.lookup "organization").getD .null).sameTextAsInt n = true) :
    n ≠ 0 ∧ n = t := by
  have heq := eq_of_tenantOrganizationId henvoy (isSuperuser_of_some hpin) hpin htext
  split at heq
  · cases heq
  · next hn => exact ⟨hn, (Option.some.inj heq).symm⟩

/-! ### The gate -/

variable {method : String} {request : Request} {envoy : List (String × JsonValue)} {tenant : Option ℤ}

theorem legacyObjectOrgPermission_eq (hmethod : method ∉ safeMethods)
    (henvoy : request.envoy = .obj envoy) (hne : envoy ≠ []) (owner : Option ℤ) :
    legacyObjectOrgPermission method request owner = .ok (legacyUnrestricted envoy ||
      owner.all fun owner => ((envoy.lookup "organization").getD .null).sameTextAsInt owner) := by
  have htruthy : (JsonValue.obj envoy).truthy = true := by
    simpa [JsonValue.truthy] using hne
  simp only [legacyObjectOrgPermission, if_neg hmethod, henvoy, htruthy, Bool.not_true,
    if_neg Bool.false_ne_true]
  cases legacyUnrestricted envoy with
  | true => rfl
  | false => cases owner <;> rfl

theorem allows_all_iff (hmethod : method ∉ safeMethods) (henvoy : request.envoy = .obj envoy)
    (hne : envoy ≠ []) :
    (∀ owner, legacyObjectOrgPermission method request owner = .ok true) ↔
      legacyUnrestricted envoy = true := by
  simp only [legacyObjectOrgPermission_eq hmethod henvoy hne, Except.ok.injEq, Bool.or_eq_true]
  constructor
  · intro h
    by_contra hnot
    have hone := (h (some 1)).resolve_left hnot
    have htwo := (h (some 2)).resolve_left hnot
    rw [Option.all_some] at hone htwo
    rw [sameTextAsInt_two hone] at htwo
    exact Bool.false_ne_true htwo
  · exact fun h owner => .inl h

/-- Whom the gate leaves free, the pin does too. -/
theorem not_legacyUnrestricted_of_some {t : ℤ} (henvoy : request.envoy = .obj envoy)
    (hpin : tenantOrganizationId request = .ok (some t)) : legacyUnrestricted envoy = false := by
  rw [legacyUnrestricted, Bool.or_eq_false_iff]
  constructor
  · refine Bool.eq_false_iff.mpr fun hzero => ?_
    exact (eq_of_some henvoy hpin hzero).1 rfl
  · refine Bool.eq_false_iff.mpr fun hflag => ?_
    have hsuper := isSuperuser_of_lowerIsTrue henvoy hflag
    rw [isSuperuser_of_some hpin] at hsuper
    cases hsuper

/-- What the gate opens to a caller held to `t`. -/
theorem allows_some_iff {t : ℤ} (hmethod : method ∉ safeMethods) (henvoy : request.envoy = .obj envoy)
    (hne : envoy ≠ []) (hpin : tenantOrganizationId request = .ok (some t)) (owner : Option ℤ) :
    legacyObjectOrgPermission method request owner = .ok true ↔
      owner = none ∨
        owner = some t ∧ ((envoy.lookup "organization").getD .null).sameTextAsInt t = true := by
  rw [legacyObjectOrgPermission_eq hmethod henvoy hne, not_legacyUnrestricted_of_some henvoy hpin,
    Bool.false_or, Except.ok.injEq]
  cases owner with
  | none => simp
  | some owner =>
      rw [Option.all_some]
      constructor
      · intro htext
        obtain ⟨-, rfl⟩ := eq_of_some henvoy hpin htext
        exact .inr ⟨rfl, htext⟩
      · rintro (hnone | ⟨howner, htext⟩)
        · cases hnone
        · exact Option.some.inj howner ▸ htext

/-- For a caller the pin holds to `t`, the claims are plain when they spell `t`. -/
theorem plainClaims_iff_of_some {t : ℤ} (henvoy : request.envoy = .obj envoy)
    (hpin : tenantOrganizationId request = .ok (some t)) :
    PlainClaims request envoy ↔
      ((envoy.lookup "organization").getD .null).sameTextAsInt t = true := by
  have hunrestricted := not_legacyUnrestricted_of_some henvoy hpin
  rw [legacyUnrestricted, Bool.or_eq_false_iff] at hunrestricted
  simp only [PlainClaims, hunrestricted.1, hunrestricted.2, isSuperuser_of_some hpin,
    Bool.false_eq_true, false_or, or_false, true_and]
  constructor
  · rintro ⟨n, htext⟩
    exact (eq_of_some henvoy hpin htext).2 ▸ htext
  · exact fun htext => ⟨t, htext⟩

/-- For a caller the pin leaves free, the claims are plain when the gate leaves it free too. -/
theorem plainClaims_iff_of_none (henvoy : request.envoy = .obj envoy)
    (hpin : tenantOrganizationId request = .ok none) :
    PlainClaims request envoy ↔ legacyUnrestricted envoy = true := by
  rw [legacyUnrestricted, Bool.or_eq_true]
  constructor
  · rintro (hflag | ⟨hsuper, n, htext⟩ | hzero)
    · exact .inr hflag
    · have heq := eq_of_tenantOrganizationId henvoy hsuper hpin htext
      split at heq
      · next hn => exact .inl (hn ▸ htext)
      · cases heq
    · exact .inl hzero
  · rintro (hzero | hflag)
    · exact .inr (.inr hzero)
    · exact .inl hflag

/-- Pin and gate agree exactly on plainly spelled claims, and where they do not
the gate is the stricter: it leaves free only whom the pin leaves free, and
opens to a caller held to `t` nothing but unowned objects and those of `t`. -/
theorem agree_iff_plainClaims (hmethod : method ∉ safeMethods) (henvoy : request.envoy = .obj envoy)
    (hne : envoy ≠ []) (hpin : tenantOrganizationId request = .ok tenant) :
    (Agree method request tenant ↔ PlainClaims request envoy) ∧
    ((∀ owner, legacyObjectOrgPermission method request owner = .ok true) → tenant = none) ∧
    ∀ t owner, tenant = some t → legacyObjectOrgPermission method request owner = .ok true →
      owner = none ∨ owner = some t := by
  have hfree := allows_all_iff hmethod henvoy hne
  cases tenant with
  | none =>
      rw [plainClaims_iff_of_none henvoy hpin, ← hfree]
      refine ⟨⟨fun hagree => hagree.free.mp rfl, fun hall => ⟨?_, ?_⟩⟩, fun _ => rfl, ?_⟩
      · exact ⟨fun _ => hall, fun _ => rfl⟩
      · exact fun t ht => absurd ht (Option.some_ne_none t).symm
      · exact fun t owner ht => absurd ht (Option.some_ne_none t).symm
  | some t =>
      have hallows := allows_some_iff hmethod henvoy hne hpin
      have hnotAll : ¬ ∀ owner, legacyObjectOrgPermission method request owner = .ok true := by
        rw [hfree, not_legacyUnrestricted_of_some henvoy hpin]
        exact Bool.false_ne_true
      rw [plainClaims_iff_of_some henvoy hpin]
      refine ⟨⟨fun hagree => ?_, fun htext => ⟨?_, ?_⟩⟩, fun hall => absurd hall hnotAll, ?_⟩
      · have hopen := (hallows (some t)).mp ((hagree.kept t rfl (some t)).mpr (.inr rfl))
        exact (hopen.resolve_left (Option.some_ne_none t)).2
      · exact ⟨fun hnone => absurd hnone (Option.some_ne_none t), fun hall => absurd hall hnotAll⟩
      · intro t' ht owner
        obtain rfl := Option.some.inj ht
        simp only [hallows owner, htext, and_true]
      · intro t' owner ht hopen
        obtain rfl := Option.some.inj ht
        exact ((hallows owner).mp hopen).imp_right And.left

/-- A caller of organization 5, by the text of the number. -/
theorem agree_textClaim :
    Agree "PATCH" { envoy := .obj [("organization", .str "5")] } (some 5) := by
  let claims : List (String × JsonValue) := [("organization", .str "5")]
  have henvoy : Request.envoy { envoy := .obj claims } = .obj claims := rfl
  refine (agree_iff_plainClaims (by decide) henvoy (by simp [claims]) rfl).1.mpr ?_
  exact .inr (.inl ⟨rfl, 5, by decide⟩)

/-- A flag of 1 makes a superuser for the pin, and the gate asks for the text "true". -/
theorem not_agree_numericFlag :
    ¬ ∀ method (request : Request) envoy tenant, method ∉ safeMethods →
      request.envoy = .obj envoy → envoy ≠ [] → tenantOrganizationId request = .ok tenant →
      Agree method request tenant := by
  intro h
  let claims : List (String × JsonValue) := [("organization", .int 5), ("is_superuser", .int 1)]
  have hagree := h "PATCH" { envoy := .obj claims } claims none (by decide) rfl (by decide) rfl
  have hclosed : legacyObjectOrgPermission "PATCH" { envoy := .obj claims } (some 6) = .ok false :=
    rfl
  have hopen := hagree.free.mp rfl (some 6)
  rw [hclosed] at hopen
  exact Bool.false_ne_true (Except.ok.inj hopen)

end NetixBackend.Views
