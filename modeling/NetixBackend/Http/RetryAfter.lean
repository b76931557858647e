import NetixBackend.Http.RetryLoops

/-!
Which `Retry-After` headers `parse_retry_after_seconds` makes into a delay that
can be slept.

The clamp is `min(max(delay, 0.0), max_retry_after)`. With Python's `min` and
`max` a NaN passes both, and a delay that is too long for the platform's sleep
passes a maximum that is too long as well. These are the only ways through.
-/

namespace NetixBackend.Http

open Python RetryPolicy

/-- `a <= b` -/
def numberLe (a b : Number) : Bool := a.lt b || a.eq b

/-- A number of seconds that `time.sleep` refuses as too long. -/
def tooLong : Number → Bool
  | .finite q => 2 ^ 63 ≤ q * 10 ^ 9
  | .inf => true
  | .negInf | .nan => false

/-- A delay between zero and the maximum that `time.sleep` takes. -/
structure Sleepable (maxRetryAfter delay : Number) : Prop where
  nonneg : numberLe (.finite 0) delay = true
  le_max : numberLe delay maxRetryAfter = true
  sleeps : timeSleeps delay = true

/-- A header that states no NaN and, unless the maximum is short enough for any,
no delay that is too long. -/
def HeaderOk (surroundings : Surroundings) (attempt : ℕ) (response : Response)
    (maxRetryAfter : Number) : Prop :=
  ∀ value, response.retryAfter = some value → value ≠ "" →
    (∀ seconds, floatOfString value = some seconds →
      seconds ≠ .nan ∧ (tooLong maxRetryAfter = true → tooLong seconds = false)) ∧
    (floatOfString value = none → ∀ timestamp, surroundings.dateTimestamp value = some timestamp →
      tooLong maxRetryAfter = true →
        tooLong (.finite (timestamp - surroundings.now attempt)) = false)

theorem tooLong_finite (q : ℚ) : tooLong (.finite q) = true ↔ 2 ^ 63 ≤ q * 10 ^ 9 := by
  simp [tooLong]

theorem tooLong_finite_eq_false (q : ℚ) : tooLong (.finite q) = false ↔ q * 10 ^ 9 < 2 ^ 63 := by
  simp [tooLong]

theorem numberLe_finite (a b : ℚ) : numberLe (.finite a) (.finite b) = true ↔ a ≤ b := by
  simp [numberLe, Number.eq, le_iff_lt_or_eq]

theorem sleepable_finite_iff {maxRetryAfter : Number} (q : ℚ) :
    Sleepable maxRetryAfter (.finite q) ↔
      0 ≤ q ∧ numberLe (.finite q) maxRetryAfter = true ∧ q * 10 ^ 9 < 2 ^ 63 := by
  constructor
  · intro h
    have hsleeps := h.sleeps
    simp only [timeSleeps, decide_eq_true_eq] at hsleeps
    exact ⟨hsleeps.1, h.le_max, hsleeps.2⟩
  · rintro ⟨hnonneg, hle, hshort⟩
    exact ⟨(numberLe_finite 0 q).mpr hnonneg, hle, by simpa [timeSleeps] using ⟨hnonneg, hshort⟩⟩

/-! ### The clamp, by what kind of number the delay and the maximum are -/

theorem max_finite_zero (q : ℚ) : (Number.finite q).max (.finite 0) = .finite (max q 0) := by
  by_cases h : q < 0
  · simp [Number.max, h, max_eq_right h.le]
  · simp [Number.max, h, max_eq_left (not_lt.mp h)]

theorem min_finite (a b : ℚ) : (Number.finite a).min (.finite b) = .finite (min a b) := by
  by_cases h : b < a
  · simp [Number.min, h, min_eq_right h.le]
  · simp [Number.min, h, min_eq_left (not_lt.mp h)]

theorem clampDelay_finite (q maximum : ℚ) :
    clampDelay (.finite q) (.finite maximum) = .finite (min (max q 0) maximum) := by
  rw [clampDelay, max_finite_zero, min_finite]

/-- Raising a delay to zero makes none too long. -/
theorem short_max_zero (q : ℚ) : max q 0 * 10 ^ 9 < 2 ^ 63 ↔ q * 10 ^ 9 < 2 ^ 63 := by
  rw [max_mul_of_nonneg _ _ (by norm_num), max_lt_iff, zero_mul]
  exact and_iff_left (by norm_num)

/-- The smaller of two is short if one of them is. -/
theorem short_min (a b : ℚ) :
    min a b * 10 ^ 9 < 2 ^ 63 ↔ a * 10 ^ 9 < 2 ^ 63 ∨ b * 10 ^ 9 < 2 ^ 63 := by
  rw [min_mul_of_nonneg _ _ (by norm_num), min_lt_iff]

theorem sleepable_clampDelay_finite {maximum : ℚ} (hmax : 0 ≤ maximum) (delay : Number) :
    Sleepable (.finite maximum) (clampDelay delay (.finite maximum)) ↔
      delay ≠ .nan ∧ (tooLong (.finite maximum) = true → tooLong delay = false) := by
  cases delay with
  | finite q =>
      rw [clampDelay_finite, sleepable_finite_iff, numberLe_finite, short_min, short_max_zero,
        tooLong_finite, tooLong_finite_eq_false]
      have hmin := min_le_right (max q 0) maximum
      have hnonneg : 0 ≤ min (max q 0) maximum := le_min (le_max_right q 0) hmax
      constructor
      · rintro ⟨-, -, hshort | hshort⟩
        · exact ⟨Number.noConfusion, fun _ => hshort⟩
        · exact ⟨Number.noConfusion, fun hlong => absurd hlong (not_le.mpr hshort)⟩
      · rintro ⟨-, hshort⟩
        refine ⟨hnonneg, hmin, ?_⟩
        by_cases hlong : 2 ^ 63 ≤ maximum * 10 ^ 9
        · exact .inl (hshort hlong)
        · exact .inr (not_le.mp hlong)
  | inf =>
      have hclamp : clampDelay .inf (.finite maximum) = .finite maximum := rfl
      rw [hclamp, sleepable_finite_iff, numberLe_finite]
      simp [hmax, tooLong]
  | negInf =>
      have hclamp : clampDelay .negInf (.finite maximum) = .finite 0 := by
        change (Number.finite 0).min (.finite maximum) = _
        rw [min_finite, min_eq_left hmax]
      rw [hclamp, sleepable_finite_iff, numberLe_finite]
      simp [hmax, tooLong]
  | nan =>
      have hclamp : clampDelay .nan (.finite maximum) = .nan := rfl
      rw [hclamp]
      refine iff_of_false (fun h => ?_) (fun h => h.1 rfl)
      exact absurd h.nonneg (by decide)

theorem sleepable_clampDelay_inf (delay : Number) :
    Sleepable .inf (clampDelay delay .inf) ↔
      delay ≠ .nan ∧ (tooLong .inf = true → tooLong delay = false) := by
  cases delay with
  | finite q =>
      have hclamp : clampDelay (.finite q) .inf = .finite (max q 0) := by
        rw [clampDelay, max_finite_zero]
        rfl
      have hle : numberLe (.finite (max q 0)) .inf = true := rfl
      rw [hclamp, sleepable_finite_iff, short_max_zero, tooLong_finite_eq_false]
      constructor
      · rintro ⟨-, -, hshort⟩
        exact ⟨Number.noConfusion, fun _ => hshort⟩
      · rintro ⟨-, hshort⟩
        exact ⟨le_max_right q 0, hle, hshort rfl⟩
  | inf =>
      refine iff_of_false (fun h => ?_) (fun h => ?_)
      · exact absurd h.sleeps (by decide)
      · exact absurd (h.2 rfl) (by decide)
  | negInf =>
      have hclamp : clampDelay .negInf .inf = .finite 0 := rfl
      have hle : numberLe (.finite 0) .inf = true := rfl
      rw [hclamp, sleepable_finite_iff]
      simp [hle, tooLong]
  | nan =>
      refine iff_of_false (fun h => ?_) (fun h => h.1 rfl)
      exact absurd h.nonneg (by decide)

/-- Clamping leaves a delay that can be slept unless it is NaN, or it and the
maximum are both too long. -/
theorem sleepable_clampDelay_iff {maxRetryAfter : Number}
    (hmax : numberLe (.finite 0) maxRetryAfter = true) (delay : Number) :
    Sleepable maxRetryAfter (clampDelay delay maxRetryAfter) ↔
      delay ≠ .nan ∧ (tooLong maxRetryAfter = true → tooLong delay = false) := by
  cases maxRetryAfter with
  | finite maximum => exact sleepable_clampDelay_finite ((numberLe_finite 0 maximum).mp hmax) delay
  | inf => exact sleepable_clampDelay_inf delay
  | negInf => exact absurd hmax (by decide)
  | nan => exact absurd hmax (by decide)

theorem parsed_retry_after_sleepable_iff (surroundings : Surroundings) (attempt : ℕ)
    (response : Response) {maxRetryAfter : Number}
    (hmax : numberLe (.finite 0) maxRetryAfter = true) :
    (∀ delay, parseRetryAfterSeconds surroundings attempt response maxRetryAfter = some delay →
        Sleepable maxRetryAfter delay) ↔
      HeaderOk surroundings attempt response maxRetryAfter := by
  unfold HeaderOk parseRetryAfterSeconds
  cases hheader : response.retryAfter with
  | none => simp
  | some value =>
      by_cases hempty : value = ""
      · simp [hempty]
      · cases hfloat : floatOfString value with
        | some seconds => simp [hempty, hfloat, sleepable_clampDelay_iff hmax]
        | none =>
            cases hdate : surroundings.dateTimestamp value with
            | none => simp [hempty, hfloat, hdate]
            | some timestamp => simp [hempty, hfloat, hdate, sleepable_clampDelay_iff hmax]

/-- Two minutes, cut down to thirty seconds. -/
theorem parsed_retry_after_thirty :
    parseRetryAfterSeconds quietSurroundings 0
        { statusCode := 503, retryAfter := some "120" } (.finite 30) = some (.finite 30) ∧
      Sleepable (.finite 30) (.finite 30) := by
  have hfloat : floatOfString "120" = some (.finite 120) := by decide
  have hparsed : parseRetryAfterSeconds quietSurroundings 0
      { statusCode := 503, retryAfter := some "120" } (.finite 30) = some (.finite 30) := by decide
  refine ⟨hparsed, (parsed_retry_after_sleepable_iff quietSurroundings 0
    { statusCode := 503, retryAfter := some "120" } (by decide)).mpr ?_ (.finite 30) hparsed⟩
  rintro value hvalue -
  obtain rfl := Option.some.inj hvalue
  refine ⟨fun seconds hseconds => ?_, fun hnone => ?_⟩
  · obtain rfl := Option.some.inj (hfloat.symm.trans hseconds)
    have hshort : tooLong (.finite 30) = false := (tooLong_finite_eq_false 30).mpr (by norm_num)
    exact ⟨Number.noConfusion, fun hlong => absurd (hlong.symm.trans hshort) Bool.noConfusion⟩
  · exact absurd (hfloat.symm.trans hnone) (Option.some_ne_none _)

/-- A header of "nan" is parsed to NaN, which is no delay. -/
theorem nan_header_parsed :
    parseRetryAfterSeconds quietSurroundings 0 { statusCode := 503, retryAfter := some "nan" }
        (.finite 30) = some .nan ∧ ¬ Sleepable (.finite 30) .nan := by
  refine ⟨by decide, fun h => ?_⟩
  exact absurd h.nonneg (by decide)

end NetixBackend.Http
