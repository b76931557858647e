import NetixBackend.Http.Retry
import Mathlib.Data.Nat.Find
import Mathlib.Data.List.Range

/-!
What the two retry loops do on a script of outcomes.

The last attempt of a run is decided by the script alone: it is the first
whose outcome is not retried, or which exhausts the budget (`lastAttempt`).
Up to there the loop makes one round for each attempt, a send, the release of
the response if there is one, and a sleep (`round`), and it ends in that
attempt's outcome. `retryLoop_of_stops` and `retryLoop_of_not_stops` say what
one turn of the loop does; the specification follows by induction on the
number of attempts left.

The loops meet the specification exactly when every delay before the last
attempt is one that can be slept. A delay that cannot is not far to seek:
`float()` reads "nan", Python's `min` and `max` let a NaN in first position
through, and `time.sleep` and `asyncio.sleep` raise on it.
-/

namespace NetixBackend.Http

open Python

namespace RetryPolicy

variable (policy : RetryPolicy) (surroundings : Surroundings) (method : String)

/-- The outcomes that are tried again, budget permitting. -/
def retryable : SendOutcome → Bool
  | .response response => policy.shouldRetry method response
  | .retryableExc _ => true
  | .otherExc _ => false

/-- The attempt is the last one, if the run gets to it. -/
def Stops (send : ℕ → SendOutcome) (attempt : ℕ) : Prop :=
  policy.retryable method (send attempt) = false ∨ policy.retries ≤ attempt

instance (send : ℕ → SendOutcome) : DecidablePred (policy.Stops method send) := fun _ =>
  inferInstanceAs (Decidable (_ ∨ _))

theorem exists_stops (send : ℕ → SendOutcome) : ∃ attempt, policy.Stops method send attempt :=
  ⟨policy.retries.toNat, .inr (Int.self_le_toNat _)⟩

/-- The least index whose outcome is not retryable or which is not below
`retries`. -/
def lastAttempt (send : ℕ → SendOutcome) : ℕ := Nat.find (policy.exists_stops method send)

def delayAfter (attempt : ℕ) : SendOutcome → Option Number
  | .response response => policy.statusDelay surroundings response attempt
  | .retryableExc _ | .otherExc _ =>
      jitteredBackoff policy.backoffFactor attempt (surroundings.draw attempt)

/-- A response that is not returned is closed. -/
def releases (attempt : ℕ) : SendOutcome → List Event
  | .response _ => [.closed attempt]
  | .retryableExc _ | .otherExc _ => []

/-- The end of a run in an outcome: the response itself, or the exception
itself. -/
def endingOf (attempt : ℕ) : SendOutcome → Ending
  | .response response => .returned attempt response
  | .retryableExc name | .otherExc name => .raised attempt name

def round (send : ℕ → SendOutcome) (attempt : ℕ) : List Event :=
  .sent attempt :: releases attempt (send attempt) ++
    ((policy.delayAfter surroundings attempt (send attempt)).map .slept).toList

variable {policy surroundings method} {sleeps : Number → Bool} {send : ℕ → SendOutcome}
  {attempt : ℕ}

/-! ### One turn of the loop -/

theorem retryLoop_of_stops (h : policy.Stops method send attempt) :
    retryLoop policy surroundings method sleeps send attempt =
      ⟨[.sent attempt], endingOf attempt (send attempt)⟩ := by
  rw [retryLoop]
  cases hsend : send attempt with
  | otherExc name => rfl
  | retryableExc name =>
      have hbudget : policy.retries ≤ attempt := by
        rcases h with hnot | hbudget
        · simp [hsend, retryable] at hnot
        · exact hbudget
      simp only [dif_pos hbudget]
      rfl
  | response response =>
      rcases h with hnot | hbudget
      · rw [hsend] at hnot
        simp only [if_pos (show policy.shouldRetry method response = false from hnot)]
        rfl
      · simp only [dif_pos hbudget, ite_self]
        rfl

theorem retryLoop_of_not_stops (h : ¬ policy.Stops method send attempt) :
    retryLoop policy surroundings method sleeps send attempt =
      match policy.delayAfter surroundings attempt (send attempt) with
      | none => ⟨[.sent attempt], .delayFailed attempt⟩
      | some delay =>
          if sleeps delay then
            (retryLoop policy surroundings method sleeps send (attempt + 1)).after
              (.sent attempt :: releases attempt (send attempt) ++ [.slept delay])
          else ⟨.sent attempt :: releases attempt (send attempt), .sleepFailed attempt delay⟩ := by
  obtain ⟨hretryable, hbudget⟩ := not_or.mp h
  rw [retryLoop]
  cases hsend : send attempt with
  | otherExc name => simp [hsend, retryable] at hretryable
  | retryableExc name => simp only [dif_neg hbudget]; rfl
  | response response =>
      rw [hsend] at hretryable
      simp only [if_neg (show ¬ policy.shouldRetry method response = false from hretryable),
        dif_neg hbudget]
      rfl

/-! ### The last attempt -/

theorem stops_lastAttempt : policy.Stops method send (policy.lastAttempt method send) :=
  Nat.find_spec (policy.exists_stops method send)

theorem not_stops_of_lt (h : attempt < policy.lastAttempt method send) :
    ¬ policy.Stops method send attempt := Nat.find_min (policy.exists_stops method send) h

theorem lastAttempt_le (h : policy.Stops method send attempt) :
    policy.lastAttempt method send ≤ attempt := Nat.find_min' (policy.exists_stops method send) h

def DelayOk (policy : RetryPolicy) (surroundings : Surroundings) (sleeps : Number → Bool)
    (send : ℕ → SendOutcome) (attempt : ℕ) : Prop :=
  ∃ delay, policy.delayAfter surroundings attempt (send attempt) = some delay ∧
    sleeps delay = true

theorem retryLoop_of_delayOk (h : ¬ policy.Stops method send attempt)
    (hdelay : DelayOk policy surroundings sleeps send attempt) :
    retryLoop policy surroundings method sleeps send attempt =
      (retryLoop policy surroundings method sleeps send (attempt + 1)).after
        (policy.round surroundings send attempt) := by
  obtain ⟨delay, hsome, hsleeps⟩ := hdelay
  rw [retryLoop_of_not_stops h, hsome]
  simp only [hsleeps, if_true, round, hsome]
  rfl

/-- A delay that cannot be slept ends the run in neither a response nor the
exception of an attempt. -/
theorem ending_of_not_delayOk (h : ¬ policy.Stops method send attempt)
    (hdelay : ¬ DelayOk policy surroundings sleeps send attempt) (k : ℕ) (outcome : SendOutcome) :
    (retryLoop policy surroundings method sleeps send attempt).ending ≠ endingOf k outcome := by
  rw [retryLoop_of_not_stops h]
  cases hsome : policy.delayAfter surroundings attempt (send attempt) with
  | none => cases outcome <;> exact fun hending => nomatch hending
  | some delay =>
      have hsleeps : ¬ sleeps delay = true := fun hsleeps => hdelay ⟨delay, hsome, hsleeps⟩
      simp only [if_neg hsleeps]
      cases outcome <;> exact fun hending => nomatch hending

/-! ### Whole runs -/

/-- The trace of the rounds before the last attempt, and the last send. -/
theorem retryLoop_eq {n : ℕ} (hlast : policy.lastAttempt method send = attempt + n)
    (hdelays : ∀ i, attempt ≤ i → i < attempt + n → DelayOk policy surroundings sleeps send i) :
    retryLoop policy surroundings method sleeps send attempt =
      ⟨(List.range' attempt n).flatMap (policy.round surroundings send) ++ [.sent (attempt + n)],
        endingOf (attempt + n) (send (attempt + n))⟩ := by
  induction n generalizing attempt with
  | zero =>
      have hstops : policy.Stops method send attempt :=
        (show policy.lastAttempt method send = attempt from hlast) ▸ stops_lastAttempt
      exact retryLoop_of_stops hstops
  | succ n ih =>
      have hnext : attempt + (n + 1) = attempt + 1 + n := by omega
      have hlt : attempt < policy.lastAttempt method send := by omega
      rw [retryLoop_of_delayOk (not_stops_of_lt hlt) (hdelays attempt le_rfl (by omega)),
        ih (hnext ▸ hlast) fun i hi hin => hdelays i (by omega) (by omega), hnext,
        List.range'_succ, List.flatMap_cons, List.append_assoc]
      rfl

/-- A run that ends in the last attempt's outcome slept every delay. -/
theorem delayOk_of_ending {n : ℕ} (hlast : policy.lastAttempt method send = attempt + n)
    {k : ℕ} {outcome : SendOutcome}
    (hending : (retryLoop policy surroundings method sleeps send attempt).ending =
      endingOf k outcome) :
    ∀ i, attempt ≤ i → i < attempt + n → DelayOk policy surroundings sleeps send i := by
  induction n generalizing attempt with
  | zero => intro i hi hin; omega
  | succ n ih =>
      have hnot : ¬ policy.Stops method send attempt := not_stops_of_lt (by omega)
      have hdelay : DelayOk policy surroundings sleeps send attempt := by
        by_contra hdelay
        exact ending_of_not_delayOk hnot hdelay k outcome hending
      rw [retryLoop_of_delayOk hnot hdelay] at hending
      intro i hi hin
      obtain rfl | hlt := Nat.eq_or_lt_of_le hi
      · exact hdelay
      · exact ih (by omega) hending i hlt (by omega)

theorem not_sent_mem_releases {i j : ℕ} (outcome : SendOutcome) :
    .sent j ∉ releases i outcome := by
  cases outcome <;> simp [releases]

/-- The first turn of a run sends once, and only a slept delay leads to more. -/
theorem sent_mem_retryLoop {j : ℕ} (h : ¬ policy.Stops method send attempt)
    (hj : .sent j ∈ (retryLoop policy surroundings method sleeps send attempt).trace) :
    j = attempt ∨
      .sent j ∈ (retryLoop policy surroundings method sleeps send (attempt + 1)).trace := by
  rw [retryLoop_of_not_stops h] at hj
  have hreleases := not_sent_mem_releases (i := attempt) (j := j) (send attempt)
  split at hj
  · exact .inl (by simpa using hj)
  · split at hj
    · simpa [Run.after, hreleases] using hj
    · exact .inl (by simpa [hreleases] using hj)

/-- No run sends beyond the last attempt, whatever becomes of its delays. -/
theorem sent_le_lastAttempt {n : ℕ} (hlast : policy.lastAttempt method send = attempt + n)
    {j : ℕ}
    (hj : .sent j ∈ (retryLoop policy surroundings method sleeps send attempt).trace) :
    j ≤ policy.lastAttempt method send := by
  induction n generalizing attempt with
  | zero =>
      have hstops : policy.Stops method send attempt :=
        (show policy.lastAttempt method send = attempt from hlast) ▸ stops_lastAttempt
      rw [retryLoop_of_stops hstops] at hj
      have hj : j = attempt := by simpa using hj
      omega
  | succ n ih =>
      rcases sent_mem_retryLoop (not_stops_of_lt (by omega)) hj with rfl | hrest
      · omega
      · exact ih (by omega) hrest

/-! ### The specification -/

/-- What a run is to be: the rounds of the attempts before the last, the last
send, and its outcome. With no idempotent method and no opt-in, nothing is sent
after a response; with no budget, nothing is sent twice. -/
structure Conforms (policy : RetryPolicy) (surroundings : Surroundings) (method : String)
    (send : ℕ → SendOutcome) (run : Run) : Prop where
  trace : run.trace = (List.range (policy.lastAttempt method send)).flatMap
    (policy.round surroundings send) ++ [.sent (policy.lastAttempt method send)]
  ending : run.ending =
    endingOf (policy.lastAttempt method send) (send (policy.lastAttempt method send))
  notResent : isIdempotentMethod method = false → policy.retryNonIdempotent = false →
    ∀ i response, send i = .response response → ∀ j, .sent j ∈ run.trace → j ≤ i
  single : policy.retries ≤ 0 → run.trace = [.sent 0]

theorem stops_of_response (hmethod : isIdempotentMethod method = false)
    (hoptIn : policy.retryNonIdempotent = false) {i : ℕ} {response : Response}
    (hsend : send i = .response response) : policy.Stops method send i := by
  refine .inl ?_
  rw [hsend]
  simp [retryable, shouldRetry, shouldRetryStatus, hmethod, hoptIn]

/-- A loop conforms exactly when each delay before the last attempt can be
slept. -/
theorem conforms_retryLoop_iff :
    Conforms policy surroundings method send
        (retryLoop policy surroundings method sleeps send 0) ↔
      ∀ i < policy.lastAttempt method send, DelayOk policy surroundings sleeps send i := by
  have hlast : policy.lastAttempt method send = 0 + policy.lastAttempt method send := by omega
  constructor
  · intro h i hi
    exact delayOk_of_ending hlast h.ending i (Nat.zero_le i) (by omega)
  · intro hdelays
    have hall : ∀ i, 0 ≤ i → i < 0 + policy.lastAttempt method send →
        DelayOk policy surroundings sleeps send i := fun i _ hi => hdelays i (by omega)
    have hrun := retryLoop_eq hlast hall
    rw [← hlast, ← List.range_eq_range'] at hrun
    refine ⟨by rw [hrun], by rw [hrun], ?_, ?_⟩
    · intro hmethod hoptIn i response hsend j hj
      exact (sent_le_lastAttempt hlast hj).trans
        (lastAttempt_le (stops_of_response hmethod hoptIn hsend))
    · intro hretries
      have hzero : policy.Stops method send 0 := .inr (by simpa using hretries)
      rw [retryLoop_of_stops hzero]

/-- What `time.sleep` takes, `asyncio.sleep` takes. -/
theorem asyncioSleeps_of_timeSleeps {delay : Number} (h : timeSleeps delay = true) :
    asyncioSleeps delay = true := by
  cases delay with
  | finite q => rfl
  | _ => exact nomatch h

/-- Both loops meet the specification exactly when `time.sleep` takes every
delay before the last attempt. -/
theorem loops_conform_iff (policy : RetryPolicy) (surroundings : Surroundings) (method : String)
    (send : ℕ → SendOutcome) :
    (Conforms policy surroundings method send
          (policy.sendWithRetries surroundings method send) ∧
        Conforms policy surroundings method send
          (policy.asendWithRetries surroundings method send)) ↔
      ∀ i < policy.lastAttempt method send, DelayOk policy surroundings timeSleeps send i := by
  rw [sendWithRetries, asendWithRetries, conforms_retryLoop_iff, conforms_retryLoop_iff]
  refine ⟨fun h => h.1, fun h => ⟨h, fun i hi => ?_⟩⟩
  obtain ⟨delay, hsome, hsleeps⟩ := h i hi
  exact ⟨delay, hsome, asyncioSleeps_of_timeSleeps hsleeps⟩

/-! ### A Retry-After of "nan" -/

/-- The shared defaults: two retries, half a second. -/
def defaultPolicy : RetryPolicy := { retries := 2, backoffFactor := .finite (1 / 2) }

def quietSurroundings : Surroundings where
  draw _ := 0
  now _ := 0
  dateTimestamp _ := none

/-- Unavailable with a Retry-After of "nan", then fine. -/
def nanThenOk : ℕ → SendOutcome
  | 0 => .response { statusCode := 503, retryAfter := some "nan" }
  | _ => .response { statusCode := 200 }

/-- The response to return is that of attempt 1; instead the sleep after
attempt 0 raises, in both loops. -/
theorem nan_delay_raises :
    (defaultPolicy.sendWithRetries quietSurroundings "GET" nanThenOk).ending =
        .sleepFailed 0 .nan ∧
      (defaultPolicy.asendWithRetries quietSurroundings "GET" nanThenOk).ending =
        .sleepFailed 0 .nan ∧
      ¬ Conforms defaultPolicy quietSurroundings "GET" nanThenOk
        (defaultPolicy.sendWithRetries quietSurroundings "GET" nanThenOk) := by
  have hnot : ¬ defaultPolicy.Stops "GET" nanThenOk 0 := by decide
  have hsync : (defaultPolicy.sendWithRetries quietSurroundings "GET" nanThenOk).ending =
      .sleepFailed 0 .nan := by
    rw [sendWithRetries, retryLoop_of_not_stops hnot]
    rfl
  refine ⟨hsync, ?_, fun h => ?_⟩
  · rw [asendWithRetries, retryLoop_of_not_stops hnot]
    rfl
  · have hending := hsync.symm.trans h.ending
    cases hsend : nanThenOk (defaultPolicy.lastAttempt "GET" nanThenOk) <;>
      exact nomatch hsend ▸ hending

end RetryPolicy

end NetixBackend.Http
