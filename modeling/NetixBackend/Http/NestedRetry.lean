import NetixBackend.Http.DeadlineAgreement

/-!
A retry loop around a transport that has one of its own.

`request_with_retry` never uses an injected transport bare: it wraps it in the
shared policy. If the transport is itself one of the retry transports, as
those of the generated clients are, every attempt of the outer loop is a whole
run of the inner one, and the budgets multiply. Nothing else happens: with
every delay sleepable, and both loops retrying the same statuses, the two loops
are one loop whose budget is the product (`nested_run`), down to the response
or exception that comes out.
-/

namespace NetixBackend.Http

open Python

namespace RetryPolicy

/-- How often a run sends. -/
def Run.sends (run : Run) : ℕ := run.result.attempts

/-- What `time.sleep` raises on a delay that it does not take. -/
def sleepError : Number → String
  | .finite q => if |q| * 10 ^ 9 < 2 ^ 63 then "ValueError" else "OverflowError"
  | .nan => "ValueError"
  | .inf | .negInf => "OverflowError"

/-- What a run comes to for whoever called `handle_request`: a delay that cannot
be slept or computed raises, too. -/
def Run.outcome (run : Run) (send : ℕ → SendOutcome) : SendOutcome :=
  match run.ending with
  | .returned attempt _ | .raised attempt _ => send attempt
  | .sleepFailed _ delay => .otherExc (sleepError delay)
  | .delayFailed _ => .otherExc "OverflowError"

/-! ### How often a run sends -/

variable {policy : RetryPolicy} {surroundings : Surroundings} {method : String}
  {sleeps : Number → Bool} {send : ℕ → SendOutcome} {attempt : ℕ}

theorem sends_after (events : List Event) (run : Run) :
    (run.after events).sends = events.countP Event.isSent + run.sends :=
  List.countP_append

theorem countP_releases (outcome : SendOutcome) :
    (releases attempt outcome).countP Event.isSent = 0 := by
  cases outcome <;> rfl

theorem sends_of_stops (h : policy.Stops method send attempt) :
    (retryLoop policy surroundings method sleeps send attempt).sends = 1 := by
  rw [retryLoop_of_stops h]
  rfl

/-- However its delays turn out, a run sends once for each attempt up to the
last at most. -/
theorem sends_le {n : ℕ} (hlast : policy.lastAttempt method send = attempt + n) :
    (retryLoop policy surroundings method sleeps send attempt).sends ≤ n + 1 := by
  induction n generalizing attempt with
  | zero =>
      have hstops : policy.Stops method send attempt :=
        (show policy.lastAttempt method send = attempt from hlast) ▸ stops_lastAttempt
      exact (sends_of_stops hstops).le
  | succ n ih =>
      have hnot : ¬ policy.Stops method send attempt := not_stops_of_lt (by omega)
      have hrest := @ih (attempt + 1) (by omega)
      by_cases hdelay : DelayOk policy surroundings sleeps send attempt
      · rw [retryLoop_of_delayOk hnot hdelay, sends_after, countP_round]
        omega
      · rw [retryLoop_of_not_stops hnot]
        cases hsome : policy.delayAfter surroundings attempt (send attempt) with
        | none => exact Nat.le_add_left 1 (n + 1)
        | some delay =>
            have hsleeps : ¬ sleeps delay = true := fun hsleeps => hdelay ⟨delay, hsome, hsleeps⟩
            simp only [if_neg hsleeps]
            change (Event.sent attempt :: releases attempt (send attempt)).countP Event.isSent ≤ _
            rw [List.countP_cons_of_pos (by rfl), countP_releases]
            omega

theorem lastAttempt_le_retries : policy.lastAttempt method send ≤ policy.retries.toNat :=
  lastAttempt_le (.inr (Int.self_le_toNat _))

theorem outcome_endingOf (trace : List Event) :
    Run.outcome ⟨trace, endingOf attempt (send attempt)⟩ send = send attempt := by
  rw [Run.outcome]
  cases hsend : send attempt <;> simp [endingOf, hsend]

/-- A run whose delays can all be slept comes to what its last attempt came to. -/
theorem outcome_sendWithRetries
    (hdelays : ∀ i < policy.lastAttempt method send,
      DelayOk policy surroundings timeSleeps send i) :
    (policy.sendWithRetries surroundings method send).outcome send =
      send (policy.lastAttempt method send) := by
  have hlast : policy.lastAttempt method send = 0 + policy.lastAttempt method send := by omega
  have hrun : policy.retryLoop surroundings method timeSleeps send 0 = _ :=
    retryLoop_eq hlast fun i _ hi => hdelays i (by omega)
  rw [sendWithRetries, hrun, ← hlast, outcome_endingOf]

theorem sends_sendWithRetries
    (hdelays : ∀ i < policy.lastAttempt method send,
      DelayOk policy surroundings timeSleeps send i) :
    (policy.sendWithRetries surroundings method send).sends =
      policy.lastAttempt method send + 1 :=
  congrArg CallResult.attempts (result_sendWithRetries hdelays)

theorem sends_sendWithRetries_le :
    (policy.sendWithRetries surroundings method send).sends ≤ policy.retries.toNat + 1 :=
  (sends_le (Nat.zero_add _).symm).trans (Nat.succ_le_succ lastAttempt_le_retries)

theorem retryable_of_lt (h : attempt < policy.lastAttempt method send) :
    policy.retryable method (send attempt) = true := by
  by_contra hnot
  exact not_stops_of_lt h (.inl (by simpa using hnot))

/-- The last attempt, by its two sides. -/
theorem lastAttempt_eq {n : ℕ} (hstops : policy.Stops method send n)
    (hbefore : ∀ k < n, ¬ policy.Stops method send k) : policy.lastAttempt method send = n := by
  apply Nat.le_antisymm (lastAttempt_le hstops)
  by_contra hlt
  exact hbefore _ (by omega) stops_lastAttempt

/-- A run whose last outcome would be tried again has spent its budget. -/
theorem lastAttempt_of_retryable
    (h : policy.retryable method (send (policy.lastAttempt method send)) = true) :
    policy.lastAttempt method send = policy.retries.toNat := by
  have hstops : policy.Stops method send (policy.lastAttempt method send) := stops_lastAttempt
  have hle : policy.lastAttempt method send ≤ policy.retries.toNat := lastAttempt_le_retries
  rcases hstops with hnot | hspent
  · rw [h] at hnot
    contradiction
  · omega

end RetryPolicy

open RetryPolicy

/-- A call of `request_with_retry` with an injected transport that retries: the
policies of the two loops, what each finds around it, and the outcomes of the
sends that reach the network, in order. -/
structure NestedCall where
  outer : RetryPolicy
  inner : RetryPolicy
  method : String
  outerSurroundings : Surroundings
  /-- Around each call of the inner `handle_request`. -/
  innerSurroundings : ℕ → Surroundings
  network : ℕ → SendOutcome

namespace NestedCall

variable (self : NestedCall)

/-- The network from a position on. -/
def networkFrom (start : ℕ) : ℕ → SendOutcome := fun k => self.network (start + k)

/-- `self.transport.handle_request`, on the network from a position on. -/
def innerRun (call start : ℕ) : Run :=
  self.inner.sendWithRetries (self.innerSurroundings call) self.method (self.networkFrom start)

/-- The position of the network that a call of the inner transport starts at. -/
def start : ℕ → ℕ
  | 0 => 0
  | call + 1 => start call + (self.innerRun call (start call)).sends

/-- What the outer loop sees of a call of the inner transport. -/
def seen (call : ℕ) : SendOutcome :=
  (self.innerRun call (self.start call)).outcome (self.networkFrom (self.start call))

/-- `RetryTransportWrapper.handle_request`. -/
def outerRun : Run :=
  self.outer.sendWithRetries self.outerSurroundings self.method self.seen

/-- How many sends reach the network. -/
def networkSends : ℕ := self.start self.outerRun.sends

/-- The one loop that the two come to. -/
def single : RetryPolicy :=
  { self.outer with
    retries := ((self.outer.retries.toNat + 1) * (self.inner.retries.toNat + 1) - 1 : ℕ) }

/-- Every delay of the call can be slept: before the last attempt of the outer
loop, and of each inner run up to there. -/
structure Sleepable (nested : NestedCall) : Prop where
  outer : ∀ i < nested.outer.lastAttempt nested.method nested.seen,
    DelayOk nested.outer nested.outerSurroundings timeSleeps nested.seen i
  inner : ∀ call ≤ nested.outer.lastAttempt nested.method nested.seen,
    ∀ i < nested.inner.lastAttempt nested.method (nested.networkFrom (nested.start call)),
      DelayOk nested.inner (nested.innerSurroundings call) timeSleeps
        (nested.networkFrom (nested.start call)) i

variable {self}

/-- A position of the network whose outcome both loops would try again. -/
def Retried (self : NestedCall) (position : ℕ) : Prop :=
  self.inner.retryable self.method (self.network position) = true

theorem start_le (call : ℕ) : self.start call ≤ call * (self.inner.retries.toNat + 1) := by
  induction call with
  | zero => exact Nat.zero_le _
  | succ call ih =>
      have hrun : (self.innerRun call (self.start call)).sends ≤ self.inner.retries.toNat + 1 :=
        sends_sendWithRetries_le
      rw [start, Nat.succ_mul]
      exact Nat.add_le_add ih hrun

theorem networkSends_le :
    self.networkSends ≤ (self.outer.retries.toNat + 1) * (self.inner.retries.toNat + 1) :=
  (start_le _).trans (Nat.mul_le_mul_right _ sends_sendWithRetries_le)

/-! ### One call of the inner transport -/

section Sleepable

variable (hsleepable : self.Sleepable)
  (hoptIn : self.outer.retryNonIdempotent = self.inner.retryNonIdempotent) {call : ℕ}

/-- The last position of the network that a call of the inner transport sends at. -/
def last (self : NestedCall) (call : ℕ) : ℕ :=
  self.start call + self.inner.lastAttempt self.method (self.networkFrom (self.start call))

theorem retried_of_lt_last {position : ℕ} (hstart : self.start call ≤ position)
    (hlast : position < self.last call) : self.Retried position := by
  obtain ⟨k, rfl⟩ := Nat.exists_eq_add_of_le hstart
  have hretryable : self.inner.retryable self.method (self.networkFrom (self.start call) k) = true :=
    retryable_of_lt (Nat.lt_of_add_lt_add_left hlast)
  exact hretryable

include hsleepable

theorem seen_eq (hcall : call ≤ self.outer.lastAttempt self.method self.seen) :
    self.seen call = self.network (self.last call) :=
  outcome_sendWithRetries (hsleepable.inner call hcall)

theorem start_succ (hcall : call ≤ self.outer.lastAttempt self.method self.seen) :
    self.start (call + 1) = self.last call + 1 := by
  have hrun := sends_sendWithRetries (hsleepable.inner call hcall)
  rw [start, last, innerRun, hrun]
  rfl

include hoptIn

/-- The two loops try the same outcomes again. -/
theorem retryable_seen (hcall : call ≤ self.outer.lastAttempt self.method self.seen) :
    self.outer.retryable self.method (self.seen call) =
      self.inner.retryable self.method (self.network (self.last call)) := by
  rw [seen_eq hsleepable hcall]
  cases self.network (self.last call) with
  | response response =>
      show shouldRetryStatus _ _ _ = shouldRetryStatus _ _ _
      rw [hoptIn]
  | retryableExc name | otherExc name => rfl

/-- A call that the outer loop does not stop at has spent the inner budget. -/
theorem last_of_lt (hcall : call < self.outer.lastAttempt self.method self.seen) :
    self.Retried (self.last call) ∧
      self.last call = self.start call + self.inner.retries.toNat := by
  have hretried : self.Retried (self.last call) := by
    rw [Retried, ← retryable_seen hsleepable hoptIn hcall.le]
    exact retryable_of_lt hcall
  exact ⟨hretried, congrArg (self.start call + ·) (lastAttempt_of_retryable hretried)⟩

/-- Up to the last call of the outer loop, each inner run is a full one and every
outcome so far was tried again. -/
theorem start_of_le (hcall : call ≤ self.outer.lastAttempt self.method self.seen) :
    self.start call = call * (self.inner.retries.toNat + 1) ∧
      ∀ position < self.start call, self.Retried position := by
  induction call with
  | zero => exact ⟨(Nat.zero_mul _).symm, fun position h => absurd h (Nat.not_lt_zero _)⟩
  | succ call ih =>
      obtain ⟨hstart, hbefore⟩ := ih (by omega)
      obtain ⟨hretried, hlast⟩ := last_of_lt hsleepable hoptIn hcall
      have hsucc := start_succ hsleepable (show call ≤ _ by omega)
      refine ⟨by rw [hsucc, hlast, hstart, Nat.succ_mul]; omega, fun position hposition => ?_⟩
      by_cases hcase : position < self.start call
      · exact hbefore position hcase
      · obtain hlt | rfl : position < self.last call ∨ position = self.last call := by omega
        · exact retried_of_lt_last (by omega) hlt
        · exact hretried

/-! ### The two loops as one -/

/-- The single loop ends where the last inner run does. -/
theorem lastAttempt_single :
    self.single.lastAttempt self.method self.network =
      self.last (self.outer.lastAttempt self.method self.seen) := by
  set m := self.outer.lastAttempt self.method self.seen with hm
  obtain ⟨hstart, hbefore⟩ := start_of_le hsleepable hoptIn hm.le
  have hm_le : m ≤ self.outer.retries.toNat := lastAttempt_le_retries
  have hinner_le : self.inner.lastAttempt self.method (self.networkFrom (self.start m)) ≤
      self.inner.retries.toNat := lastAttempt_le_retries
  have hmul : m * (self.inner.retries.toNat + 1) ≤
      self.outer.retries.toNat * (self.inner.retries.toNat + 1) := Nat.mul_le_mul_right _ hm_le
  have hproduct : (self.outer.retries.toNat + 1) * (self.inner.retries.toNat + 1) =
      self.outer.retries.toNat * (self.inner.retries.toNat + 1) + self.inner.retries.toNat + 1 := by
    rw [Nat.succ_mul, Nat.add_assoc]
  have hsame : ∀ outcome, self.single.retryable self.method outcome =
      self.inner.retryable self.method outcome := by
    intro outcome
    cases outcome with
    | response response =>
        show shouldRetryStatus _ _ self.outer.retryNonIdempotent = shouldRetryStatus _ _ _
        rw [hoptIn]
    | retryableExc name | otherExc name => rfl
  have hlast : self.last m = self.start m +
      self.inner.lastAttempt self.method (self.networkFrom (self.start m)) := rfl
  have hretries : self.single.retries = (((self.outer.retries.toNat + 1) *
      (self.inner.retries.toNat + 1) - 1 : ℕ) : ℤ) := rfl
  apply lastAttempt_eq
  · by_cases hretryable :
        self.inner.retryable self.method (self.network (self.last m)) = true
    · -- neither budget is left
      right
      have hspent : self.inner.lastAttempt self.method (self.networkFrom (self.start m)) =
          self.inner.retries.toNat := lastAttempt_of_retryable hretryable
      have houter : self.outer.lastAttempt self.method self.seen = self.outer.retries.toNat :=
        lastAttempt_of_retryable (by rwa [retryable_seen hsleepable hoptIn le_rfl])
      rw [hretries, hlast, hspent, hstart]
      rw [← hm] at houter
      rw [houter, hproduct]
      omega
    · left
      rw [hsame]
      simpa using hretryable
  · intro k hk hstops
    have hretried : self.Retried k := by
      by_cases hcase : k < self.start m
      · exact hbefore k hcase
      · exact retried_of_lt_last (by omega) hk
    rcases hstops with hnot | hspent
    · rw [hsame, hretried] at hnot
      contradiction
    · rw [hretries] at hspent
      omega

end Sleepable

/-- However the two loops go, the network is asked no more than the product of
their budgets allows; and when every delay can be slept and both loops retry the
same statuses, they are one loop with that budget, in the number of sends and in
the response or exception that comes out. -/
theorem nested_run (self : NestedCall) :
    self.networkSends ≤ (self.outer.retries.toNat + 1) * (self.inner.retries.toNat + 1) ∧
      (self.outer.retryNonIdempotent = self.inner.retryNonIdempotent → self.Sleepable →
        self.networkSends = self.single.lastAttempt self.method self.network + 1 ∧
          self.outerRun.outcome self.seen =
            self.network (self.single.lastAttempt self.method self.network)) := by
  refine ⟨networkSends_le, fun hoptIn hsleepable => ?_⟩
  have hsends := sends_sendWithRetries hsleepable.outer
  have houtcome := outcome_sendWithRetries hsleepable.outer
  rw [lastAttempt_single hsleepable hoptIn]
  constructor
  · rw [networkSends, outerRun, hsends, start_succ hsleepable le_rfl]
  · rw [outerRun, houtcome, seen_eq hsleepable le_rfl]

/-! ### A generated client's transport, injected -/

/-- Unavailable three times, then fine. -/
def fineAtFour (position : ℕ) : SendOutcome :=
  .response { statusCode := if position = 3 then 200 else 503 }

def once : RetryPolicy := { retries := 1, backoffFactor := .finite (1 / 2) }

def injected : NestedCall where
  outer := once
  inner := once
  method := "GET"
  outerSurroundings := quietSurroundings
  innerSurroundings _ := quietSurroundings
  network := fineAtFour

/-- The only delay is the jitter after attempt 0, a quarter of a second. -/
theorem delayOk_once {send : ℕ → SendOutcome} (hsend : ∃ k, send 0 = fineAtFour k) :
    ∀ i < once.lastAttempt "GET" send, DelayOk once quietSurroundings timeSleeps send i := by
  intro i hi
  have hretries := hi.trans_le lastAttempt_le_retries
  obtain rfl : i = 0 := Nat.lt_one_iff.mp hretries
  obtain ⟨k, hsend⟩ := hsend
  refine ⟨.finite (1 / 4), ?_, by decide +kernel⟩
  rw [hsend]
  show some (Number.finite (1 / 2 * 2 ^ 0 / 2 + 0 * (1 / 2 * 2 ^ 0 / 2))) = _
  norm_num

theorem sleepable_injected : injected.Sleepable where
  outer := delayOk_once ⟨injected.last 0, outcome_sendWithRetries (delayOk_once ⟨_, rfl⟩)⟩
  inner call _ := delayOk_once ⟨injected.start call, rfl⟩

/-- Two budgets of one retry make one of three. -/
theorem nested_run_injected :
    injected.networkSends = injected.single.lastAttempt "GET" fineAtFour + 1 ∧
      injected.outerRun.outcome injected.seen =
        fineAtFour (injected.single.lastAttempt "GET" fineAtFour) :=
  (nested_run injected).2 rfl sleepable_injected

end NestedCall

end NetixBackend.Http
