import NetixBackend.Http.Deadline

/-!
The request under a deadline that is never reached, beside the plain one.

As long as no reading of the clock has come to the deadline, a turn of the
loop goes as a turn of the transport's does: `loop_of_stops` and
`loop_of_not_stops` are the two turns, with `Stops` the transport's own
criterion. The runs then make the same attempts, and the difference is in how
they end. The transport ends in the last attempt's outcome. The loop under a
deadline remembers the last response and the last exception and prefers the
response, so a last attempt that raises is answered with an earlier response
when there was one.
-/

namespace NetixBackend.Http

open Python RetryPolicy

/-- The jittered delay after an attempt is one that can be slept. -/
def RetryPolicy.BackoffOk (policy : RetryPolicy) (surroundings : Surroundings) (attempt : ℕ) :
    Prop :=
  ∃ jitter, jitteredBackoff policy.backoffFactor attempt (surroundings.draw attempt) = some jitter ∧
    timeSleeps jitter = true

/-- No reading of the clock has come to `finishBy`. -/
def DeadlineRun.Before (run : DeadlineRun) (finishBy : ℚ) : Prop :=
  ∀ now, .read now ∈ run.trace → now < finishBy

theorem DeadlineRun.Before.of_after {run : DeadlineRun} {events : List DeadlineEvent}
    {finishBy : ℚ} (h : (run.after events).Before finishBy) : run.Before finishBy :=
  fun now hnow => h now (List.mem_append_right _ hnow)

/-- What the loop remembers after an outcome that is tried again. -/
def Kept.note (kept : Kept) (attempt : ℕ) : SendOutcome → Kept
  | .response response => { kept with lastResponse := some (attempt, response) }
  | .retryableExc name | .otherExc name => { kept with lastExc := some (attempt, name) }

/-- How the loop ends in its last attempt. -/
def Kept.endingWith (kept : Kept) (attempt : ℕ) : SendOutcome → CallEnding
  | .retryableExc name => (kept.note attempt (.retryableExc name)).ending
  | outcome => .attempt (endingOf attempt outcome)

namespace DeadlineCall

variable {call : DeadlineCall} {clock : Clock} {surroundings : Surroundings}
  {send : ℕ → SendOutcome} {kept : Kept} {attempt : ℕ} {now : ℚ}

/-! ### One turn of the loop -/

/-- The limits of an attempt that starts at `now`. -/
def limitsAt (call : DeadlineCall) (now : ℚ) : PhaseLimits :=
  attemptTimeout call.timeout (call.finishBy - now)

theorem receive_of_retryable
    (h : call.policy.retryable call.method (send attempt) = true) :
    call.receive kept attempt (send attempt) = .inr (kept.note attempt (send attempt)) := by
  cases hsend : send attempt with
  | otherExc name => simp [hsend, retryable] at h
  | retryableExc name => rfl
  | response response =>
      rw [hsend] at h
      rw [receive, if_pos (show call.policy.shouldRetry call.method response = true from h)]
      rfl

theorem loop_of_stops (hbudget : (attempt : ℤ) ≤ call.policy.retries)
    (hnow : now < call.finishBy) (h : call.policy.Stops call.method send attempt) :
    call.loop clock surroundings send kept attempt now =
      ⟨[.read now, .sent attempt now (call.limitsAt now)], kept.endingWith attempt (send attempt),
        clock.attempted attempt now (call.limitsAt now)⟩ := by
  rw [loop, if_neg (by omega), if_neg (by linarith)]
  cases hsend : send attempt with
  | otherExc name => rfl
  | retryableExc name =>
      have hlast : call.policy.retries ≤ attempt := by
        rcases h with hnot | hlast
        · simp [hsend, retryable] at hnot
        · exact hlast
      simp only [receive, dif_pos hlast]
      rfl
  | response response =>
      cases hretry : call.policy.shouldRetry call.method response with
      | false =>
          simp only [receive, hretry, if_neg Bool.false_ne_true]
          rfl
      | true =>
          have hlast : call.policy.retries ≤ attempt := by
            rcases h with hnot | hlast
            · rw [hsend] at hnot
              exact absurd (hretry.symm.trans hnot) Bool.noConfusion
            · exact hlast
          simp only [receive, hretry, if_true, dif_pos hlast]
          rfl

theorem loop_of_not_stops (hnow : now < call.finishBy)
    (h : ¬ call.policy.Stops call.method send attempt) :
    let now' := clock.attempted attempt now (call.limitsAt now)
    let events := [.read now, .sent attempt now (call.limitsAt now), .read now']
    call.loop clock surroundings send kept attempt now =
      if call.finishBy ≤ now' then ⟨events, (kept.note attempt (send attempt)).ending, now'⟩
      else match jitteredBackoff call.policy.backoffFactor attempt (surroundings.draw attempt) with
        | none => ⟨events, .attempt (.delayFailed attempt), now'⟩
        | some jitter =>
            match sleepSeconds (jitter.min (.finite (call.finishBy - now'))) with
            | none =>
                ⟨events, .attempt (.sleepFailed attempt
                  (jitter.min (.finite (call.finishBy - now')))), now'⟩
            | some delay =>
                (call.loop clock surroundings send (kept.note attempt (send attempt)) (attempt + 1)
                  (clock.slept attempt now' delay)).after (events ++ [.slept now' delay]) := by
  intro now' events
  obtain ⟨hretryable, hbudget⟩ := not_or.mp h
  rw [loop, if_neg (by omega), if_neg (by linarith),
    receive_of_retryable (by simpa using hretryable)]
  simp only [dif_neg hbudget, sub_nonpos]
  rfl

theorem loop_of_slept (hnow : now < call.finishBy)
    (h : ¬ call.policy.Stops call.method send attempt)
    (hnow' : clock.attempted attempt now (call.limitsAt now) < call.finishBy) {jitter : Number}
    (hjitter : jitteredBackoff call.policy.backoffFactor attempt (surroundings.draw attempt) =
      some jitter) {delay : ℚ}
    (hsleep : sleepSeconds (jitter.min (.finite
      (call.finishBy - clock.attempted attempt now (call.limitsAt now)))) = some delay) :
    call.loop clock surroundings send kept attempt now =
      (call.loop clock surroundings send (kept.note attempt (send attempt)) (attempt + 1)
        (clock.slept attempt (clock.attempted attempt now (call.limitsAt now)) delay)).after
          [.read now, .sent attempt now (call.limitsAt now),
            .read (clock.attempted attempt now (call.limitsAt now)),
            .slept (clock.attempted attempt now (call.limitsAt now)) delay] := by
  rw [loop_of_not_stops hnow h, if_neg (not_le.mpr hnow'), hjitter]
  dsimp only
  rw [hsleep]
  rfl

/-! ### Delays -/

theorem sleepSeconds_eq_some {delay : Number} {q : ℚ} (h : sleepSeconds delay = some q) :
    delay = .finite q ∧ timeSleeps delay = true := by
  cases delay with
  | finite q' =>
      obtain ⟨hsleeps, hq⟩ := Option.ite_none_right_eq_some.mp h
      exact ⟨congrArg Number.finite (Option.some.inj hq), hsleeps⟩
  | _ => exact nomatch h

/-- Cutting a delay down to a budget leaves one that can be slept. -/
theorem exists_sleepSeconds_min {jitter : Number} {budget : ℚ} (h : timeSleeps jitter = true)
    (hbudget : 0 < budget) : ∃ q, sleepSeconds (jitter.min (.finite budget)) = some q := by
  cases jitter with
  | finite q =>
      simp only [timeSleeps, decide_eq_true_eq] at h
      by_cases hlt : budget < q
      · have hshort : timeSleeps (.finite budget) = true := by
          simp only [timeSleeps, decide_eq_true_eq]
          exact ⟨hbudget.le, by linarith⟩
        refine ⟨budget, ?_⟩
        rw [Number.min, Number.lt_finite, decide_eq_true hlt, if_pos rfl, sleepSeconds,
          if_pos hshort]
      · refine ⟨q, ?_⟩
        rw [Number.min, Number.lt_finite, decide_eq_false hlt, if_neg Bool.false_ne_true,
          sleepSeconds, if_pos (by simpa [timeSleeps] using h)]
  | _ => exact Bool.noConfusion h

/-- A delay that was not cut down can be slept as it is. -/
theorem timeSleeps_of_min {jitter : Number} {budget q : ℚ}
    (h : sleepSeconds (jitter.min (.finite budget)) = some q) (hlt : q < budget) :
    timeSleeps jitter = true := by
  obtain ⟨hmin, hsleeps⟩ := sleepSeconds_eq_some h
  rw [Number.min] at hmin hsleeps
  split at hmin
  · exact absurd (Number.finite.inj hmin) (by linarith)
  · rename_i hnot
    rwa [if_neg hnot] at hsleeps

/-! ### Whole runs -/

theorem lastAttempt_le_retries (hretries : 0 ≤ call.policy.retries) :
    (call.policy.lastAttempt call.method send : ℤ) ≤ call.policy.retries := by
  have hstops : call.policy.Stops call.method send call.policy.retries.toNat :=
    .inr (Int.self_le_toNat _)
  have hle := lastAttempt_le hstops
  omega

theorem now_lt_of_before (hbudget : (attempt : ℤ) ≤ call.policy.retries)
    (h : (call.loop clock surroundings send kept attempt now).Before call.finishBy) :
    now < call.finishBy := by
  by_contra hnot
  have hread : .read now ∈ (call.loop clock surroundings send kept attempt now).trace := by
    rw [loop, if_neg (by omega), if_pos (by linarith)]
    exact List.mem_singleton_self _
  exact hnot (h now hread)

/-- A turn that is not the last, when the clock stays before the deadline: the
delay can be slept and the loop goes on, or it cannot and the function raises. -/
theorem turn_of_before (hbudget : (attempt : ℤ) < call.policy.retries)
    (h : ¬ call.policy.Stops call.method send attempt)
    (hbefore : (call.loop clock surroundings send kept attempt now).Before call.finishBy) :
    (¬ call.policy.BackoffOk surroundings attempt ∧
      ∀ k outcome, (call.loop clock surroundings send kept attempt now).ending ≠
        .attempt (endingOf k outcome)) ∨
    (call.policy.BackoffOk surroundings attempt ∧ ∃ now' now'' delay,
      call.loop clock surroundings send kept attempt now =
        (call.loop clock surroundings send (kept.note attempt (send attempt)) (attempt + 1)
          now'').after [.read now, .sent attempt now (call.limitsAt now), .read now',
            .slept now' delay]) := by
  have hnow := now_lt_of_before hbudget.le hbefore
  have hturn := @loop_of_not_stops call clock surroundings send kept attempt now hnow h
  dsimp only at hturn
  have hnow' : clock.attempted attempt now (call.limitsAt now) < call.finishBy := by
    refine hbefore _ ?_
    rw [hturn]
    split
    · simp
    · split
      · simp
      · split <;> simp [DeadlineRun.after]
  rw [if_neg (not_le.mpr hnow')] at hturn
  cases hjitter : jitteredBackoff call.policy.backoffFactor attempt (surroundings.draw attempt) with
  | none =>
      simp only [hjitter] at hturn
      refine .inl ⟨?_, fun k outcome => ?_⟩
      · rintro ⟨jitter, hsome, -⟩
        exact Option.some_ne_none _ (hsome.symm.trans hjitter)
      · rw [hturn]
        cases outcome <;> simp [endingOf]
  | some jitter =>
      simp only [hjitter] at hturn
      cases hsleep : sleepSeconds (jitter.min (.finite
          (call.finishBy - clock.attempted attempt now (call.limitsAt now)))) with
      | none =>
          simp only [hsleep] at hturn
          refine .inl ⟨?_, fun k outcome => ?_⟩
          · rintro ⟨jitter', hsome, hsleeps⟩
            obtain rfl := Option.some.inj (hjitter.symm.trans hsome)
            obtain ⟨q, hq⟩ := exists_sleepSeconds_min hsleeps (sub_pos.mpr hnow')
            exact Option.some_ne_none _ (hq.symm.trans hsleep)
          · rw [hturn]
            cases outcome <;> simp [endingOf]
      | some delay =>
          simp only [hsleep] at hturn
          refine .inr ⟨⟨jitter, hjitter, ?_⟩, _, _, delay, hturn⟩
          rw [hturn] at hbefore
          have hnext := now_lt_of_before (by omega) hbefore.of_after
          have hslept := clock.slept_ge attempt
            (clock.attempted attempt now (call.limitsAt now)) delay
          exact timeSleeps_of_min hsleep (by linarith)

theorem endingWith_eq_iff :
    kept.endingWith attempt (send attempt) = .attempt (endingOf attempt (send attempt)) ↔
      ∀ name, send attempt = .retryableExc name → kept.lastResponse = none := by
  cases hsend : send attempt with
  | response response => simp [Kept.endingWith]
  | otherExc name => simp [Kept.endingWith]
  | retryableExc name =>
      cases hkept : kept.lastResponse with
      | none => simp [Kept.endingWith, Kept.note, Kept.ending, hkept, endingOf]
      | some last => simp [Kept.endingWith, Kept.note, Kept.ending, hkept, endingOf]

theorem lastResponse_note_eq_none :
    (kept.note attempt (send attempt)).lastResponse = none ↔
      kept.lastResponse = none ∧ ∀ response, send attempt ≠ .response response := by
  cases send attempt <;> simp [Kept.note]

/-- The loop ends as the transport does exactly when every backoff can be slept
and no response is there to be preferred to a last exception. -/
theorem ending_loop_iff (hretries : 0 ≤ call.policy.retries) {n : ℕ}
    (hlast : call.policy.lastAttempt call.method send = attempt + n)
    (hbefore : (call.loop clock surroundings send kept attempt now).Before call.finishBy) :
    (call.loop clock surroundings send kept attempt now).ending =
        .attempt (endingOf (attempt + n) (send (attempt + n))) ↔
      (∀ i, attempt ≤ i → i < attempt + n → call.policy.BackoffOk surroundings i) ∧
        ∀ name, send (attempt + n) = .retryableExc name → kept.lastResponse = none ∧
          ∀ i, attempt ≤ i → i < attempt + n → ∀ response, send i ≠ .response response := by
  have hle : (call.policy.lastAttempt call.method send : ℤ) ≤ call.policy.retries :=
    lastAttempt_le_retries hretries
  induction n generalizing attempt kept now with
  | zero =>
      have hstops : call.policy.Stops call.method send attempt :=
        (show _ = attempt from hlast) ▸ stops_lastAttempt
      have hnow := now_lt_of_before (by omega) hbefore
      rw [loop_of_stops (by omega) hnow hstops]
      constructor
      · intro hending
        refine ⟨fun i hi hin => by omega, fun name hname => ?_⟩
        exact ⟨endingWith_eq_iff.mp hending name hname, fun i hi hin => by omega⟩
      · rintro ⟨-, hnone⟩
        exact endingWith_eq_iff.mpr fun name hname => (hnone name hname).1
  | succ n ih =>
      have hnext : attempt + (n + 1) = attempt + 1 + n := by omega
      have hnot : ¬ call.policy.Stops call.method send attempt := not_stops_of_lt (by omega)
      rcases turn_of_before (by omega) hnot hbefore with
        ⟨hdelay, hending⟩ | ⟨hdelay, now', now'', delay, hturn⟩
      · constructor
        · exact fun h => absurd h (hending _ _)
        · exact fun h => absurd (h.1 attempt le_rfl (by omega)) hdelay
      · rw [hturn] at hbefore
        have ih := ih (hnext ▸ hlast) hbefore.of_after
        rw [hturn, hnext]
        refine ih.trans ?_
        rw [lastResponse_note_eq_none]
        constructor
        · rintro ⟨hdelays, hnone⟩
          refine ⟨fun i hi hin => ?_, fun name hname => ?_⟩
          · obtain rfl | hlt := Nat.eq_or_lt_of_le hi
            · exact hdelay
            · exact hdelays i hlt hin
          · obtain ⟨⟨hkept, hfirst⟩, hrest⟩ := hnone name hname
            refine ⟨hkept, fun i hi hin => ?_⟩
            obtain rfl | hlt := Nat.eq_or_lt_of_le hi
            · exact hfirst
            · exact hrest i hlt hin
        · rintro ⟨hdelays, hnone⟩
          refine ⟨fun i hi hin => hdelays i (by omega) hin, fun name hname => ?_⟩
          obtain ⟨hkept, hall⟩ := hnone name hname
          exact ⟨⟨hkept, hall attempt le_rfl (by omega)⟩, fun i hi hin => hall i (by omega) hin⟩

theorem countP_sent_loop (hretries : 0 ≤ call.policy.retries) {n : ℕ}
    (hlast : call.policy.lastAttempt call.method send = attempt + n)
    (hbefore : (call.loop clock surroundings send kept attempt now).Before call.finishBy)
    (hdelays : ∀ i, attempt ≤ i → i < attempt + n → call.policy.BackoffOk surroundings i) :
    (call.loop clock surroundings send kept attempt now).trace.countP DeadlineEvent.isSent =
      n + 1 := by
  have hle : (call.policy.lastAttempt call.method send : ℤ) ≤ call.policy.retries :=
    lastAttempt_le_retries hretries
  induction n generalizing attempt kept now with
  | zero =>
      have hstops : call.policy.Stops call.method send attempt :=
        (show _ = attempt from hlast) ▸ stops_lastAttempt
      rw [loop_of_stops (by omega) (now_lt_of_before (by omega) hbefore) hstops]
      rfl
  | succ n ih =>
      have hnot : ¬ call.policy.Stops call.method send attempt := not_stops_of_lt (by omega)
      rcases turn_of_before (by omega) hnot hbefore with
        ⟨hdelay, -⟩ | ⟨-, now', now'', delay, hturn⟩
      · exact absurd (hdelays attempt le_rfl (by omega)) hdelay
      · rw [hturn] at hbefore ⊢
        have ih := ih (by omega) hbefore.of_after fun i hi hin => hdelays i (by omega) (by omega)
        rw [DeadlineRun.after, List.countP_append, ih]
        change 1 + (n + 1) = n + 1 + 1
        omega

end DeadlineCall

/-! ### The two paths -/

/-- Both were sent equally often and end in the outcome of one attempt. -/
structure CallResult.Agrees (send : ℕ → SendOutcome) (plain within : CallResult) : Prop where
  attempts : plain.attempts = within.attempts
  ending : ∃ k, plain.ending = .attempt (endingOf k (send k)) ∧
    within.ending = .attempt (endingOf k (send k))

theorem RetryPolicy.countP_round {policy : RetryPolicy} {surroundings : Surroundings}
    {send : ℕ → SendOutcome} (i : ℕ) :
    (policy.round surroundings send i).countP RetryPolicy.Event.isSent = 1 := by
  unfold RetryPolicy.round
  cases hdelay : policy.delayAfter surroundings i (send i) with
  | none => cases send i <;> rfl
  | some delay => cases send i <;> rfl

/-- The transport's run when every delay can be slept. -/
theorem RetryPolicy.result_sendWithRetries {policy : RetryPolicy} {surroundings : Surroundings}
    {method : String} {send : ℕ → SendOutcome}
    (hdelays : ∀ i < policy.lastAttempt method send, DelayOk policy surroundings timeSleeps send i) :
    (policy.sendWithRetries surroundings method send).result =
      ⟨policy.lastAttempt method send + 1, .attempt (endingOf (policy.lastAttempt method send)
        (send (policy.lastAttempt method send)))⟩ := by
  obtain ⟨htrace, hending, -⟩ := conforms_retryLoop_iff.mpr hdelays
  have hrounds : ∀ rounds : List ℕ, (rounds.flatMap (policy.round surroundings send)).countP
      RetryPolicy.Event.isSent = rounds.length := fun rounds => by
    induction rounds with
    | nil => rfl
    | cons i rest ih =>
        rw [List.flatMap_cons, List.countP_append, countP_round, ih, List.length_cons]
        omega
  rw [RetryPolicy.Run.result, sendWithRetries, htrace, hending, List.countP_append, hrounds,
    List.length_range]
  rfl

/-- Without a deadline the request goes through the transport. -/
theorem requestWithRetry_none {settings : RetrySettings} {clock : Clock}
    {surroundings : Surroundings} {send : ℕ → SendOutcome} {called : ℚ} {call : RequestCall}
    {policy : RetryPolicy} (hpolicy : call.policy settings = .ok policy) :
    requestWithRetry settings clock surroundings send called { call with deadline := none } =
      .ok (policy.sendWithRetries surroundings call.method send).result := by
  change (do let policy ← call.policy settings; _) = _
  rw [hpolicy]
  rfl

theorem requestWithRetry_some {settings : RetrySettings} {clock : Clock}
    {surroundings : Surroundings} {send : ℕ → SendOutcome} {called deadline : ℚ}
    {call : RequestCall} {policy : RetryPolicy} (hpolicy : call.policy settings = .ok policy) :
    requestWithRetry settings clock surroundings send called { call with deadline := some deadline } =
      .ok ((call.within policy deadline called).requestWithinDeadline clock surroundings
        send).result := by
  change (do let policy ← call.policy settings; _) = _
  rw [hpolicy]
  rfl

/-- Exactly when a request under a deadline that the clock never reaches agrees
with the plain request: each delay that either path asks for is one that
`time.sleep` takes, and the last attempt does not raise a retryable exception
after an earlier attempt had a response. -/
theorem deadline_agrees_iff {settings : RetrySettings} {clock : Clock}
    {surroundings : Surroundings} {send : ℕ → SendOutcome} {called deadline : ℚ}
    {call : RequestCall} {policy : RetryPolicy} (hpolicy : call.policy settings = .ok policy)
    (hretries : 0 ≤ policy.retries)
    (hbefore : ((call.within policy deadline called).requestWithinDeadline clock surroundings
      send).Before (called + deadline)) :
    ∃ plain within,
      requestWithRetry settings clock surroundings send called { call with deadline := none } =
          .ok plain ∧
        requestWithRetry settings clock surroundings send called
            { call with deadline := some deadline } = .ok within ∧
          (plain.Agrees send within ↔
            (∀ i < policy.lastAttempt call.method send,
                DelayOk policy surroundings timeSleeps send i ∧ policy.BackoffOk surroundings i) ∧
              ∀ name, send (policy.lastAttempt call.method send) = .retryableExc name →
                ∀ i < policy.lastAttempt call.method send, ∀ response,
                  send i ≠ .response response) := by
  let within := call.within policy deadline called
  refine ⟨_, _, requestWithRetry_none hpolicy, requestWithRetry_some hpolicy, ?_⟩
  obtain ⟨n, hn⟩ : ∃ n, policy.lastAttempt call.method send = n := ⟨_, rfl⟩
  have hlast : within.policy.lastAttempt within.method send = 0 + n := by
    rw [Nat.zero_add]
    exact hn
  have hiff := DeadlineCall.ending_loop_iff hretries hlast hbefore
  rw [hn]
  rw [Nat.zero_add] at hiff
  constructor
  · rintro ⟨-, k, hending, hending'⟩
    have hdelays : ∀ i < n, DelayOk policy surroundings timeSleeps send i := fun i hi =>
      delayOk_of_ending (by rw [hn, Nat.zero_add]) (CallEnding.attempt.inj hending) i (Nat.zero_le i)
        (by omega)
    have hlastEnding : endingOf k (send k) = endingOf n (send n) := by
      rw [result_sendWithRetries (hn ▸ hdelays), hn] at hending
      exact (CallEnding.attempt.inj hending).symm
    obtain ⟨hbackoffs, hnone⟩ := hiff.mp (hlastEnding ▸ hending')
    refine ⟨fun i hi => ⟨hdelays i hi, hbackoffs i (Nat.zero_le i) (by omega)⟩, fun name hname => ?_⟩
    exact fun i hi => (hnone name hname).2 i (Nat.zero_le i) (by omega)
  · rintro ⟨hdelays, hnone⟩
    have hresult : (policy.sendWithRetries surroundings call.method send).result =
        ⟨n + 1, .attempt (endingOf n (send n))⟩ := by
      rw [result_sendWithRetries (hn ▸ fun i hi => (hdelays i hi).1), hn]
    have hbackoffs : ∀ i < n, policy.BackoffOk surroundings i := fun i hi => (hdelays i hi).2
    have hending := hiff.mpr ⟨fun i _ hi => hbackoffs i hi, fun name hname =>
      ⟨rfl, fun i _ hi => hnone name hname i hi⟩⟩
    have hcount := DeadlineCall.countP_sent_loop hretries hlast hbefore
      fun i _ hi => hbackoffs i (by omega)
    refine ⟨?_, n, ?_, hending⟩
    · rw [hresult]
      exact hcount.symm
    · rw [hresult]

/-! ### An exception after a response -/

/-- A clock on which only sleeps take time, and no longer than asked. -/
def idleClock : Clock where
  opened now := now
  attempted _ now _ := now
  slept _ now delay := now + delay
  slept_ge _ _ _ := le_rfl

/-- Nothing is set in the environment. -/
def bareSettings : RetrySettings := { environ := fun _ => none }

def oneRetryPolicy : RetryPolicy := { retries := 1, backoffFactor := .finite 0 }

def oneRetry : RequestCall where
  method := "GET"
  timeout := .seconds 1
  retries := some 1
  backoffFactor := some (.finite 0)

/-- Unavailable, then the given outcome. -/
def unavailableThen (outcome : SendOutcome) : ℕ → SendOutcome
  | 0 => .response { statusCode := 503 }
  | _ => outcome

theorem not_stops_unavailableThen (outcome : SendOutcome) :
    ¬ oneRetryPolicy.Stops "GET" (unavailableThen outcome) 0 := by
  rintro (h | h)
  · exact nomatch h
  · exact absurd h (by decide)

theorem requestWithinDeadline_oneRetry (outcome : SendOutcome) :
    (oneRetry.within oneRetryPolicy 10 0).requestWithinDeadline idleClock quietSurroundings
        (unavailableThen outcome) =
      ⟨[.read 0, .sent 0 0 ⟨1, 1, 1, 1⟩, .read 0, .slept 0 0, .read 0, .sent 1 0 ⟨1, 1, 1, 1⟩],
        ({ lastResponse := some (0, { statusCode := 503 }) } : Kept).endingWith 1 outcome, 0⟩ := by
  have hnow : (0 : ℚ) < (oneRetry.within oneRetryPolicy 10 0).finishBy := by decide +kernel
  have hlimits : (oneRetry.within oneRetryPolicy 10 0).limitsAt 0 = ⟨1, 1, 1, 1⟩ := by
    rw [DeadlineCall.limitsAt, attemptTimeout, PhaseLimits.mk.injEq]
    decide +kernel
  have hjitter : jitteredBackoff oneRetryPolicy.backoffFactor 0 (quietSurroundings.draw 0) =
      some (.finite 0) := by decide +kernel
  have hsleep : sleepSeconds (Number.min (.finite 0) (.finite
      ((oneRetry.within oneRetryPolicy 10 0).finishBy - 0))) = some 0 := by decide +kernel
  have hkept : ({} : Kept).note 0 (unavailableThen outcome 0) =
      { lastResponse := some (0, { statusCode := 503 }) } := rfl
  have hfirst := @DeadlineCall.loop_of_slept (oneRetry.within oneRetryPolicy 10 0) idleClock
    quietSurroundings (unavailableThen outcome) {} 0 0 hnow (not_stops_unavailableThen outcome) hnow
    _ hjitter _ hsleep
  have hlast := @DeadlineCall.loop_of_stops (oneRetry.within oneRetryPolicy 10 0) idleClock
    quietSurroundings (unavailableThen outcome) ⟨some (0, { statusCode := 503 }), none⟩ 1 0
    (by decide) hnow (.inr (by decide))
  rw [hlimits] at hfirst hlast
  have hslept : idleClock.slept 0 (idleClock.attempted 0 0 ⟨1, 1, 1, 1⟩) 0 = 0 := add_zero 0
  rw [hslept, hkept, zero_add, hlast] at hfirst
  exact hfirst

theorem before_oneRetry (outcome : SendOutcome) :
    ((oneRetry.within oneRetryPolicy 10 0).requestWithinDeadline idleClock quietSurroundings
      (unavailableThen outcome)).Before (0 + 10) := by
  intro now hnow
  rw [requestWithinDeadline_oneRetry] at hnow
  simp only [List.mem_cons, DeadlineEvent.read.injEq, reduceCtorEq, List.not_mem_nil, or_false,
    false_or, or_self] at hnow
  rw [hnow]
  norm_num

theorem lastAttempt_oneRetry (outcome : SendOutcome) :
    oneRetryPolicy.lastAttempt "GET" (unavailableThen outcome) = 1 := by
  have hle : oneRetryPolicy.lastAttempt "GET" (unavailableThen outcome) ≤ 1 :=
    lastAttempt_le (.inr (by decide))
  have hne : oneRetryPolicy.lastAttempt "GET" (unavailableThen outcome) ≠ 0 := fun hzero =>
    not_stops_unavailableThen outcome (hzero ▸ stops_lastAttempt)
  omega

theorem backoffOk_oneRetry : oneRetryPolicy.BackoffOk quietSurroundings 0 :=
  ⟨.finite 0, by decide +kernel, by decide +kernel⟩

theorem delayOk_oneRetry (outcome : SendOutcome) :
    ∀ i < oneRetryPolicy.lastAttempt "GET" (unavailableThen outcome),
      DelayOk oneRetryPolicy quietSurroundings timeSleeps (unavailableThen outcome) i := by
  intro i hi
  rw [lastAttempt_oneRetry, Nat.lt_one_iff] at hi
  subst hi
  exact backoffOk_oneRetry

/-- A 503 and then a refused connection: the plain request raises the
exception, the one under a deadline returns the 503. -/
theorem stale_response_returned :
    ((oneRetry.within oneRetryPolicy 10 0).requestWithinDeadline idleClock quietSurroundings
        (unavailableThen (.retryableExc "ConnectError"))).Before (0 + 10) ∧
      requestWithRetry bareSettings idleClock quietSurroundings
          (unavailableThen (.retryableExc "ConnectError")) 0 { oneRetry with deadline := none } =
        .ok ⟨2, .attempt (.raised 1 "ConnectError")⟩ ∧
      requestWithRetry bareSettings idleClock quietSurroundings
          (unavailableThen (.retryableExc "ConnectError")) 0
          { oneRetry with deadline := some 10 } =
        .ok ⟨2, .attempt (.returned 0 { statusCode := 503 })⟩ := by
  refine ⟨before_oneRetry _, ?_, ?_⟩
  · have hplain := result_sendWithRetries (delayOk_oneRetry (.retryableExc "ConnectError"))
    rw [lastAttempt_oneRetry] at hplain
    exact congrArg Except.ok hplain
  · have hwithin := congrArg DeadlineRun.result
      (requestWithinDeadline_oneRetry (.retryableExc "ConnectError"))
    exact congrArg Except.ok hwithin

/-- A 503 and then a 200: both paths return the second response. -/
theorem deadline_agrees_unavailableThenOk :
    ∃ plain within,
      requestWithRetry bareSettings idleClock quietSurroundings
          (unavailableThen (.response { statusCode := 200 })) 0 { oneRetry with deadline := none } =
          .ok plain ∧
        requestWithRetry bareSettings idleClock quietSurroundings
            (unavailableThen (.response { statusCode := 200 })) 0
            { oneRetry with deadline := some 10 } = .ok within ∧
          plain.Agrees (unavailableThen (.response { statusCode := 200 })) within := by
  obtain ⟨plain, within, hplain, hwithin, hagrees⟩ := @deadline_agrees_iff bareSettings idleClock
    quietSurroundings (unavailableThen (.response { statusCode := 200 })) 0 10 oneRetry
    oneRetryPolicy rfl (by decide) (before_oneRetry _)
  refine ⟨plain, within, hplain, hwithin, hagrees.mpr ⟨fun i hi => ?_, fun name hname => ?_⟩⟩
  · refine ⟨delayOk_oneRetry _ i hi, ?_⟩
    have hzero : i < 1 := lastAttempt_oneRetry (.response { statusCode := 200 }) ▸ hi
    rw [Nat.lt_one_iff] at hzero
    exact hzero ▸ backoffOk_oneRetry
  · rw [show oneRetry.method = "GET" from rfl, lastAttempt_oneRetry] at hname
    exact nomatch hname

end NetixBackend.Http
