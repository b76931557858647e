import NetixBackend.Http.DeadlineAgreement
import Mathlib.Tactic.Ring

/-!
What `request_with_retry` waits for after a response that is tried again.

A response asks for a delay: the one its `Retry-After` states, if that can be
parsed, and else the jittered backoff. The transport sleeps what is asked for
whenever it can be slept. The loop under a deadline does not look at the
header. It sleeps the backoff, so it waits as asked only where the backoff and
the delay stated come to the same once both are cut down to the budget. When
its attempts begin is `BeginsAt`, from the clock and the backoffs alone, and
the run is shown to make just those.
-/

namespace NetixBackend.Http

open Python

namespace RetryPolicy

/-- Every attempt that is tried again is followed by a sleep of the delay it
asks for. -/
def Waits (policy : RetryPolicy) (surroundings : Surroundings) (method : String)
    (send : ℕ → SendOutcome) (run : Run) : Prop :=
  ∀ before i after, run.trace = before ++ .sent i :: after → ¬ policy.Stops method send i →
    ∃ delay rest, policy.delayAfter surroundings i (send i) = some delay ∧
      after = releases i (send i) ++ .slept delay :: rest

variable {policy : RetryPolicy} {surroundings : Surroundings} {method : String}
  {sleeps : Number → Bool} {send : ℕ → SendOutcome} {attempt : ℕ} {run : Run}

/-- Behind events that are no sends, a send is found later. -/
theorem exists_later {mid rest before after : List Event} {i : ℕ}
    (hmid : ∀ j, .sent j ∉ mid) (h : mid ++ rest = before ++ .sent i :: after) :
    ∃ before', rest = before' ++ .sent i :: after := by
  rcases List.append_eq_append_iff.mp h with ⟨later, -, hrest⟩ | ⟨common, hsplit, hafter⟩
  · exact ⟨later, hrest⟩
  · cases common with
    | nil => exact ⟨[], hafter.symm⟩
    | cons event common =>
        obtain rfl := (List.cons.inj hafter).1
        exact absurd (by simp [hsplit]) (hmid i)

theorem no_sent_in_round (i : ℕ) (outcome : SendOutcome) (delay : Number) (j : ℕ) :
    .sent j ∉ releases i outcome ++ [.slept delay] := by
  cases outcome <;> simp [releases]

/-- A round in front of a run, cut at a send: at the round's own, or later. -/
theorem sent_of_round {delay : Number} {rest before after : List Event} {i : ℕ}
    (h : .sent attempt :: releases attempt (send attempt) ++ .slept delay :: rest =
      before ++ .sent i :: after) :
    (i = attempt ∧ after = releases attempt (send attempt) ++ .slept delay :: rest) ∨
      ∃ before', rest = before' ++ .sent i :: after := by
  cases before with
  | nil =>
      simp only [List.cons_append, List.nil_append, List.cons.injEq, Event.sent.injEq] at h
      exact .inl ⟨h.1.symm, h.2.symm⟩
  | cons first before =>
      simp only [List.cons_append, List.cons.injEq] at h
      have hrest : (releases attempt (send attempt) ++ [.slept delay]) ++ rest =
          before ++ .sent i :: after := by simpa using h.2
      exact .inr (exists_later (no_sent_in_round attempt (send attempt) delay) hrest)

theorem trace_of_delayOk (h : ¬ policy.Stops method send attempt)
    {delay : Number} (hsome : policy.delayAfter surroundings attempt (send attempt) = some delay)
    (hsleeps : sleeps delay = true) :
    (retryLoop policy surroundings method sleeps send attempt).trace =
      .sent attempt :: releases attempt (send attempt) ++ .slept delay ::
        (retryLoop policy surroundings method sleeps send (attempt + 1)).trace := by
  rw [retryLoop_of_delayOk h ⟨delay, hsome, hsleeps⟩]
  simp [Run.after, round, hsome]

/-- A delay that cannot be slept is followed by nothing. -/
theorem trace_of_not_delayOk (h : ¬ policy.Stops method send attempt)
    (hdelay : ¬ DelayOk policy surroundings sleeps send attempt) :
    ∃ after, (retryLoop policy surroundings method sleeps send attempt).trace =
        .sent attempt :: after ∧
      ∀ delay rest, after ≠ releases attempt (send attempt) ++ .slept delay :: rest := by
  rw [retryLoop_of_not_stops h]
  have hempty : ∀ delay rest, [] ≠ releases attempt (send attempt) ++ .slept delay :: rest := by
    intro delay rest hnil
    simp at hnil
  cases hsome : policy.delayAfter surroundings attempt (send attempt) with
  | none => exact ⟨[], rfl, hempty⟩
  | some delay =>
      have hsleeps : ¬ sleeps delay = true := fun hsleeps => hdelay ⟨delay, hsome, hsleeps⟩
      simp only [if_neg hsleeps]
      refine ⟨_, rfl, fun delay' rest hreleases => ?_⟩
      simp at hreleases

/-- The loop waits as asked exactly when it can. -/
theorem waits_retryLoop_iff {n : ℕ} (hlast : policy.lastAttempt method send = attempt + n) :
    policy.Waits surroundings method send
        (retryLoop policy surroundings method sleeps send attempt) ↔
      ∀ i, attempt ≤ i → i < attempt + n → DelayOk policy surroundings sleeps send i := by
  induction n generalizing attempt with
  | zero =>
      refine iff_of_true ?_ fun i hi hin => by omega
      have hstops : policy.Stops method send attempt :=
        (show policy.lastAttempt method send = attempt from hlast) ▸ stops_lastAttempt
      intro before i after htrace hnot
      rw [retryLoop_of_stops hstops] at htrace
      cases before with
      | nil =>
          obtain ⟨hsent, -⟩ := List.cons.inj htrace
          obtain rfl := Event.sent.inj hsent
          exact absurd hstops hnot
      | cons first before => simp at htrace
  | succ n ih =>
      have hnot : ¬ policy.Stops method send attempt := not_stops_of_lt (by omega)
      have hrest := @ih (attempt + 1) (by omega)
      by_cases hdelay : DelayOk policy surroundings sleeps send attempt
      · obtain ⟨delay, hsome, hsleeps⟩ := hdelay
        have htrace := trace_of_delayOk hnot hsome hsleeps
        constructor
        · intro hwaits i hi hin
          obtain rfl | hlt := Nat.eq_or_lt_of_le hi
          · exact ⟨delay, hsome, hsleeps⟩
          · refine hrest.mp (fun before j after hsplit hj => ?_) i hlt (by omega)
            refine hwaits (.sent attempt :: releases attempt (send attempt) ++ .slept delay :: before)
              j after ?_ hj
            rw [htrace, hsplit]
            simp
        · intro hall before i after hsplit hi
          rw [htrace] at hsplit
          rcases sent_of_round hsplit with ⟨rfl, hafter⟩ | ⟨before', hlater⟩
          · exact ⟨delay, _, hsome, hafter⟩
          · exact hrest.mpr (fun j hj hjn => hall j (by omega) (by omega)) before' i after hlater hi
      · obtain ⟨after, htrace, hnone⟩ := trace_of_not_delayOk hnot hdelay
        refine iff_of_false (fun hwaits => ?_) (fun hall => hdelay (hall attempt le_rfl (by omega)))
        obtain ⟨delay, rest, -, hafter⟩ := hwaits [] attempt after htrace hnot
        exact hnone delay rest hafter

/-- A delay that cannot be slept is followed by no attempt. -/
theorem sent_of_not_delayOk (h : ¬ policy.Stops method send attempt)
    (hdelay : ¬ DelayOk policy surroundings sleeps send attempt) {j : ℕ} :
    .sent j ∈ (retryLoop policy surroundings method sleeps send attempt).trace ↔ j = attempt := by
  have hreleases := not_sent_mem_releases (i := attempt) (j := j) (send attempt)
  rw [retryLoop_of_not_stops h]
  cases hsome : policy.delayAfter surroundings attempt (send attempt) with
  | none => simp
  | some delay =>
      have hsleeps : ¬ sleeps delay = true := fun hsleeps => hdelay ⟨delay, hsome, hsleeps⟩
      simp [if_neg hsleeps, hreleases]

/-- The loop makes its attempts in order, each after a delay that can be slept. -/
theorem sent_retryLoop_iff {n : ℕ} (hlast : policy.lastAttempt method send = attempt + n) {j : ℕ} :
    .sent j ∈ (retryLoop policy surroundings method sleeps send attempt).trace ↔
      attempt ≤ j ∧ j ≤ attempt + n ∧
        ∀ i, attempt ≤ i → i < j → DelayOk policy surroundings sleeps send i := by
  induction n generalizing attempt with
  | zero =>
      have hstops : policy.Stops method send attempt :=
        (show policy.lastAttempt method send = attempt from hlast) ▸ stops_lastAttempt
      rw [retryLoop_of_stops hstops]
      simp only [List.mem_singleton, Event.sent.injEq, Nat.add_zero]
      exact ⟨fun hj => ⟨hj.ge, hj.le, fun i hi hij => by omega⟩, fun hj => by omega⟩
  | succ n ih =>
      have hnot : ¬ policy.Stops method send attempt := not_stops_of_lt (by omega)
      have hrest := @ih (attempt + 1) (by omega)
      by_cases hdelay : DelayOk policy surroundings sleeps send attempt
      · obtain ⟨delay, hsome, hsleeps⟩ := hdelay
        have hreleases := not_sent_mem_releases (i := attempt) (j := j) (send attempt)
        rw [trace_of_delayOk hnot hsome hsleeps]
        simp only [List.cons_append, List.mem_cons, List.mem_append, reduceCtorEq,
          Event.sent.injEq, hreleases, false_or, hrest]
        constructor
        · rintro (rfl | ⟨hle, hbelow, hdelays⟩)
          · exact ⟨le_rfl, by omega, fun i hi hij => by omega⟩
          · refine ⟨by omega, by omega, fun i hi hij => ?_⟩
            obtain rfl | hlt := Nat.eq_or_lt_of_le hi
            · exact ⟨delay, hsome, hsleeps⟩
            · exact hdelays i hlt hij
        · rintro ⟨hle, hbelow, hdelays⟩
          obtain rfl | hlt := Nat.eq_or_lt_of_le hle
          · exact .inl rfl
          · exact .inr ⟨hlt, by omega, fun i hi hij => hdelays i (by omega) hij⟩
      · rw [sent_of_not_delayOk hnot hdelay]
        constructor
        · rintro rfl
          exact ⟨le_rfl, by omega, fun i hi hij => by omega⟩
        · rintro ⟨hle, -, hdelays⟩
          by_contra hne
          exact hdelay (hdelays attempt le_rfl (by omega))

end RetryPolicy

/-! ### Under a deadline -/

namespace DeadlineCall

open RetryPolicy

/-- What the clock reads after an attempt that begins at `now`. -/
def endsAt (call : DeadlineCall) (clock : Clock) (attempt : ℕ) (now : ℚ) : ℚ :=
  clock.attempted attempt now (call.limitsAt now)

/-- An attempt that begins at `now` is tried again, with some of the budget
left. -/
def Retried (call : DeadlineCall) (clock : Clock) (send : ℕ → SendOutcome) (attempt : ℕ)
    (now : ℚ) : Prop :=
  ¬ call.policy.Stops call.method send attempt ∧ call.endsAt clock attempt now < call.finishBy

/-- When the attempts of a call begin, the first at `start`: each after the
sleep that follows the one before. -/
inductive BeginsAt (call : DeadlineCall) (clock : Clock) (surroundings : Surroundings)
    (send : ℕ → SendOutcome) (first : ℕ) (start : ℚ) : ℕ → ℚ → Prop
  | first (hretries : (first : ℤ) ≤ call.policy.retries) (hnow : start < call.finishBy) :
      BeginsAt call clock surroundings send first start first start
  | again {attempt : ℕ} {now delay : ℚ} {jitter : Number}
      (hbegins : BeginsAt call clock surroundings send first start attempt now)
      (hretried : call.Retried clock send attempt now)
      (hjitter : jitteredBackoff call.policy.backoffFactor attempt (surroundings.draw attempt) =
        some jitter)
      (hsleep : sleepSeconds (jitter.min (.finite
        (call.finishBy - call.endsAt clock attempt now))) = some delay)
      (hnow : clock.slept attempt (call.endsAt clock attempt now) delay < call.finishBy) :
      BeginsAt call clock surroundings send first start (attempt + 1)
        (clock.slept attempt (call.endsAt clock attempt now) delay)

/-- Every attempt that is tried again with some of the budget left is followed
by a sleep of the delay it asks for, cut down to the budget. -/
def Waits (call : DeadlineCall) (clock : Clock) (surroundings : Surroundings)
    (send : ℕ → SendOutcome) (trace : List DeadlineEvent) : Prop :=
  ∀ before i started limits after, trace = before ++ .sent i started limits :: after →
    call.Retried clock send i started →
    ∃ delay seconds rest, call.policy.delayAfter surroundings i (send i) = some delay ∧
      delay.min (.finite (call.finishBy - call.endsAt clock i started)) = .finite seconds ∧
      after = .read (call.endsAt clock i started) ::
        .slept (call.endsAt clock i started) seconds :: rest

/-- The backoff after an attempt can be slept, and a `Retry-After` that can be
parsed comes to the same, both cut down to the budget. -/
def BackoffWill (call : DeadlineCall) (surroundings : Surroundings) (send : ℕ → SendOutcome)
    (i : ℕ) (now : ℚ) : Prop :=
  ∃ jitter seconds,
    jitteredBackoff call.policy.backoffFactor i (surroundings.draw i) = some jitter ∧
    sleepSeconds (jitter.min (.finite (call.finishBy - now))) = some seconds ∧
    ∀ response stated, send i = .response response →
      parseRetryAfterSeconds surroundings i response call.policy.maxRetryAfter = some stated →
      stated.min (.finite (call.finishBy - now)) = jitter.min (.finite (call.finishBy - now))

variable {call : DeadlineCall} {clock : Clock} {surroundings : Surroundings}
  {send : ℕ → SendOutcome} {kept : Kept} {attempt : ℕ} {now : ℚ}

/-! ### The attempts of a call -/

theorem BeginsAt.inBudget {i : ℕ} {t : ℚ}
    (h : call.BeginsAt clock surroundings send attempt now i t) :
    (attempt : ℤ) ≤ call.policy.retries ∧ now < call.finishBy := by
  induction h with
  | first hretries hnow => exact ⟨hretries, hnow⟩
  | again _ _ _ _ _ ih => exact ih

theorem BeginsAt.of_next {i : ℕ} {t delay : ℚ} {jitter : Number}
    (hbudget : (attempt : ℤ) ≤ call.policy.retries) (hnow : now < call.finishBy)
    (hretried : call.Retried clock send attempt now)
    (hjitter : jitteredBackoff call.policy.backoffFactor attempt (surroundings.draw attempt) =
      some jitter)
    (hsleep : sleepSeconds (jitter.min (.finite
      (call.finishBy - call.endsAt clock attempt now))) = some delay)
    (h : call.BeginsAt clock surroundings send (attempt + 1)
      (clock.slept attempt (call.endsAt clock attempt now) delay) i t) :
    call.BeginsAt clock surroundings send attempt now i t := by
  induction h with
  | first _ hnext => exact .again (.first hbudget hnow) hretried hjitter hsleep hnext
  | again _ hretried' hjitter' hsleep' hnow' ih => exact .again ih hretried' hjitter' hsleep' hnow'

/-- An attempt of a call is its first, or one after the sleep behind the first. -/
theorem BeginsAt.head {i : ℕ} {t : ℚ}
    (h : call.BeginsAt clock surroundings send attempt now i t) :
    (i = attempt ∧ t = now) ∨
      call.Retried clock send attempt now ∧ ∃ jitter delay,
        jitteredBackoff call.policy.backoffFactor attempt (surroundings.draw attempt) =
          some jitter ∧
        sleepSeconds (jitter.min (.finite
          (call.finishBy - call.endsAt clock attempt now))) = some delay ∧
        call.BeginsAt clock surroundings send (attempt + 1)
          (clock.slept attempt (call.endsAt clock attempt now) delay) i t := by
  induction h with
  | first _ _ => exact .inl ⟨rfl, rfl⟩
  | again _ hretried hjitter hsleep hnow ih =>
      rcases ih with ⟨rfl, rfl⟩ | ⟨hfirst, jitter, delay, hjitter', hsleep', hrest⟩
      · have hbelow := (not_or.mp hretried.1).2
        exact .inr ⟨hretried, _, _, hjitter, hsleep, .first (by push_cast; omega) hnow⟩
      · exact .inr ⟨hfirst, jitter, delay, hjitter', hsleep',
          .again hrest hretried hjitter hsleep hnow⟩

/-- Where the first is not tried again, or its backoff cannot be slept, it is
the only one. -/
theorem beginsAt_iff_of_last {i : ℕ} {t : ℚ} (hbudget : (attempt : ℤ) ≤ call.policy.retries)
    (hnow : now < call.finishBy)
    (hlast : call.Retried clock send attempt now → ∀ jitter delay,
      jitteredBackoff call.policy.backoffFactor attempt (surroundings.draw attempt) = some jitter →
        sleepSeconds (jitter.min (.finite
          (call.finishBy - call.endsAt clock attempt now))) ≠ some delay) :
    call.BeginsAt clock surroundings send attempt now i t ↔ i = attempt ∧ t = now := by
  constructor
  · intro h
    rcases h.head with hfirst | ⟨hretried, jitter, delay, hjitter, hsleep, -⟩
    · exact hfirst
    · exact absurd hsleep (hlast hretried jitter delay hjitter)
  · rintro ⟨rfl, rfl⟩
    exact .first hbudget hnow

/-! ### One turn of the loop -/

/-- A loop that is over sends nothing. -/
theorem trace_of_over (hover : ¬((attempt : ℤ) ≤ call.policy.retries ∧ now < call.finishBy)) :
    (call.loop clock surroundings send kept attempt now).trace ⊆ [.read now] := by
  rw [loop]
  split
  · simp
  · rename_i hbudget
    have hlate : call.finishBy - now ≤ 0 := by
      have hle : call.finishBy ≤ now := not_lt.mp fun hnow => hover ⟨not_lt.mp hbudget, hnow⟩
      linarith
    rw [if_pos hlate]
    simp

/-- A turn is not tried again, or its backoff cannot be slept, or it sleeps the
backoff and the loop goes on. -/
theorem retry_cases (hbudget : (attempt : ℤ) ≤ call.policy.retries) (hnow : now < call.finishBy) :
    (¬call.Retried clock send attempt now ∧ ∃ tail, (∀ i t limits, .sent i t limits ∉ tail) ∧
      (call.loop clock surroundings send kept attempt now).trace =
        .read now :: .sent attempt now (call.limitsAt now) :: tail) ∨
    (call.Retried clock send attempt now ∧
      (∀ jitter delay, jitteredBackoff call.policy.backoffFactor attempt
          (surroundings.draw attempt) = some jitter →
        sleepSeconds (jitter.min (.finite
          (call.finishBy - call.endsAt clock attempt now))) ≠ some delay) ∧
      (call.loop clock surroundings send kept attempt now).trace =
        [.read now, .sent attempt now (call.limitsAt now),
          .read (call.endsAt clock attempt now)]) ∨
    (call.Retried clock send attempt now ∧ ∃ jitter delay,
      jitteredBackoff call.policy.backoffFactor attempt (surroundings.draw attempt) =
        some jitter ∧
      sleepSeconds (jitter.min (.finite
        (call.finishBy - call.endsAt clock attempt now))) = some delay ∧
      (call.loop clock surroundings send kept attempt now).trace =
        .read now :: .sent attempt now (call.limitsAt now) ::
          .read (call.endsAt clock attempt now) ::
          .slept (call.endsAt clock attempt now) delay ::
          (call.loop clock surroundings send (kept.note attempt (send attempt)) (attempt + 1)
            (clock.slept attempt (call.endsAt clock attempt now) delay)).trace) := by
  by_cases hstops : call.policy.Stops call.method send attempt
  · refine .inl ⟨fun h => h.1 hstops, [], by simp, ?_⟩
    rw [loop_of_stops hbudget hnow hstops]
  have hturn := @loop_of_not_stops call clock surroundings send kept attempt now hnow hstops
  dsimp only at hturn
  by_cases hover : call.finishBy ≤ clock.attempted attempt now (call.limitsAt now)
  · rw [if_pos hover] at hturn
    exact .inl ⟨fun h => absurd h.2 (not_lt.mpr hover),
      [.read (clock.attempted attempt now (call.limitsAt now))], by simp, by rw [hturn]⟩
  have hretried : call.Retried clock send attempt now := ⟨hstops, not_le.mp hover⟩
  rw [if_neg hover] at hturn
  unfold endsAt
  cases hjitter : jitteredBackoff call.policy.backoffFactor attempt (surroundings.draw attempt) with
  | none =>
      simp only [hjitter] at hturn
      exact .inr (.inl ⟨hretried, fun jitter delay hsome => absurd hsome (by simp), by rw [hturn]⟩)
  | some jitter =>
      simp only [hjitter] at hturn
      cases hsleep : sleepSeconds (jitter.min (.finite
          (call.finishBy - clock.attempted attempt now (call.limitsAt now)))) with
      | none =>
          simp only [hsleep] at hturn
          refine .inr (.inl ⟨hretried, fun jitter' delay hsome hslept => ?_, by rw [hturn]⟩)
          obtain rfl := Option.some.inj hsome
          exact Option.some_ne_none _ (hslept.symm.trans hsleep)
      | some delay =>
          simp only [hsleep] at hturn
          exact .inr (.inr ⟨hretried, jitter, delay, rfl, hsleep, by rw [hturn]; rfl⟩)

/-! ### The attempts in the trace -/

/-- Of a turn that nothing is sent after, the one attempt is its own. -/
theorem sent_turn_iff {i : ℕ} {t : ℚ} {tail : List DeadlineEvent}
    (htail : ∀ i t limits, .sent i t limits ∉ tail) :
    (∃ limits, .sent i t limits ∈
      .read now :: .sent attempt now (call.limitsAt now) :: tail) ↔ i = attempt ∧ t = now := by
  simp only [List.mem_cons, reduceCtorEq, DeadlineEvent.sent.injEq, htail, or_false, false_or]
  constructor
  · rintro ⟨limits, hi, ht, -⟩
    exact ⟨hi, ht⟩
  · rintro ⟨hi, ht⟩
    exact ⟨call.limitsAt now, hi, ht, rfl⟩

/-- The run sends exactly the attempts that begin. -/
theorem sent_loop_iff {kept : Kept} {attempt : ℕ} {now : ℚ} {i : ℕ} {t : ℚ} :
    (∃ limits, .sent i t limits ∈ (call.loop clock surroundings send kept attempt now).trace) ↔
      call.BeginsAt clock surroundings send attempt now i t := by
  by_cases hin : (attempt : ℤ) ≤ call.policy.retries ∧ now < call.finishBy
  swap
  · refine iff_of_false ?_ fun h => hin h.inBudget
    rintro ⟨limits, hmem⟩
    simpa using trace_of_over hin hmem
  obtain ⟨hbudget, hnow⟩ := hin
  rcases @retry_cases call clock surroundings send kept attempt now hbudget hnow with
    ⟨hnot, tail, htail, htrace⟩ | ⟨hretried, hawake, htrace⟩ |
    ⟨hretried, jitter, delay, hjitter, hsleep, htrace⟩
  · rw [htrace, sent_turn_iff htail]
    exact (beginsAt_iff_of_last hbudget hnow fun hretried => absurd hretried hnot).symm
  · rw [htrace, sent_turn_iff (by simp)]
    exact (beginsAt_iff_of_last hbudget hnow fun _ => hawake).symm
  · have hlt : (attempt : ℤ) < call.policy.retries := not_le.mp (not_or.mp hretried.1).2
    have hrest := @sent_loop_iff (kept.note attempt (send attempt)) (attempt + 1)
      (clock.slept attempt (call.endsAt clock attempt now) delay) i t
    rw [htrace]
    constructor
    · rintro ⟨limits, hmem⟩
      simp only [List.mem_cons, reduceCtorEq, DeadlineEvent.sent.injEq, false_or] at hmem
      rcases hmem with ⟨rfl, rfl, -⟩ | hmem
      · exact .first hbudget hnow
      · exact .of_next hbudget hnow hretried hjitter hsleep (hrest.mp ⟨limits, hmem⟩)
    · intro h
      rcases h.head with ⟨rfl, rfl⟩ | ⟨-, jitter', delay', hjitter', hsleep', hbegins⟩
      · exact ⟨call.limitsAt t, by simp⟩
      · obtain rfl := Option.some.inj (hjitter.symm.trans hjitter')
        obtain rfl := Option.some.inj (hsleep.symm.trans hsleep')
        obtain ⟨limits, hmem⟩ := hrest.mpr hbegins
        exact ⟨limits, by simp [hmem]⟩
termination_by (call.policy.retries - attempt).toNat
decreasing_by omega

/-! ### What is slept -/

/-- A backoff that is slept is what was asked for exactly when it will do. -/
theorem asked_iff_backoffWill {i : ℕ} {jitter : Number} {seconds : ℚ}
    (hjitter : jitteredBackoff call.policy.backoffFactor i (surroundings.draw i) = some jitter)
    (hsleep : sleepSeconds (jitter.min (.finite (call.finishBy - now))) = some seconds) :
    (∃ delay, call.policy.delayAfter surroundings i (send i) = some delay ∧
      delay.min (.finite (call.finishBy - now)) = .finite seconds) ↔
        BackoffWill call surroundings send i now := by
  have hmin := (sleepSeconds_eq_some hsleep).1
  constructor
  · rintro ⟨delay, hdelay, hasked⟩
    refine ⟨jitter, seconds, hjitter, hsleep, fun response stated hsend hstated => ?_⟩
    rw [hsend, delayAfter, statusDelay, hstated] at hdelay
    obtain rfl := Option.some.inj hdelay
    rw [hasked, hmin]
  · rintro ⟨jitter', seconds', hjitter', hsleep', hsame⟩
    obtain rfl := Option.some.inj (hjitter.symm.trans hjitter')
    cases hsend : send i with
    | retryableExc name => exact ⟨jitter, hjitter, hmin⟩
    | otherExc name => exact ⟨jitter, hjitter, hmin⟩
    | response response =>
        cases hstated :
            parseRetryAfterSeconds surroundings i response call.policy.maxRetryAfter with
        | none =>
            refine ⟨jitter, ?_, hmin⟩
            rw [delayAfter, statusDelay, hstated]
            exact hjitter
        | some stated =>
            refine ⟨stated, ?_, (hsame response stated hsend hstated).trans hmin⟩
            rw [delayAfter, statusDelay, hstated]

/-- A turn that sleeps waits as asked, and so do the turns after it. -/
theorem waits_slept_iff {seconds : ℚ} {limits : PhaseLimits} {rest : List DeadlineEvent}
    (hretried : call.Retried clock send attempt now) :
    call.Waits clock surroundings send (.read now :: .sent attempt now limits ::
        .read (call.endsAt clock attempt now) ::
        .slept (call.endsAt clock attempt now) seconds :: rest) ↔
      (∃ delay, call.policy.delayAfter surroundings attempt (send attempt) = some delay ∧
        delay.min (.finite (call.finishBy - call.endsAt clock attempt now)) = .finite seconds) ∧
      call.Waits clock surroundings send rest := by
  constructor
  · intro hwaits
    refine ⟨?_, fun before i t limits' after hsplit hi => ?_⟩
    · obtain ⟨delay, seconds', rest', hdelay, hmin, hafter⟩ :=
        hwaits [.read now] attempt now limits _ rfl hretried
      simp only [List.cons.injEq, DeadlineEvent.slept.injEq, true_and] at hafter
      exact ⟨delay, hdelay, hafter.1 ▸ hmin⟩
    · refine hwaits (.read now :: .sent attempt now limits ::
        .read (call.endsAt clock attempt now) ::
        .slept (call.endsAt clock attempt now) seconds :: before) i t limits' after ?_ hi
      rw [hsplit]
      rfl
  · rintro ⟨⟨delay, hdelay, hmin⟩, hrest⟩ before i t limits' after hsplit hi
    -- the send is the turn's own, or one of the turns after its sleep
    rcases before with _ | ⟨read, _ | ⟨sent, _ | ⟨read', _ | ⟨slept, before⟩⟩⟩⟩
    · simp at hsplit
    · simp only [List.cons_append, List.nil_append, List.cons.injEq, DeadlineEvent.sent.injEq]
        at hsplit
      obtain ⟨-, ⟨rfl, rfl, -⟩, rfl⟩ := hsplit
      exact ⟨delay, seconds, rest, hdelay, hmin, rfl⟩
    · simp at hsplit
    · simp at hsplit
    · simp only [List.cons_append, List.cons.injEq] at hsplit
      exact hrest before i t limits' after hsplit.2.2.2.2 hi

/-- The loop waits as asked exactly when the backoff will do after each attempt
that begins and is tried again. -/
theorem waits_loop_iff {kept : Kept} {attempt : ℕ} {now : ℚ} :
    call.Waits clock surroundings send
        (call.loop clock surroundings send kept attempt now).trace ↔
      ∀ i t, call.BeginsAt clock surroundings send attempt now i t →
        call.Retried clock send i t →
        call.BackoffWill surroundings send i (call.endsAt clock i t) := by
  by_cases hin : (attempt : ℤ) ≤ call.policy.retries ∧ now < call.finishBy
  swap
  · refine iff_of_true ?_ fun i t h => absurd h.inBudget hin
    intro before i t limits after hsplit
    have hmem := @trace_of_over call clock surroundings send kept attempt now hin
      (.sent i t limits) (by simp [hsplit])
    simp at hmem
  obtain ⟨hbudget, hnow⟩ := hin
  rcases @retry_cases call clock surroundings send kept attempt now hbudget hnow with
    ⟨hnot, -, -, -⟩ | ⟨hretried, hawake, htrace⟩ |
    ⟨hretried, jitter, delay, hjitter, hsleep, htrace⟩
  · have honly : ∀ i t, call.BeginsAt clock surroundings send attempt now i t →
        ¬call.Retried clock send i t := by
      intro i t hbegins
      obtain ⟨rfl, rfl⟩ :=
        (beginsAt_iff_of_last hbudget hnow fun hretried => absurd hretried hnot).mp hbegins
      exact hnot
    refine iff_of_true (fun before i t limits after hsplit hi => ?_) fun i t hbegins hi => ?_
    · exact absurd hi (honly i t (sent_loop_iff.mp ⟨limits, by rw [hsplit]; simp⟩))
    · exact absurd hi (honly i t hbegins)
  · refine iff_of_false (fun hwaits => ?_) fun hall => ?_
    · rw [htrace] at hwaits
      obtain ⟨_, _, _, -, -, hafter⟩ := hwaits [.read now] attempt now _ _ rfl hretried
      simp at hafter
    · obtain ⟨jitter, seconds, hjitter, hsleep, -⟩ := hall attempt now (.first hbudget hnow) hretried
      exact hawake jitter seconds hjitter hsleep
  · have hlt : (attempt : ℤ) < call.policy.retries := not_le.mp (not_or.mp hretried.1).2
    have hrest := @waits_loop_iff (kept.note attempt (send attempt)) (attempt + 1)
      (clock.slept attempt (call.endsAt clock attempt now) delay)
    rw [htrace, waits_slept_iff hretried, asked_iff_backoffWill hjitter hsleep, hrest]
    constructor
    · rintro ⟨hfirst, hlater⟩ i t hbegins hi
      rcases hbegins.head with ⟨rfl, rfl⟩ | ⟨-, jitter', delay', hjitter', hsleep', hnext⟩
      · exact hfirst
      · obtain rfl := Option.some.inj (hjitter.symm.trans hjitter')
        obtain rfl := Option.some.inj (hsleep.symm.trans hsleep')
        exact hlater i t hnext hi
    · intro hall
      exact ⟨hall attempt now (.first hbudget hnow) hretried, fun i t hnext hi =>
        hall i t (.of_next hbudget hnow hretried hjitter hsleep hnext) hi⟩
termination_by (call.policy.retries - attempt).toNat
decreasing_by omega

end DeadlineCall

/-- The backoff lies between half of `backoff_factor * 2 ** attempt` and the
whole of it. -/
theorem jitteredBackoff_bounds (b : ℚ) {attempt : ℕ} (hattempt : attempt < 1024) {draw : ℚ}
    (hdraw : 0 ≤ draw) (hlt : draw < 1) :
    ∃ share : ℚ, 1 / 2 ≤ share ∧ share ≤ 1 ∧
      jitteredBackoff (.finite b) attempt draw = some (.finite (share * (b * 2 ^ attempt))) := by
  refine ⟨(1 + draw) / 2, by linarith, by linarith, ?_⟩
  rw [jitteredBackoff, if_neg (by omega)]
  dsimp only
  congr 2
  ring

/-- Without a deadline the attempts up to the last are made as long as their
delays can be slept, and the request waits as asked exactly when all can; with
one, the attempts are made that begin in time, and it waits as asked exactly
when after each of them that is tried again the backoff will do. -/
theorem retry_after_honoured_iff (policy : RetryPolicy) (call : DeadlineCall) (clock : Clock)
    (surroundings : Surroundings) (method : String) (send : ℕ → SendOutcome) :
    ((∀ i, .sent i ∈ (policy.sendWithRetries surroundings method send).trace ↔
        i ≤ policy.lastAttempt method send ∧
          ∀ j < i, RetryPolicy.DelayOk policy surroundings RetryPolicy.timeSleeps send j) ∧
      (policy.Waits surroundings method send (policy.sendWithRetries surroundings method send) ↔
        ∀ i < policy.lastAttempt method send,
          RetryPolicy.DelayOk policy surroundings RetryPolicy.timeSleeps send i)) ∧
    ((∀ attempt now, (∃ limits, .sent attempt now limits ∈
          (call.requestWithinDeadline clock surroundings send).trace) ↔
        call.BeginsAt clock surroundings send 0 (clock.opened call.called) attempt now) ∧
      (call.Waits clock surroundings send
          (call.requestWithinDeadline clock surroundings send).trace ↔
        ∀ attempt now,
          call.BeginsAt clock surroundings send 0 (clock.opened call.called) attempt now →
          call.Retried clock send attempt now →
          call.BackoffWill surroundings send attempt (call.endsAt clock attempt now))) ∧
    ∀ (b : ℚ) (attempt : ℕ) (draw : ℚ), attempt < 1024 → 0 ≤ draw → draw < 1 →
      ∃ share : ℚ, 1 / 2 ≤ share ∧ share ≤ 1 ∧
        jitteredBackoff (.finite b) attempt draw = some (.finite (share * (b * 2 ^ attempt))) := by
  have hlast : policy.lastAttempt method send = 0 + policy.lastAttempt method send := by omega
  refine ⟨⟨fun i => ?_, ?_⟩, ⟨fun attempt now => DeadlineCall.sent_loop_iff,
      DeadlineCall.waits_loop_iff⟩,
    fun b attempt draw hattempt hdraw hlt => jitteredBackoff_bounds b hattempt hdraw hlt⟩
  · rw [RetryPolicy.sendWithRetries, RetryPolicy.sent_retryLoop_iff hlast]
    simp
  · rw [RetryPolicy.sendWithRetries, RetryPolicy.waits_retryLoop_iff hlast]
    simp

/-! ### Five seconds asked for -/

/-- Unavailable with a Retry-After of five seconds, then fine. -/
def fiveThenOk : ℕ → SendOutcome
  | 0 => .response { statusCode := 503, retryAfter := some "5" }
  | _ => .response { statusCode := 200 }

/-- A minute for the whole loop. -/
def minuteCall : DeadlineCall where
  policy := RetryPolicy.defaultPolicy
  method := "GET"
  timeout := .seconds 10
  deadline := 60

/-- The loop sleeps a quarter of a second where five seconds are asked for. -/
theorem deadline_ignores_header :
    parseRetryAfterSeconds RetryPolicy.quietSurroundings 0
        { statusCode := 503, retryAfter := some "5" } minuteCall.policy.maxRetryAfter =
          some (.finite 5) ∧
      (∃ rest, (minuteCall.requestWithinDeadline idleClock RetryPolicy.quietSurroundings
          fiveThenOk).trace =
        .read 0 :: .sent 0 0 (minuteCall.limitsAt 0) :: .read 0 :: .slept 0 (1 / 4) :: rest) ∧
      ¬ minuteCall.Waits idleClock RetryPolicy.quietSurroundings fiveThenOk
        (minuteCall.requestWithinDeadline idleClock RetryPolicy.quietSurroundings
          fiveThenOk).trace := by
  have hparsed : parseRetryAfterSeconds RetryPolicy.quietSurroundings 0
      { statusCode := 503, retryAfter := some "5" } minuteCall.policy.maxRetryAfter =
        some (.finite 5) := by decide
  have hnot : ¬ minuteCall.policy.Stops minuteCall.method fiveThenOk 0 := by decide
  have hfinish : minuteCall.finishBy = 60 := by norm_num [DeadlineCall.finishBy, minuteCall]
  have hjitter : jitteredBackoff minuteCall.policy.backoffFactor 0
      (RetryPolicy.quietSurroundings.draw 0) = some (.finite (1 / 4)) := by
    norm_num [jitteredBackoff, minuteCall, RetryPolicy.defaultPolicy, RetryPolicy.quietSurroundings]
  have hsleep : sleepSeconds ((Number.finite (1 / 4)).min (.finite (minuteCall.finishBy - 0))) =
      some (1 / 4) := by
    norm_num [hfinish, Number.min, sleepSeconds, RetryPolicy.timeSleeps]
  have hloop := @DeadlineCall.loop_of_slept minuteCall idleClock RetryPolicy.quietSurroundings
    fiveThenOk {} 0 0 (by rw [hfinish]; norm_num) hnot (by rw [hfinish]; norm_num [idleClock])
    (.finite (1 / 4)) hjitter (1 / 4) hsleep
  have htrace : ∃ rest, (minuteCall.requestWithinDeadline idleClock
      RetryPolicy.quietSurroundings fiveThenOk).trace =
      .read 0 :: .sent 0 0 (minuteCall.limitsAt 0) :: .read 0 :: .slept 0 (1 / 4) :: rest :=
    ⟨_, congrArg DeadlineRun.trace hloop⟩
  refine ⟨hparsed, htrace, fun hwaits => ?_⟩
  obtain ⟨rest, htrace⟩ := htrace
  have hinTime : (0 : ℚ) < minuteCall.finishBy := by
    rw [hfinish]
    norm_num
  obtain ⟨delay, seconds, rest', hdelay, hmin, hafter⟩ :=
    hwaits [.read 0] 0 0 _ _ htrace ⟨hnot, hinTime⟩
  obtain ⟨-, rfl⟩ := DeadlineEvent.slept.inj (List.cons.inj (List.cons.inj hafter).2).1
  have hfive : delay = .finite 5 := by
    have hasked : minuteCall.policy.delayAfter RetryPolicy.quietSurroundings 0 (fiveThenOk 0) =
        some (.finite 5) := by
      have hsend : fiveThenOk 0 = .response { statusCode := 503, retryAfter := some "5" } := rfl
      rw [hsend, RetryPolicy.delayAfter, RetryPolicy.statusDelay, hparsed]
    exact Option.some.inj (hdelay.symm.trans hasked)
  change delay.min (.finite (minuteCall.finishBy - 0)) = _ at hmin
  rw [hfive, hfinish] at hmin
  norm_num [Number.min] at hmin

end NetixBackend.Http
