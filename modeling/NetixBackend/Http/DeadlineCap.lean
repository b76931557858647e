import NetixBackend.Http.DeadlineAgreement

/-!
Whether the deadline caps the whole call.

Time passes in the phases of an attempt and in the sleeps, and nowhere else. A
phase may take any time up to its own limit in the timeout the attempt was
given, so what an attempt may take in all is up to four times the remaining
budget: every part of the timeout is cut down to the budget, but they are not
cut down together. `StartsAt` is when the attempts of a call start, and
`capped_iff` says that the call is over by its deadline exactly when each of
them, the time at which it starts given, fits its phases into what is left.
What the loop does look at, it looks at rightly: no attempt and no sleep
starts at the deadline or after it, and no sleep outlasts it.
-/

namespace NetixBackend.Http

open Python RetryPolicy

/-- The time an attempt spends in each phase, given its limits. -/
structure Spending where
  phases : ℕ → PhaseLimits → PhaseLimits
  nonneg : ∀ attempt limits, 0 ≤ (phases attempt limits).pool ∧
    0 ≤ (phases attempt limits).connect ∧ 0 ≤ (phases attempt limits).write ∧
      0 ≤ (phases attempt limits).read
  /-- Each phase is bounded by its own limit. -/
  bounded : ∀ attempt limits,
    (phases attempt limits).pool ≤ max limits.pool 0 ∧
      (phases attempt limits).connect ≤ max limits.connect 0 ∧
        (phases attempt limits).write ≤ max limits.write 0 ∧
          (phases attempt limits).read ≤ max limits.read 0

/-- An attempt waits for the pool, connects, writes and reads. -/
def PhaseLimits.total (phases : PhaseLimits) : ℚ :=
  phases.pool + phases.connect + phases.write + phases.read

def Spending.spent (spending : Spending) (attempt : ℕ) (limits : PhaseLimits) : ℚ :=
  (spending.phases attempt limits).total

/-- The clock on which computation takes no time and a sleep exactly its delay. -/
def Spending.clock (spending : Spending) : Clock where
  opened now := now
  attempted attempt now limits := now + spending.spent attempt limits
  slept _ now delay := now + delay
  slept_ge _ _ _ := Rat.le_refl

theorem Spending.spent_nonneg (spending : Spending) (attempt : ℕ) (limits : PhaseLimits) :
    0 ≤ spending.spent attempt limits := by
  obtain ⟨hpool, hconnect, hwrite, hread⟩ := spending.nonneg attempt limits
  rw [spent, PhaseLimits.total]
  linarith

/-- The call is over by its deadline, and starts nothing from then on. -/
structure DeadlineRun.Capped (run : DeadlineRun) (finishBy : ℚ) : Prop where
  finish : run.finish ≤ finishBy
  sent : ∀ attempt now limits, .sent attempt now limits ∈ run.trace → now < finishBy
  slept : ∀ now delay, .slept now delay ∈ run.trace → now < finishBy

namespace DeadlineCall

/-- When the attempts of a call start: each after the sleep that follows the
one before. -/
inductive StartsAt (call : DeadlineCall) (spending : Spending) (surroundings : Surroundings)
    (send : ℕ → SendOutcome) : ℕ → ℚ → Prop
  | first (hretries : 0 ≤ call.policy.retries) (hnow : call.called < call.finishBy) :
      StartsAt call spending surroundings send 0 call.called
  | again {attempt : ℕ} {now delay : ℚ} {jitter : Number}
      (hstarts : StartsAt call spending surroundings send attempt now)
      (hnot : ¬ call.policy.Stops call.method send attempt)
      (hbudget : now + spending.spent attempt (call.limitsAt now) < call.finishBy)
      (hjitter : jitteredBackoff call.policy.backoffFactor attempt (surroundings.draw attempt) =
        some jitter)
      (hsleep : sleepSeconds (jitter.min (.finite
        (call.finishBy - (now + spending.spent attempt (call.limitsAt now))))) = some delay)
      (hnow : now + spending.spent attempt (call.limitsAt now) + delay < call.finishBy) :
      StartsAt call spending surroundings send (attempt + 1)
        (now + spending.spent attempt (call.limitsAt now) + delay)

/-- The phases of an attempt that starts at `now` fit into the budget left. -/
def Fits (call : DeadlineCall) (spending : Spending) (attempt : ℕ) (now : ℚ) : Prop :=
  spending.spent attempt (call.limitsAt now) ≤ call.finishBy - now

variable {call : DeadlineCall} {spending : Spending} {surroundings : Surroundings}
  {send : ℕ → SendOutcome} {kept : Kept} {attempt : ℕ} {now : ℚ}

theorem StartsAt.before (h : call.StartsAt spending surroundings send attempt now) :
    now < call.finishBy := by
  cases h with
  | first hretries hnow => exact hnow
  | again hstarts hnot hbudget hjitter hsleep hnow => exact hnow

theorem StartsAt.le_retries (h : call.StartsAt spending surroundings send attempt now) :
    (attempt : ℤ) ≤ call.policy.retries := by
  cases h with
  | first hretries hnow => exact hretries
  | again hstarts hnot hbudget hjitter hsleep hnow =>
      have hlt := (not_or.mp hnot).2
      omega

/-- A sleep is not longer than what it was cut down to. -/
theorem sleepSeconds_min_le {jitter : Number} {budget q : ℚ}
    (h : sleepSeconds (jitter.min (.finite budget)) = some q) : 0 ≤ q ∧ q ≤ budget := by
  obtain ⟨hmin, hsleeps⟩ := sleepSeconds_eq_some h
  rw [hmin] at hsleeps
  simp only [timeSleeps, decide_eq_true_eq] at hsleeps
  refine ⟨hsleeps.1, ?_⟩
  rw [Number.min] at hmin
  split at hmin
  · exact (Number.finite.inj hmin).ge
  · rename_i hnot
    rw [hmin, Number.lt_finite, decide_eq_true_eq] at hnot
    exact not_lt.mp hnot

/-! ### One turn of the loop -/

/-- A turn is the last and ends when its attempt does, or it sleeps within the
budget and the loop goes on. -/
theorem turn_cases (hbudget : (attempt : ℤ) ≤ call.policy.retries) (hnow : now < call.finishBy) :
    (∃ trace ending, trace ⊆ [.read now, .sent attempt now (call.limitsAt now),
        .read (now + spending.spent attempt (call.limitsAt now))] ∧
      call.loop spending.clock surroundings send kept attempt now =
        ⟨trace, ending, now + spending.spent attempt (call.limitsAt now)⟩) ∨
    (¬ call.policy.Stops call.method send attempt ∧
      now + spending.spent attempt (call.limitsAt now) < call.finishBy ∧
        ∃ jitter delay,
          jitteredBackoff call.policy.backoffFactor attempt (surroundings.draw attempt) =
            some jitter ∧
          sleepSeconds (jitter.min (.finite
            (call.finishBy - (now + spending.spent attempt (call.limitsAt now))))) = some delay ∧
          call.loop spending.clock surroundings send kept attempt now =
            (call.loop spending.clock surroundings send (kept.note attempt (send attempt))
              (attempt + 1) (now + spending.spent attempt (call.limitsAt now) + delay)).after
                [.read now, .sent attempt now (call.limitsAt now),
                  .read (now + spending.spent attempt (call.limitsAt now)),
                  .slept (now + spending.spent attempt (call.limitsAt now)) delay]) := by
  by_cases hstops : call.policy.Stops call.method send attempt
  · exact .inl ⟨_, _, by simp, loop_of_stops hbudget hnow hstops⟩
  · have hturn := @loop_of_not_stops call spending.clock surroundings send kept attempt now hnow
      hstops
    have hclock : spending.clock.attempted attempt now (call.limitsAt now) =
        now + spending.spent attempt (call.limitsAt now) := rfl
    rw [hclock] at hturn
    dsimp only at hturn
    by_cases hlate : call.finishBy ≤ now + spending.spent attempt (call.limitsAt now)
    · rw [if_pos hlate] at hturn
      exact .inl ⟨_, _, fun _ hmem => hmem, hturn⟩
    · rw [if_neg hlate] at hturn
      cases hjitter : jitteredBackoff call.policy.backoffFactor attempt
          (surroundings.draw attempt) with
      | none =>
          rw [hjitter] at hturn
          exact .inl ⟨_, _, fun _ hmem => hmem, hturn⟩
      | some jitter =>
          rw [hjitter] at hturn
          dsimp only at hturn
          cases hsleep : sleepSeconds (jitter.min (.finite
              (call.finishBy - (now + spending.spent attempt (call.limitsAt now))))) with
          | none =>
              rw [hsleep] at hturn
              exact .inl ⟨_, _, fun _ hmem => hmem, hturn⟩
          | some delay =>
              rw [hsleep] at hturn
              exact .inr ⟨hstops, not_le.mp hlate, jitter, delay, rfl, hsleep, hturn⟩

/-- With no attempt left or none of the budget the loop is over at once. -/
theorem loop_of_over (hover : call.policy.retries < attempt ∨ call.finishBy ≤ now) :
    ∃ trace ending, trace ⊆ [.read now] ∧
      call.loop spending.clock surroundings send kept attempt now = ⟨trace, ending, now⟩ := by
  rw [loop]
  split
  · exact ⟨_, _, List.nil_subset _, rfl⟩
  · rename_i hleft
    rw [if_pos (by linarith [hover.resolve_left hleft])]
    exact ⟨_, _, fun _ hmem => hmem, rfl⟩

/-! ### Whole calls -/

theorem now_le_finish :
    now ≤ (call.loop spending.clock surroundings send kept attempt now).finish := by
  obtain ⟨n, hn⟩ : ∃ n : ℕ, call.policy.retries < attempt + n :=
    ⟨(call.policy.retries + 1 - attempt).toNat, by omega⟩
  induction n generalizing attempt now kept with
  | zero =>
      obtain ⟨trace, ending, -, hloop⟩ := @loop_of_over call spending surroundings send kept attempt
        now (.inl (by simpa using hn))
      rw [hloop]
  | succ n ih =>
      by_cases hover : call.policy.retries < attempt ∨ call.finishBy ≤ now
      · obtain ⟨trace, ending, -, hloop⟩ := @loop_of_over call spending surroundings send kept
          attempt now hover
        rw [hloop]
      · obtain ⟨hbudget, hnow⟩ := not_or.mp hover
        have hspent := spending.spent_nonneg attempt (call.limitsAt now)
        rcases @turn_cases call spending surroundings send kept attempt now (not_lt.mp hbudget)
          (not_le.mp hnow) with
          ⟨trace, ending, -, hloop⟩ | ⟨hnot, hleft, jitter, delay, -, hsleep, hloop⟩
        · rw [hloop]
          change now ≤ now + spending.spent attempt (call.limitsAt now)
          linarith
        · rw [hloop]
          have hnext := @ih (kept.note attempt (send attempt)) (attempt + 1)
            (now + spending.spent attempt (call.limitsAt now) + delay) (by push_cast at hn ⊢; omega)
          have hdelay := (sleepSeconds_min_le hsleep).1
          change now ≤ (call.loop spending.clock surroundings send _ _ _).finish
          linarith

/-- An attempt that is started is waited for. -/
theorem spent_le_finish (hbudget : (attempt : ℤ) ≤ call.policy.retries)
    (hnow : now < call.finishBy) :
    now + spending.spent attempt (call.limitsAt now) ≤
      (call.loop spending.clock surroundings send kept attempt now).finish := by
  rcases @turn_cases call spending surroundings send kept attempt now hbudget hnow with
    ⟨trace, ending, -, hloop⟩ | ⟨hnot, hleft, jitter, delay, -, hsleep, hloop⟩
  · rw [hloop]
  · rw [hloop]
    have hdelay := (sleepSeconds_min_le hsleep).1
    have hnext := @now_le_finish call spending surroundings send
      (kept.note attempt (send attempt)) (attempt + 1)
      (now + spending.spent attempt (call.limitsAt now) + delay)
    change _ ≤ (call.loop spending.clock surroundings send _ _ _).finish
    linarith

/-- The call is over when what is left of it after any of its starts is. -/
theorem finish_of_startsAt (h : call.StartsAt spending surroundings send attempt now) :
    ∃ kept, (call.requestWithinDeadline spending.clock surroundings send).finish =
      (call.loop spending.clock surroundings send kept attempt now).finish := by
  induction h with
  | first hretries hnow => exact ⟨{}, rfl⟩
  | @again attempt now delay jitter hstarts hnot hbudget hjitter hsleep hnow ih =>
      obtain ⟨kept, hfinish⟩ := ih
      refine ⟨kept.note attempt (send attempt), ?_⟩
      rw [hfinish, @loop_of_slept call spending.clock surroundings send kept attempt now
        hstarts.before hnot hbudget jitter hjitter delay hsleep]
      rfl

/-- A loop that is over neither sends nor sleeps. -/
theorem capped_of_over (hle : now ≤ call.finishBy)
    (hover : call.policy.retries < attempt ∨ call.finishBy ≤ now) :
    (call.loop spending.clock surroundings send kept attempt now).Capped call.finishBy := by
  obtain ⟨trace, ending, htrace, hloop⟩ := @loop_of_over call spending surroundings send kept
    attempt now hover
  rw [hloop]
  refine ⟨hle, fun i t limits hmem => ?_, fun t delay hmem => ?_⟩
  · exact nomatch List.mem_singleton.mp (htrace hmem)
  · exact nomatch List.mem_singleton.mp (htrace hmem)

theorem capped_loop (hfits : ∀ attempt now,
      call.StartsAt spending surroundings send attempt now → call.Fits spending attempt now)
    (hle : now ≤ call.finishBy)
    (hstarts : (attempt : ℤ) ≤ call.policy.retries → now < call.finishBy →
      call.StartsAt spending surroundings send attempt now) :
    (call.loop spending.clock surroundings send kept attempt now).Capped call.finishBy := by
  obtain ⟨n, hn⟩ : ∃ n : ℕ, call.policy.retries < attempt + n :=
    ⟨(call.policy.retries + 1 - attempt).toNat, by omega⟩
  induction n generalizing attempt now kept with
  | zero => exact capped_of_over hle (.inl (by simpa using hn))
  | succ n ih =>
      by_cases hdone : call.policy.retries < attempt ∨ call.finishBy ≤ now
      · exact capped_of_over hle hdone
      · obtain ⟨hbudget, hnow⟩ := not_or.mp hdone
        rw [not_lt] at hbudget
        rw [not_le] at hnow
        have hstart := hstarts hbudget hnow
        have hfit : spending.spent attempt (call.limitsAt now) ≤ call.finishBy - now :=
          hfits attempt now hstart
        rcases @turn_cases call spending surroundings send kept attempt now hbudget hnow with
          ⟨trace, ending, htrace, hloop⟩ | ⟨hnot, hleft, jitter, delay, hjitter, hsleep, hloop⟩
        · rw [hloop]
          refine ⟨?_, fun i t limits hmem => ?_, fun t delay hmem => ?_⟩
          · change now + spending.spent attempt (call.limitsAt now) ≤ call.finishBy
            linarith
          · have hevent := htrace hmem
            simp only [List.mem_cons, reduceCtorEq, List.not_mem_nil, or_false, false_or,
              DeadlineEvent.sent.injEq] at hevent
            exact hevent.2.1 ▸ hnow
          · have hevent := htrace hmem
            simp at hevent
        · have hdelay := (sleepSeconds_min_le hsleep).2
          have hrest := @ih (kept.note attempt (send attempt)) (attempt + 1)
            (now + spending.spent attempt (call.limitsAt now) + delay) (by linarith)
            (fun hbudget' hnow' => .again hstart hnot hleft hjitter hsleep hnow')
            (by push_cast at hn ⊢; omega)
          rw [hloop]
          refine ⟨hrest.finish, fun i t limits hmem => ?_, fun t q hmem => ?_⟩
          · rcases List.mem_append.mp hmem with hmem | hmem
            · simp only [List.mem_cons, reduceCtorEq, List.not_mem_nil, or_false, false_or,
                DeadlineEvent.sent.injEq] at hmem
              exact hmem.2.1 ▸ hnow
            · exact hrest.sent i t limits hmem
          · rcases List.mem_append.mp hmem with hmem | hmem
            · simp only [List.mem_cons, reduceCtorEq, List.not_mem_nil, or_false, false_or,
                DeadlineEvent.slept.injEq] at hmem
              exact hmem.1 ▸ hleft
            · exact hrest.slept t q hmem

/-- The deadline caps the call exactly when each attempt that is started fits
its phases, all together, into what is left of the deadline at its start. -/
theorem capped_iff (hdeadline : 0 < call.deadline) :
    (call.requestWithinDeadline spending.clock surroundings send).Capped call.finishBy ↔
      ∀ attempt now, call.StartsAt spending surroundings send attempt now →
        call.Fits spending attempt now := by
  have hcalled : call.called < call.finishBy := by
    rw [finishBy]
    linarith
  constructor
  · intro hcapped attempt now hstarts
    obtain ⟨kept, hfinish⟩ := finish_of_startsAt hstarts
    have hspent := @spent_le_finish call spending surroundings send kept attempt now
      hstarts.le_retries hstarts.before
    have hover := hcapped.finish
    rw [hfinish] at hover
    rw [Fits]
    linarith
  · intro hfits
    exact capped_loop hfits hcalled.le fun hretries hnow => .first (by simpa using hretries) hnow

end DeadlineCall

/-! ### One slow phase, and two -/

/-- Connecting takes as long as it may, and reading too if `slowRead`. -/
def slowPhases (slowRead : Bool) : Spending where
  phases _ limits :=
    { connect := max limits.connect 0
      read := if slowRead then max limits.read 0 else 0
      write := 0
      pool := 0 }
  nonneg attempt limits := by cases slowRead <;> simp
  bounded attempt limits := by cases slowRead <;> simp

/-- One attempt with ten seconds for each phase, and ten in all. -/
def tenSeconds : DeadlineCall where
  policy := { retries := 0, backoffFactor := .finite 0 }
  method := "GET"
  timeout := .seconds 10
  deadline := 10

/-- A connection that takes its ten seconds and a body that takes its ten end
the call ten seconds after its deadline. -/
theorem two_slow_phases_overrun :
    (tenSeconds.requestWithinDeadline (slowPhases true).clock quietSurroundings
        fun _ => .response { statusCode := 200 }).finish = 20 ∧
      ¬ (tenSeconds.requestWithinDeadline (slowPhases true).clock quietSurroundings
        fun _ => .response { statusCode := 200 }).Capped tenSeconds.finishBy := by
  have hrun := @DeadlineCall.loop_of_stops tenSeconds (slowPhases true).clock quietSurroundings
    (fun _ => .response { statusCode := 200 }) {} 0 0 (by decide) (by decide +kernel)
    (.inr (by decide))
  have hfinish : (tenSeconds.requestWithinDeadline (slowPhases true).clock quietSurroundings
      fun _ => .response { statusCode := 200 }).finish = 20 := by
    refine (congrArg DeadlineRun.finish hrun).trans ?_
    decide +kernel
  refine ⟨hfinish, fun hcapped => ?_⟩
  have hover := hcapped.finish
  rw [hfinish] at hover
  exact absurd hover (by decide +kernel)

/-- With one slow phase the call is over in time. -/
theorem capped_tenSeconds :
    (tenSeconds.requestWithinDeadline (slowPhases false).clock quietSurroundings
      fun _ => .response { statusCode := 200 }).Capped tenSeconds.finishBy := by
  refine (DeadlineCall.capped_iff (by decide +kernel)).mpr fun attempt now hstarts => ?_
  have hspent : (slowPhases false).spent attempt (tenSeconds.limitsAt now) =
      max (min 10 (tenSeconds.finishBy - now)) 0 := by
    simp [Spending.spent, PhaseLimits.total, slowPhases, DeadlineCall.limitsAt, attemptTimeout,
      tenSeconds, TimeoutArg.base, cap]
  have hnow := hstarts.before
  rw [DeadlineCall.Fits, hspent]
  exact max_le (min_le_right _ _) (by linarith)

end NetixBackend.Http
