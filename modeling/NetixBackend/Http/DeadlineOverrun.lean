import NetixBackend.Http.DeadlineCap

/-!
How long a call under a deadline may take.

The deadline does not cap the call, since each phase of an attempt is cut down
to it on its own. It bounds the call all the same. The last attempt starts in
time; whichever of its phases is taken out, that one fits into what is left,
and the other three have their parts of the timeout, cut down to the deadline.
So no call takes longer beyond its deadline than its three shortest phases
(`overrun`), and one that gives some phase the whole budget can take just that.
-/

namespace NetixBackend.Http

open RetryPolicy

/-- The longest that the phases can take. -/
def PhaseLimits.waited (limits : PhaseLimits) : PhaseLimits where
  connect := max limits.connect 0
  read := max limits.read 0
  write := max limits.write 0
  pool := max limits.pool 0

def PhaseLimits.longest (limits : PhaseLimits) : ℚ :=
  max (max limits.pool limits.connect) (max limits.write limits.read)

def TimeoutArg.parts (timeout : TimeoutArg) : List (Option ℚ) :=
  [timeout.base.pool, timeout.base.connect, timeout.base.write, timeout.base.read]

theorem PhaseLimits.longest_cases (limits : PhaseLimits) :
    limits.longest = limits.pool ∨ limits.longest = limits.connect ∨
      limits.longest = limits.write ∨ limits.longest = limits.read := by
  unfold longest
  rcases max_choice (max limits.pool limits.connect) (max limits.write limits.read) with h | h
  · rw [h]
    rcases max_choice limits.pool limits.connect with h | h
    · exact .inl h
    · exact .inr (.inl h)
  · rw [h]
    rcases max_choice limits.write limits.read with h | h
    · exact .inr (.inr (.inl h))
    · exact .inr (.inr (.inr h))

/-- A part is cut down to what is left, and to no more than the deadline. -/
theorem cap_within (value : Option ℚ) {remaining deadline : ℚ} (hpos : 0 ≤ remaining)
    (hle : remaining ≤ deadline) :
    max (cap value remaining) 0 ≤ remaining ∧
      max (cap value remaining) 0 ≤ max (cap value deadline) 0 := by
  cases value with
  | none =>
      refine ⟨max_le le_rfl hpos, ?_⟩
      exact max_le_max hle le_rfl
  | some value =>
      refine ⟨max_le (min_le_right _ _) hpos, ?_⟩
      exact max_le_max (min_le_min le_rfl hle) le_rfl

/-- All phases take as long as they may. -/
def fullPhases : Spending where
  phases _ limits := limits.waited
  nonneg _ _ := ⟨le_max_right _ _, le_max_right _ _, le_max_right _ _, le_max_right _ _⟩
  bounded _ _ := ⟨le_rfl, le_rfl, le_rfl, le_rfl⟩

/-- The call is over by then; it starts nothing from the deadline on, and no
sleep lasts beyond it. -/
structure DeadlineRun.Within (run : DeadlineRun) (finishBy overrun : ℚ) : Prop where
  finish : run.finish ≤ finishBy + overrun
  sent : ∀ attempt now limits, .sent attempt now limits ∈ run.trace → now < finishBy
  slept : ∀ now delay, .slept now delay ∈ run.trace → now < finishBy ∧ now + delay ≤ finishBy

namespace DeadlineCall

/-- What each phase may take of the whole deadline. -/
def phaseCaps (call : DeadlineCall) : PhaseLimits :=
  (attemptTimeout call.timeout call.deadline).waited

/-- The three shortest phases. -/
def overrun (call : DeadlineCall) : ℚ := call.phaseCaps.total - call.phaseCaps.longest

/-- Some phase may take the whole of the deadline: its part of the timeout is
not set, or no shorter. -/
def GivesWhole (call : DeadlineCall) : Prop :=
  ∃ part ∈ call.timeout.parts, ∀ value ∈ part, call.deadline ≤ value

variable {call : DeadlineCall} {spending : Spending} {surroundings : Surroundings}
  {send : ℕ → SendOutcome} {kept : Kept} {attempt : ℕ} {now : ℚ}

theorem phaseCaps_le (hdeadline : 0 ≤ call.deadline) :
    call.phaseCaps.pool ≤ call.deadline ∧ call.phaseCaps.connect ≤ call.deadline ∧
      call.phaseCaps.write ≤ call.deadline ∧ call.phaseCaps.read ≤ call.deadline :=
  ⟨(cap_within _ hdeadline le_rfl).1, (cap_within _ hdeadline le_rfl).1,
    (cap_within _ hdeadline le_rfl).1, (cap_within _ hdeadline le_rfl).1⟩

theorem phaseCaps_nonneg (call : DeadlineCall) :
    0 ≤ call.phaseCaps.pool ∧ 0 ≤ call.phaseCaps.connect ∧ 0 ≤ call.phaseCaps.write ∧
      0 ≤ call.phaseCaps.read :=
  ⟨le_max_right _ _, le_max_right _ _, le_max_right _ _, le_max_right _ _⟩

theorem overrun_nonneg (call : DeadlineCall) : 0 ≤ call.overrun := by
  obtain ⟨hpool, hconnect, hwrite, hread⟩ := call.phaseCaps_nonneg
  rw [overrun, PhaseLimits.total]
  rcases call.phaseCaps.longest_cases with h | h | h | h <;> linarith

theorem overrun_le (hdeadline : 0 ≤ call.deadline) : call.overrun ≤ 3 * call.deadline := by
  obtain ⟨hpool, hconnect, hwrite, hread⟩ := phaseCaps_le hdeadline
  rw [overrun, PhaseLimits.total]
  rcases call.phaseCaps.longest_cases with h | h | h | h <;> linarith

/-! ### One attempt -/

/-- The longest phase fits into what is left, the others into their caps. -/
theorem spent_le (hcalled : call.called ≤ now) (hnow : now < call.finishBy) :
    now + spending.spent attempt (call.limitsAt now) ≤ call.finishBy + call.overrun := by
  have hpos : 0 ≤ call.finishBy - now := by linarith
  have hle : call.finishBy - now ≤ call.deadline := by
    rw [finishBy]
    linarith
  obtain ⟨hpool, hconnect, hwrite, hread⟩ := spending.bounded attempt (call.limitsAt now)
  obtain ⟨hpoolLeft, hpoolCap⟩ := cap_within call.timeout.base.pool hpos hle
  obtain ⟨hconnectLeft, hconnectCap⟩ := cap_within call.timeout.base.connect hpos hle
  obtain ⟨hwriteLeft, hwriteCap⟩ := cap_within call.timeout.base.write hpos hle
  obtain ⟨hreadLeft, hreadCap⟩ := cap_within call.timeout.base.read hpos hle
  rw [Spending.spent, PhaseLimits.total, overrun, PhaseLimits.total]
  change _ ≤ call.phaseCaps.pool at hpoolCap
  change _ ≤ call.phaseCaps.connect at hconnectCap
  change _ ≤ call.phaseCaps.write at hwriteCap
  change _ ≤ call.phaseCaps.read at hreadCap
  change _ ≤ max (cap call.timeout.base.pool (call.finishBy - now)) 0 at hpool
  change _ ≤ max (cap call.timeout.base.connect (call.finishBy - now)) 0 at hconnect
  change _ ≤ max (cap call.timeout.base.write (call.finishBy - now)) 0 at hwrite
  change _ ≤ max (cap call.timeout.base.read (call.finishBy - now)) 0 at hread
  -- the phase with the longest cap is bounded by what is left, the other three by theirs
  rcases call.phaseCaps.longest_cases with h | h | h | h
  · rw [h]
    linarith
  · rw [h]
    linarith
  · rw [h]
    linarith
  · rw [h]
    linarith

/-- An attempt at the start that takes as long as it may. -/
theorem spent_fullPhases : fullPhases.spent attempt (call.limitsAt call.called) =
    call.phaseCaps.total := by
  have hleft : call.finishBy - call.called = call.deadline := add_sub_cancel_left _ _
  rw [Spending.spent, limitsAt, hleft]
  rfl

theorem deadline_le_longest (h : call.GivesWhole) : call.deadline ≤ call.phaseCaps.longest := by
  have hcap : ∀ part : Option ℚ, (∀ value ∈ part, call.deadline ≤ value) →
      call.deadline ≤ max (cap part call.deadline) 0 := by
    intro part hpart
    cases part with
    | none => exact le_max_left _ _
    | some value => exact le_max_of_le_left (le_min (hpart value rfl) le_rfl)
  obtain ⟨part, hmem, hpart⟩ := h
  simp only [TimeoutArg.parts, List.mem_cons, List.not_mem_nil, or_false] at hmem
  rcases hmem with rfl | rfl | rfl | rfl
  · exact le_max_of_le_left (le_max_of_le_left (hcap _ hpart))
  · exact le_max_of_le_left (le_max_of_le_right (hcap _ hpart))
  · exact le_max_of_le_right (le_max_of_le_left (hcap _ hpart))
  · exact le_max_of_le_right (le_max_of_le_right (hcap _ hpart))

/-! ### Whole calls -/

theorem within_of_over (hle : now ≤ call.finishBy)
    (hover : call.policy.retries < attempt ∨ call.finishBy ≤ now) :
    (call.loop spending.clock surroundings send kept attempt now).Within call.finishBy
      call.overrun := by
  obtain ⟨trace, ending, htrace, hloop⟩ := @loop_of_over call spending surroundings send kept
    attempt now hover
  have hover := call.overrun_nonneg
  rw [hloop]
  refine ⟨?_, fun i t limits hmem => ?_, fun t delay hmem => ?_⟩
  · change now ≤ call.finishBy + call.overrun
    linarith
  · have hevent := htrace hmem
    simp at hevent
  · have hevent := htrace hmem
    simp at hevent

/-- The induction is on the attempts left; what carries it is that each starts
between the call and the deadline. -/
theorem within_loop (hcalled : call.called ≤ now) (hle : now ≤ call.finishBy) :
    (call.loop spending.clock surroundings send kept attempt now).Within call.finishBy
      call.overrun := by
  obtain ⟨n, hn⟩ : ∃ n : ℕ, call.policy.retries < attempt + n :=
    ⟨(call.policy.retries + 1 - attempt).toNat, by omega⟩
  induction n generalizing attempt now kept with
  | zero => exact within_of_over hle (.inl (by simpa using hn))
  | succ n ih =>
      by_cases hdone : call.policy.retries < attempt ∨ call.finishBy ≤ now
      · exact within_of_over hle hdone
      · obtain ⟨hbudget, hnow⟩ := not_or.mp hdone
        rw [not_lt] at hbudget
        rw [not_le] at hnow
        rcases @turn_cases call spending surroundings send kept attempt now hbudget hnow with
          ⟨trace, ending, htrace, hloop⟩ | ⟨hnot, hleft, jitter, delay, -, hsleep, hloop⟩
        · rw [hloop]
          refine ⟨spent_le hcalled hnow, fun i t limits hmem => ?_, fun t delay hmem => ?_⟩
          · have hevent := htrace hmem
            simp only [List.mem_cons, reduceCtorEq, List.not_mem_nil, or_false, false_or,
              DeadlineEvent.sent.injEq] at hevent
            exact hevent.2.1 ▸ hnow
          · have hevent := htrace hmem
            simp at hevent
        · obtain ⟨hdelay, hfits⟩ := sleepSeconds_min_le hsleep
          have hspent := spending.spent_nonneg attempt (call.limitsAt now)
          have hrest := @ih (kept.note attempt (send attempt)) (attempt + 1)
            (now + spending.spent attempt (call.limitsAt now) + delay) (by linarith) (by linarith)
            (by push_cast at hn ⊢; omega)
          rw [hloop]
          refine ⟨hrest.finish, fun i t limits hmem => ?_, fun t q hmem => ?_⟩
          · rcases List.mem_append.mp hmem with hmem | hmem
            · simp only [List.mem_cons, reduceCtorEq, List.not_mem_nil, or_false, false_or,
                DeadlineEvent.sent.injEq] at hmem
              exact hmem.2.1 ▸ hnow
            · exact hrest.sent i t limits hmem
          · rcases List.mem_append.mp hmem with hmem | hmem
            · simp only [List.mem_cons, reduceCtorEq, List.not_mem_nil, or_false, false_or,
                DeadlineEvent.slept.injEq] at hmem
              obtain ⟨rfl, rfl⟩ := hmem
              exact ⟨hleft, by linarith⟩
            · exact hrest.slept t q hmem

/-- Every call is over with the three shortest phases after its deadline, and
with no more than three times its deadline; where some phase is given the whole
of the deadline, no earlier bound holds. -/
theorem overrun_bounds (hdeadline : 0 < call.deadline) (surroundings : Surroundings)
    (send : ℕ → SendOutcome) :
    (∀ spending : Spending, (call.requestWithinDeadline spending.clock surroundings send).Within
      call.finishBy call.overrun) ∧
    call.overrun ≤ 3 * call.deadline ∧
    (0 ≤ call.policy.retries → call.GivesWhole →
      IsGreatest {finish | ∃ spending : Spending,
        finish = (call.requestWithinDeadline spending.clock surroundings send).finish}
        (call.finishBy + call.overrun)) := by
  have hcalled : call.called < call.finishBy := by
    rw [finishBy]
    linarith
  have hwithin : ∀ spending : Spending,
      (call.requestWithinDeadline spending.clock surroundings send).Within call.finishBy
        call.overrun := fun spending => within_loop le_rfl hcalled.le
  refine ⟨hwithin, overrun_le hdeadline.le, fun hretries hwhole => ⟨⟨fullPhases, ?_⟩, ?_⟩⟩
  · have hspent := @spent_le_finish call fullPhases surroundings send {} 0 call.called
      (by simpa using hretries) hcalled
    rw [spent_fullPhases] at hspent
    have hlongest := deadline_le_longest hwhole
    refine le_antisymm (le_trans ?_ hspent) (hwithin fullPhases).finish
    rw [overrun, finishBy]
    linarith
  · rintro finish ⟨spending, rfl⟩
    exact (hwithin spending).finish

end DeadlineCall

/-- Ten seconds a phase and ten in all can take forty. -/
theorem overrun_bounds_tenSeconds :
    IsGreatest {finish | ∃ spending : Spending,
      finish = (tenSeconds.requestWithinDeadline spending.clock quietSurroundings
        fun _ => .response { statusCode := 200 }).finish} 40 := by
  have hbounds := @DeadlineCall.overrun_bounds tenSeconds (by decide +kernel)
    quietSurroundings fun _ => .response { statusCode := 200 }
  have hwhole : tenSeconds.GivesWhole := ⟨some 10, by simp [tenSeconds, TimeoutArg.parts,
    TimeoutArg.base], by simp [tenSeconds]⟩
  have hforty : tenSeconds.finishBy + tenSeconds.overrun = 40 := by decide +kernel
  exact hforty ▸ hbounds.2.2 (by decide) hwhole

end NetixBackend.Http
