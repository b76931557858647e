import NetixBackend.ChangeHistory.FailedSave
import NetixBackend.ChangeHistory.Refresh

/-!
The cap of the trail.

A save appends its entry and stores `history[-cap:]`. For a positive cap that
is the last `cap` entries, whatever was in the row; `history[-0:]` is the whole
list, and a cap of zero bounds nothing.

The slice is taken of the trail in memory. That this is the stored one is
`InMemory`, and it needs `acceptedStep`: a refused save that had an entry to
write leaves it in memory.
-/

namespace NetixBackend.ChangeHistory

open Python Transition

namespace HistoryModel

variable (M : HistoryModel)

/-! ### Runs -/

inductive InstanceStep
  | assign (name : String) (value : FieldValue)
  | read (attname : String)
  | refresh (fields : Option (List String))
  | save (env : Env) (updateFields : Option (List String)) (verdict : Option PyError)

/-- The stored trail; of a new instance, the one it was built with. -/
def Writer.trail (s : Writer) : Trail := if s.inst.adding then s.inst.trail else s.row.trail

/-- One instance, new or loaded, whose trail no one assigns to. Saves may be
refused, by Django or by the database. -/
def instanceRuns (M : HistoryModel) : System Writer InstanceStep where
  init s := (s.inst.adding = true ∧ s.inst.deferred = []) ∨
    ∃ (defaults : String → FieldValue) (loaded : List String),
      (∀ a ∈ loaded, a ∈ M.columns) ∧ s.inst = M.fromDb s.row defaults loaded
  step s label t :=
    match label with
    | .assign name value =>
        M.historyAttname name ≠ historyColumn ∧ t = ⟨s.row, M.assign s.inst name value⟩
    | .read attname => t = ⟨s.row, M.read s.row s.inst attname⟩
    | .refresh fields => s.inst.adding = false ∧ t = ⟨s.row, M.refresh s.row fields s.inst⟩
    | .save env updateFields verdict =>
        t = ⟨(M.save env s.row updateFields verdict s.inst).row,
          (M.save env s.row updateFields verdict s.inst).inst⟩

/-- The condition on a step: a save is accepted, or has no entry to write. -/
def acceptedStep (M : HistoryModel) (s : Writer) : InstanceStep → Prop
  | .save env updateFields verdict =>
      (M.ReachesDatabase updateFields s.inst ∧ verdict = none) ∨
        M.entryFor env updateFields (M.settle s.row s.inst) = none
  | _ => True

/-! ### What the cap promises -/

/-- `after` is `before` with one more entry, cut to the newest `n`. -/
structure Capped (n : ℕ) (before after : Trail) (entry : Entry) : Prop where
  newest : after = some ((before.entries ++ [entry]).rtake n)
  bounded : after.entries.length ≤ n
  last : 1 ≤ n → after.entries.getLast? = some entry

/-- What one save does to the trail under a cap of `n`. -/
structure TrailSaved (n : ℕ) (s : Writer) (out : SaveOutcome) : Prop where
  written : out.raised = none → ∀ entry, out.entry = some entry →
    (Capped n s.trail out.row.trail entry ↔ 1 ≤ n)
  unwritten : out.raised = none → out.entry = none →
    (Writer.mk out.row out.inst).trail = s.trail
  refused : out.raised ≠ none → out.row.trail = s.row.trail

/-- What is read as the trail is what is stored; a new instance has loaded it
all. -/
structure InMemory (s : Writer) : Prop where
  whole : s.inst.adding = true → s.inst.deferred = []
  trail : s.inst.adding = false → trailSeen s.row s.inst = s.row.trail

variable {M} {n : ℕ} {env : Env} {s : Writer} {row : Row} {inst : Instance}
  {updateFields : Option (List String)} {verdict : Option PyError} {error : PyError}

theorem InMemory.trail_eq (h : InMemory s) : s.trail = trailSeen s.row s.inst := by
  unfold Writer.trail
  split
  · rename_i hadding
    exact trail_of_not_deferred (by simp [h.whole hadding]) s.row
  · rename_i hadding
    exact (h.trail (by simpa using hadding)).symm

/-- The slice keeps the newest `n`, unless `n` is zero. -/
theorem capped_appendEntry_iff (hcap : M.historyMaxEntries = n) (before : Trail) (entry : Entry) :
    Capped n before (some (M.appendEntry before.entries entry)) entry ↔ 1 ≤ n := by
  have hpush : M.appendEntry before.entries entry = CappedLog.push n before.entries entry := by
    rw [appendEntry, hcap, CappedLog.push]
  rw [hpush]
  constructor
  · intro h
    by_contra hzero
    obtain rfl : n = 0 := by omega
    have hbounded := h.bounded
    rw [Int.natCast_zero, CappedLog.push_zero] at hbounded
    simp [Trail.entries] at hbounded
  · intro hn
    have hlast : CappedLog.push n before.entries entry =
        before.entries.rtake (n - 1) ++ [entry] := by
      rw [CappedLog.push_of_pos hn, ← List.rtake_concat_succ, Nat.sub_add_cancel hn]
    have hpos : (0 : ℤ) < n := by omega
    have hlength := CappedLog.length_push hpos before.entries entry
    refine ⟨by rw [CappedLog.push_of_pos hn], ?_, fun _ => ?_⟩
    · change (CappedLog.push n before.entries entry).length ≤ n
      omega
    · change (CappedLog.push n before.entries entry).getLast? = some entry
      rw [hlast, List.getLast?_concat]

/-! ### One save -/

theorem adding_settle (row : Row) (inst : Instance) :
    (M.settle row inst).adding = inst.adding := by
  unfold settle
  split <;> rfl

/-- The relation is one of what the settled instance sees. -/
theorem InMemory.settle (h : InMemory s) : InMemory ⟨s.row, M.settle s.row s.inst⟩ where
  whole hadding := by
    have hnil := h.whole ((adding_settle s.row s.inst).symm.trans hadding)
    change (M.settle s.row s.inst).deferred = []
    rw [M.settle_of_trackedLoaded (M.trackedLoaded_of_deferred_nil hnil), hnil]
  trail hadding := by
    change trailSeen s.row (M.settle s.row s.inst) = s.row.trail
    rw [trailSeen_settle]
    exact h.trail ((adding_settle s.row s.inst).symm.trans hadding)

/-- Whether a save is accepted is known beforehand. -/
theorem save_accepted (hloaded : M.TrackedLoaded inst)
    (h : M.ReachesDatabase updateFields inst) :
    (M.save env row updateFields none inst).raised = none := by
  by_contra hraised
  obtain ⟨error, herror⟩ := Option.ne_none_iff_exists'.mp hraised
  obtain ⟨saved, hsaved, hmodel, -⟩ := save_raised hloaded herror
  rw [hsaved, modelSave_accepted ((reachesDatabase_prepared hloaded).mpr h)] at hmodel
  simp at hmodel

/-- What a refused save did to the instance, the trail apart, is to read it. -/
theorem reads_refused (hloaded : M.TrackedLoaded inst)
    (hraised : (M.save env row updateFields verdict inst).raised = some error) :
    M.Reads inst (M.save env row updateFields verdict inst).inst := by
  obtain ⟨saved, hsaved, hmodel, hout⟩ := save_raised hloaded hraised
  have hprep := M.reads_prepared row hloaded (M.entryFor env updateFields inst)
  rw [hout]
  rw [hsaved] at hmodel
  rcases (modelSave_raised hmodel).2 with ⟨-, hinst⟩ | ⟨-, hinst⟩
  · rw [← hsaved] at hinst
    rwa [hinst]
  · rw [← hsaved] at hinst
    rw [hinst]
    exact hprep.trans (reads_foldl row (hprep.trackedLoaded hloaded) _) hloaded

/-- What a save that goes through stores is the trail it read, and its entry
if it has one. -/
theorem InMemory.rowTrail {out : SaveOutcome} (h : InMemory ⟨row, inst⟩)
    (hsaved : M.Saved env row updateFields inst out) :
    out.row.trail = M.trailAfter row inst out.entry := by
  rw [hsaved.rowTrail]
  split
  · rfl
  · rename_i hkept
    simp only [Bool.or_eq_true, not_or, Bool.not_eq_true, Option.isSome_eq_false_iff,
      Option.isNone_iff_eq_none] at hkept
    obtain ⟨hentry, hstores⟩ := hkept
    have hadding : inst.adding = false := by
      by_contra hadding
      rw [Instance.writtenFields, if_pos (by simpa using hadding)] at hstores
      exact Bool.false_ne_true hstores.symm
    rw [hentry, trailAfter]
    exact (h.trail hadding).symm

theorem InMemory.trailSaved_of_loaded (h : InMemory ⟨row, inst⟩) (hloaded : M.TrackedLoaded inst)
    (hcap : M.historyMaxEntries = n) (env : Env) (updateFields : Option (List String))
    (verdict : Option PyError) :
    TrailSaved n ⟨row, inst⟩ (M.save env row updateFields verdict inst) := by
  have htrail : (Writer.mk row inst).trail = trailSeen row inst := h.trail_eq
  refine ⟨fun hok entry hentry => ?_, fun hok hentry => ?_, fun hraised => ?_⟩
  · rcases saved_or_skipped hloaded hok with hsaved | ⟨snapshot, hout⟩
    · rw [h.rowTrail hsaved, hentry, trailAfter, htrail]
      exact capped_appendEntry_iff hcap _ entry
    · simp [hout] at hentry
  · rcases saved_or_skipped hloaded hok with hsaved | ⟨snapshot, hout⟩
    · have hrow := h.rowTrail hsaved
      rw [hentry, trailAfter] at hrow
      simp only [Writer.trail, hsaved.adding, Bool.false_eq_true, if_false]
      exact hrow.trans htrail.symm
    · rw [hout]
      rfl
  · obtain ⟨error, herror⟩ := Option.ne_none_iff_exists'.mp hraised
    rw [(failed_save hloaded herror).unwritten]

/-- Whatever the save, the trail it leaves in the row is the trail before it,
or that and one entry under the cap. -/
theorem InMemory.trailSaved (h : InMemory s) (hcap : M.historyMaxEntries = n) (env : Env)
    (updateFields : Option (List String)) (verdict : Option PyError) :
    TrailSaved n s (M.save env s.row updateFields verdict s.inst) := by
  have hsettled := h.settle (M := M)
  have htrail : (Writer.mk s.row (M.settle s.row s.inst)).trail = s.trail := by
    rw [hsettled.trail_eq, h.trail_eq]
    exact trailSeen_settle s.row s.inst
  rw [← M.save_settle]
  obtain ⟨hwritten, hunwritten, hrefused⟩ := hsettled.trailSaved_of_loaded
    (M.trackedLoaded_settle s.row s.inst) hcap env updateFields verdict
  rw [htrail] at hwritten hunwritten
  exact ⟨hwritten, hunwritten, hrefused⟩

/-- The step lemma for a save: memory and row agree afterwards, if it was
accepted or had nothing to write. -/
theorem InMemory.save_of_loaded (h : InMemory ⟨row, inst⟩) (hloaded : M.TrackedLoaded inst)
    (haccepted : (M.ReachesDatabase updateFields inst ∧ verdict = none) ∨
      M.entryFor env updateFields inst = none) :
    InMemory ⟨(M.save env row updateFields verdict inst).row,
      (M.save env row updateFields verdict inst).inst⟩ := by
  cases hraised : (M.save env row updateFields verdict inst).raised with
  | none =>
      rcases saved_or_skipped hloaded hraised with hsaved | ⟨snapshot, hout⟩
      · refine ⟨fun hadding => ?_, fun _ => ?_⟩
        · exact absurd (hsaved.adding.symm.trans hadding) Bool.false_ne_true
        · exact hsaved.trailSeen.trans (h.rowTrail hsaved).symm
      · rw [hout]
        exact ⟨h.whole, h.trail⟩
  | some error =>
      have hfailed := failed_save hloaded hraised
      have hreads := reads_refused hloaded hraised
      have hentry : M.entryFor env updateFields inst = none := by
        refine haccepted.resolve_left ?_
        rintro ⟨hreaches, rfl⟩
        simp [save_accepted hloaded hreaches] at hraised
      rw [hfailed.unwritten]
      refine ⟨fun hadding => ?_, fun hadding => ?_⟩
      · have hnil := h.whole (hreads.adding.symm.trans hadding)
        refine List.eq_nil_iff_forall_not_mem.mpr fun a ha => ?_
        have hmem := hreads.deferred a ha
        simp [show inst.deferred = [] from hnil] at hmem
      · have htrail := hfailed.trail
        rw [hentry, trailAfter] at htrail
        exact htrail.trans (h.trail (hreads.adding.symm.trans hadding))

theorem InMemory.save (h : InMemory s)
    (haccepted : M.acceptedStep s (.save env updateFields verdict)) :
    InMemory ⟨(M.save env s.row updateFields verdict s.inst).row,
      (M.save env s.row updateFields verdict s.inst).inst⟩ := by
  rw [← M.save_settle]
  refine h.settle.save_of_loaded (M.trackedLoaded_settle s.row s.inst) ?_
  simpa only [acceptedStep, ReachesDatabase, adding_settle] using haccepted

/-! ### Runs of saves -/

theorem InMemory.refresh (h : InMemory s) (hadding : s.inst.adding = false)
    (fields : Option (List String)) : InMemory ⟨s.row, M.refresh s.row fields s.inst⟩ := by
  have hout := M.rebaselined_refreshFromDb s.row (M.reloads s.inst fields) s.inst
  refine ⟨fun hnew => ?_, fun _ => hout.trail (h.trail hadding)⟩
  exact absurd (hadding.symm.trans (hout.adding.symm.trans hnew)) Bool.false_ne_true

theorem inductive_inMemory :
    ((instanceRuns M).restrict M.acceptedStep).Inductive InMemory where
  init s h := by
    rcases h with ⟨hadding, hnil⟩ | ⟨defaults, loaded, hcolumns, hinst⟩
    · exact ⟨fun _ => hnil, fun h => absurd (h.symm.trans hadding) Bool.false_ne_true⟩
    · have hloaded := M.loaded_fromDb s.row defaults hcolumns
      rw [← hinst] at hloaded
      refine ⟨fun h => ?_, fun _ => hloaded.trail⟩
      exact absurd (hloaded.adding.symm.trans h) Bool.false_ne_true
  step s label t hs hstep := by
    obtain ⟨hguard, hstep⟩ := hstep
    cases label with
    | assign name value =>
        obtain ⟨hne, rfl⟩ := hstep
        refine ⟨fun hadding => ?_, fun hadding => ?_⟩
        · simp [HistoryModel.assign, hs.whole hadding]
        · rw [← hs.trail hadding]
          simp [trailSeen, HistoryModel.assign, Ne.symm hne]
    | read attname =>
        subst hstep
        have hadding : (M.read s.row s.inst attname).adding = s.inst.adding := by
          rw [M.read_eq]
          split <;> rfl
        refine ⟨fun h => ?_, fun h => ?_⟩
        · have hnil := hs.whole (hadding.symm.trans h)
          change (M.read s.row s.inst attname).deferred = []
          rw [read_of_loaded (by simp [hnil]), hnil]
        · change trailSeen s.row (M.read s.row s.inst attname) = _
          rw [trailSeen_read]
          exact hs.trail (hadding.symm.trans h)
    | refresh fields =>
        obtain ⟨hadding, rfl⟩ := hstep
        exact hs.refresh hadding fields
    | save env updateFields verdict =>
        subst hstep
        exact hs.save hguard

/-- In every run without a refused entry, the trail a save stores is the newest
`n` entries, exactly if `n` is not zero. -/
theorem trailSaved_of_reachable {n : ℕ} (hcap : M.historyMaxEntries = n) {s : Writer}
    (hs : ((instanceRuns M).restrict M.acceptedStep).Reachable s) (env : Env)
    (updateFields : Option (List String)) (verdict : Option PyError) :
    TrailSaved n s (M.save env s.row updateFields verdict s.inst) :=
  (inductive_inMemory.reachable hs).trailSaved hcap env updateFields verdict

/-- A widget loaded and relabelled, in the runs above. -/
theorem trailSaved_pendingWidget :
    TrailSaved 50 ⟨widgetRow, pendingWidget⟩
      (historyWidget.save ⟨"noon", {}⟩ widgetRow none none pendingWidget) := by
  let loaded : Writer :=
    ⟨widgetRow, historyWidget.fromDb widgetRow (fun _ => .none) historyWidget.columns⟩
  have hloaded : ((instanceRuns historyWidget).restrict historyWidget.acceptedStep).Reachable
      loaded := .of_init (.inr ⟨_, _, fun _ h => h, rfl⟩)
  have hedited : ((instanceRuns historyWidget).restrict historyWidget.acceptedStep).Reachable
      ⟨widgetRow, pendingWidget⟩ := hloaded.next
    (show ((instanceRuns historyWidget).restrict historyWidget.acceptedStep).step loaded
      (.assign "label" (.str "after")) _ from ⟨trivial, by decide, rfl⟩)
  exact trailSaved_of_reachable rfl hedited ⟨"noon", {}⟩ none none

/-! ### A cap of zero -/

def uncappedWidget : HistoryModel := { historyWidget with historyMaxEntries := 0 }

def uncappedRelabelled : Writer where
  row := widgetRow
  inst := uncappedWidget.assign
    (uncappedWidget.fromDb widgetRow (fun _ => .none) uncappedWidget.columns) "label"
    (.str "after")

/-- The row of a model that keeps no entry keeps this one. -/
theorem zero_cap_keeps_entry :
    (instanceRuns uncappedWidget).Reachable uncappedRelabelled ∧
      ∃ entry, (uncappedWidget.save ⟨"noon", {}⟩ uncappedRelabelled.row none none
          uncappedRelabelled.inst).entry = some entry ∧
        ¬ Capped 0 uncappedRelabelled.trail (uncappedWidget.save ⟨"noon", {}⟩ uncappedRelabelled.row
          none none uncappedRelabelled.inst).row.trail entry := by
  refine ⟨?_, ?_⟩
  · let loaded : Writer :=
      ⟨widgetRow, uncappedWidget.fromDb widgetRow (fun _ => .none) uncappedWidget.columns⟩
    have hloaded : (instanceRuns uncappedWidget).Reachable loaded :=
      .of_init (.inr ⟨_, _, fun _ h => h, rfl⟩)
    exact hloaded.next (show (instanceRuns uncappedWidget).step loaded
      (.assign "label" (.str "after")) uncappedRelabelled from ⟨by decide, rfl⟩)
  · have hentry : (uncappedWidget.save ⟨"noon", {}⟩ uncappedRelabelled.row none none
        uncappedRelabelled.inst).entry.isSome = true := by decide +kernel
    obtain ⟨entry, hentry⟩ := Option.isSome_iff_exists.mp hentry
    refine ⟨entry, hentry, fun hcapped => ?_⟩
    have hlength : (uncappedWidget.save ⟨"noon", {}⟩ uncappedRelabelled.row none none
        uncappedRelabelled.inst).row.trail.entries.length = 1 := by decide +kernel
    have hbounded := hcapped.bounded
    omega

end HistoryModel

end NetixBackend.ChangeHistory
