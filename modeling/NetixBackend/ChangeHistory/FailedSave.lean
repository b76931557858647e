import NetixBackend.ChangeHistory.Saves
import NetixBackend.Python.CappedLog

/-!
Saves that `Model.save` refuses.

`ChangeHistoryModel.save` appends its entry to the in-memory trail before it
calls `Model.save`, and nothing takes it back when that raises; the reads on
the way may re-baseline the snapshot as well. `failed_eq` says what a refused
save leaves, `BaseModel` only changes the error it is reported as, and
`auditKept_iff` is the exact condition under which trail and snapshot survive.
-/

namespace NetixBackend.ChangeHistory

open Python

namespace HistoryModel

variable (M : HistoryModel)

/-! ### Saving under `BaseModel` -/

/-- `BaseModel._ensure_updated_on`. The result is a set in the source: only
membership in it is ever asked for. -/
def ensureUpdatedOn (updateFields : Option (List String)) : Option (List String) :=
  updateFields.map fun names =>
    if names.contains "updated_on" then names else names ++ ["updated_on"]

/-- `except IntegrityError as error: raise ValidationError(str(error))`. -/
def asValidationError : PyError → PyError
  | .integrityError message => .validationError message
  | error => error

/-- `BaseModel.save` above `ChangeHistoryModel.save`. -/
def baseSave (env : Env) (row : Row) (updateFields : Option (List String))
    (verdict : Option PyError) (inst : Instance) : SaveOutcome :=
  let out := M.save env row (ensureUpdatedOn updateFields) verdict inst
  { out with raised := out.raised.map asValidationError }

/-- `BaseModel.asave`: `Model.asave` calls the instance's own `save` in a
thread. -/
def baseAsave (env : Env) (row : Row) (updateFields : Option (List String))
    (verdict : Option PyError) (inst : Instance) : SaveOutcome :=
  let out := M.baseSave env row (ensureUpdatedOn updateFields) verdict inst
  { out with raised := out.raised.map asValidationError }

/-- The ways to save an instance: the mixin alone, or under `BaseModel`. -/
inductive SavePath
  | alone
  | base
  | async

/-- The `update_fields` that reach `ChangeHistoryModel.save`. -/
def SavePath.fields (path : SavePath) (updateFields : Option (List String)) :
    Option (List String) :=
  match path with
  | .alone => updateFields
  | .base => ensureUpdatedOn updateFields
  | .async => ensureUpdatedOn (ensureUpdatedOn updateFields)

def saveVia (path : SavePath) (env : Env) (row : Row) (updateFields : Option (List String))
    (verdict : Option PyError) (inst : Instance) : SaveOutcome :=
  match path with
  | .alone => M.save env row updateFields verdict inst
  | .base => M.baseSave env row updateFields verdict inst
  | .async => M.baseAsave env row updateFields verdict inst

/-! ### What survives -/

/-- Trail and snapshot of the instance are as before the call. A deferred
trail counts as what reading it gives. -/
structure AuditKept (row : Row) (inst : Instance) (out : SaveOutcome) : Prop where
  trail : trailSeen out.row out.inst = trailSeen row inst
  snapshot : out.inst.snapshot = inst.snapshot

def ReachesDatabase (updateFields : Option (List String)) (inst : Instance) : Prop :=
  updateFields.any (fun names => !M.validNames names) = false ∧
    (updateFields.isSome && inst.adding && !M.pkDefault) = false

/-- Past the diff, the save fetches the trail to append to or a column it
names. -/
def FetchesLater (updateFields : Option (List String)) (inst : Instance)
    (entry : Option Entry) : Prop :=
  (entry.isSome = true ∧ historyColumn ∈ inst.deferred) ∨
    (M.ReachesDatabase updateFields inst ∧ ∃ names,
      inst.writtenFields updateFields = some names ∧ ∃ a ∈ M.namedColumns names, a ∈ inst.deferred)

/-- The condition: no entry is due, or appending it to the capped trail leaves
the trail as it is; and nothing is fetched, or the snapshot already holds the
values in memory. -/
structure NothingToLose (env : Env) (row : Row) (updateFields : Option (List String))
    (inst : Instance) : Prop where
  trail : ∀ entry, M.entryFor env updateFields (M.settle row inst) = some entry →
    some (M.appendEntry (trailSeen row inst).entries entry) = trailSeen row inst
  snapshot : ¬ M.TrackedLoaded inst ∨ M.FetchesLater updateFields inst
      (M.entryFor env updateFields (M.settle row inst)) →
    inst.snapshot = some (M.valuesOf (M.settle row inst).attrs)

variable {M} {env : Env} {row : Row} {inst : Instance} {updateFields : Option (List String)}
  {verdict : Option PyError} {error : PyError} {entry : Option Entry}

/-- Reading columns one by one re-baselines exactly if one of them is deferred. -/
theorem snapshot_foldl_read (row : Row) (hloaded : M.TrackedLoaded inst) (cols : List String) :
    (cols.foldl (M.read row) inst).snapshot =
      if ∃ a ∈ cols, a ∈ inst.deferred then some (M.valuesOf inst.attrs) else inst.snapshot := by
  induction cols generalizing inst with
  | nil => simp
  | cons a cols ih =>
      have hread := M.reads_read row hloaded a
      rw [List.foldl_cons, ih (hread.trackedLoaded hloaded), hread.valuesOf_eq hloaded]
      by_cases hmem : a ∈ inst.deferred
      · have hsnap : (M.read row inst a).snapshot = some (M.valuesOf inst.attrs) := by
          rw [← hread.valuesOf_eq hloaded, M.read_eq, if_pos hmem]
          rfl
        rw [hsnap, ite_self, if_pos ⟨a, by simp, hmem⟩]
      · rw [read_of_loaded hmem]
        simp [hmem]

theorem modelSave_raised (hraised : (M.modelSave row updateFields verdict inst).raised = some error) :
    (M.modelSave row updateFields verdict inst).row = row ∧
      ((¬ M.ReachesDatabase updateFields inst ∧
          (M.modelSave row updateFields verdict inst).inst = inst) ∨
        (M.ReachesDatabase updateFields inst ∧
          (M.modelSave row updateFields verdict inst).inst =
            ((inst.writtenFields updateFields).elim [] M.namedColumns).foldl (M.read row) inst)) := by
  unfold modelSave at hraised ⊢
  unfold ReachesDatabase
  split at hraised
  · simp at hraised
  · rename_i hempty
    rw [if_neg hempty]
    split at hraised
    · rename_i hvalid
      rw [if_pos hvalid]
      exact ⟨rfl, .inl ⟨by simp [hvalid], rfl⟩⟩
    · rename_i hvalid
      rw [if_neg hvalid]
      split at hraised
      · rename_i hinsert
        rw [if_pos hinsert]
        exact ⟨rfl, .inl ⟨by simp [hinsert], rfl⟩⟩
      · rename_i hinsert
        rw [if_neg hinsert]
        cases verdict with
        | none => simp at hraised
        | some error =>
            exact ⟨rfl, .inr ⟨⟨by simpa using hvalid, by simpa using hinsert⟩, rfl⟩⟩

/-- What passes Django's own checks is refused by the database or not at all. -/
theorem modelSave_accepted (h : M.ReachesDatabase updateFields inst) :
    (M.modelSave row updateFields none inst).raised = none := by
  obtain ⟨hvalid, hinsert⟩ := h
  unfold modelSave
  rw [hvalid, hinsert]
  split
  · rfl
  · rfl

theorem reachesDatabase_prepared (hloaded : M.TrackedLoaded inst) :
    M.ReachesDatabase (superFields updateFields entry) (M.prepared row inst entry) ↔
      M.ReachesDatabase updateFields inst := by
  have hsome : (superFields updateFields entry).isSome = updateFields.isSome := by
    cases entry <;> simp [superFields]
  rw [ReachesDatabase, ReachesDatabase, valid_superFields, hsome,
    (reads_prepared row hloaded entry).adding]

theorem snapshot_prepared (row : Row) (entry : Option Entry) (hloaded : M.TrackedLoaded inst) :
    (M.prepared row inst entry).snapshot =
      if entry.isSome = true ∧ historyColumn ∈ inst.deferred then some (M.valuesOf inst.attrs)
      else inst.snapshot := by
  cases entry with
  | none => simp [prepared]
  | some entry =>
      have hread := snapshot_foldl_read row hloaded [historyColumn]
      simpa [prepared] using hread

/-- Unless the trail was fetched to append to it, the columns `Model.save`
has to fetch are those the caller named. -/
theorem named_deferred_prepared
    (hkept : ¬ (entry.isSome = true ∧ historyColumn ∈ inst.deferred)) (names : List String) :
    (∃ a ∈ (superFields (some names) entry).elim [] M.namedColumns,
        a ∈ (M.prepared row inst entry).deferred) ↔
      ∃ a ∈ M.namedColumns names, a ∈ inst.deferred := by
  cases entry with
  | none => rfl
  | some entry =>
      have hmem : historyColumn ∉ inst.deferred := fun h => hkept ⟨rfl, h⟩
      simp only [superFields, prepared, Option.map_some, Option.elim_some, read_of_loaded hmem,
        mem_namedColumns_append]
      constructor
      · rintro ⟨a, ha | rfl, hdeferred⟩
        · exact ⟨a, ha, hdeferred⟩
        · exact absurd hdeferred hmem
      · rintro ⟨a, ha, hdeferred⟩
        exact ⟨a, .inl ha, hdeferred⟩

/-- All that a refused save of an instance with its tracked attributes loaded
leaves behind. -/
structure Failed (M : HistoryModel) (row : Row) (updateFields : Option (List String))
    (inst : Instance) (entry : Option Entry) (out : SaveOutcome) : Prop where
  unwritten : out.row = row
  trail : trailSeen row out.inst = M.trailAfter row inst entry
  fetched : M.FetchesLater updateFields inst entry →
    out.inst.snapshot = some (M.valuesOf inst.attrs)
  kept : ¬ M.FetchesLater updateFields inst entry → out.inst.snapshot = inst.snapshot

open Classical in
theorem snapshot_of_model {saved : Instance} {cols : List String} {reaches : Prop}
    (hloaded : M.TrackedLoaded inst)
    (hinst : (¬ reaches ∧ saved = M.prepared row inst entry) ∨
      (reaches ∧ saved = cols.foldl (M.read row) (M.prepared row inst entry))) :
    saved.snapshot =
      if reaches ∧ ∃ a ∈ cols, a ∈ (M.prepared row inst entry).deferred then
        some (M.valuesOf inst.attrs)
      else (M.prepared row inst entry).snapshot := by
  have hprep := M.reads_prepared row hloaded entry
  rcases hinst with ⟨hnot, rfl⟩ | ⟨hreaches, rfl⟩
  · rw [if_neg fun h => hnot h.1]
  · rw [snapshot_foldl_read row (hprep.trackedLoaded hloaded), hprep.valuesOf_eq hloaded]
    simp only [hreaches, true_and]

/-- A save raises what `Model.save` raised, and keeps what it had built. -/
theorem save_raised (hloaded : M.TrackedLoaded inst)
    (hraised : (M.save env row updateFields verdict inst).raised = some error) :
    ∃ saved, saved = M.modelSave row (superFields updateFields (M.entryFor env updateFields inst))
        verdict (M.prepared row inst (M.entryFor env updateFields inst)) ∧
      saved.raised = some error ∧ M.save env row updateFields verdict inst =
        ⟨saved.inst, saved.row, some error, M.entryFor env updateFields inst⟩ := by
  have hsave := M.prepareSave_eq env row updateFields inst
  rw [M.settle_of_trackedLoaded hloaded] at hsave
  obtain ⟨saved, hsaved⟩ : ∃ saved, saved = M.modelSave row
    (superFields updateFields (M.entryFor env updateFields inst)) verdict
    (M.prepared row inst (M.entryFor env updateFields inst)) := ⟨_, rfl⟩
  refine ⟨saved, hsaved, ?_⟩
  unfold save at hraised ⊢
  rw [hsave] at hraised ⊢
  dsimp only at hraised ⊢
  rw [← hsaved] at hraised ⊢
  cases hmodel : saved.raised with
  | none => simp [hmodel] at hraised
  | some error' =>
      simp only [hmodel, Option.some.injEq] at hraised
      rw [hraised]
      exact ⟨rfl, rfl⟩

theorem failed_save (hloaded : M.TrackedLoaded inst)
    (hraised : (M.save env row updateFields verdict inst).raised = some error) :
    M.Failed row updateFields inst (M.entryFor env updateFields inst)
      (M.save env row updateFields verdict inst) := by
  obtain ⟨saved, hsaved, hmodel, hout⟩ := save_raised hloaded hraised
  generalize M.entryFor env updateFields inst = entry at hsaved hout ⊢
  have hprep := M.reads_prepared row hloaded entry
  have hloaded' := hprep.trackedLoaded hloaded
  rw [hsaved] at hmodel
  obtain ⟨hrow, hinst⟩ := modelSave_raised hmodel
  rw [← hsaved] at hrow hinst
  rw [reachesDatabase_prepared hloaded, writtenFields_prepared hloaded] at hinst
  rw [hout]
  have hsnap := snapshot_prepared row entry hloaded
  refine ⟨hrow, ?_, ?_, ?_⟩
  · rcases hinst with ⟨-, hinst⟩ | ⟨-, hinst⟩
    · rw [hinst, trailSeen_prepared]
    · rw [hinst, trailSeen_foldl, trailSeen_prepared]
  · intro hfetches
    rw [snapshot_of_model hloaded hinst]
    split
    · rfl
    · rename_i hread
      rw [hsnap, if_pos]
      by_contra hkept
      obtain ⟨hreaches, names, hnames, hmem⟩ := hfetches.resolve_left hkept
      rw [hnames] at hread
      exact hread ⟨hreaches, (named_deferred_prepared hkept names).mpr hmem⟩
  · intro hnot
    obtain ⟨hkept, hread⟩ := not_or.mp hnot
    rw [snapshot_of_model hloaded hinst, if_neg, hsnap, if_neg hkept]
    rintro ⟨hreaches, hmem⟩
    cases hnames : inst.writtenFields updateFields with
    | none =>
        rw [hnames] at hmem
        cases entry <;> simp [superFields] at hmem
    | some names =>
        rw [hnames] at hmem
        exact hread ⟨hreaches, names, hnames, (named_deferred_prepared hkept names).mp hmem⟩

/-! ### When trail and snapshot survive -/

theorem trailSeen_settle (row : Row) (inst : Instance) :
    trailSeen row (M.settle row inst) = trailSeen row inst := by
  unfold settle
  split
  · exact trailSeen_fetch row _ inst
  · rfl

theorem snapshot_settle (hnot : ¬ M.TrackedLoaded inst) :
    (M.settle row inst).snapshot = some (M.valuesOf (M.settle row inst).attrs) := by
  have hany : inst.deferred.any M.trackedAttnames.contains = true := by
    by_contra hany
    refine hnot fun a ha hmem => hany (List.any_eq_true.mpr ⟨a, hmem, ?_⟩)
    simpa using ha
  rw [settle, if_pos hany]
  rfl

theorem snapshot_failed (hraised : (M.save env row updateFields verdict inst).raised = some error) :
    ((¬ M.TrackedLoaded inst ∨
        M.FetchesLater updateFields inst (M.entryFor env updateFields (M.settle row inst))) →
      (M.save env row updateFields verdict inst).inst.snapshot =
        some (M.valuesOf (M.settle row inst).attrs)) ∧
    (¬ (¬ M.TrackedLoaded inst ∨
        M.FetchesLater updateFields inst (M.entryFor env updateFields (M.settle row inst))) →
      (M.save env row updateFields verdict inst).inst.snapshot = inst.snapshot) := by
  by_cases hloaded : M.TrackedLoaded inst
  · have hfailed := failed_save hloaded hraised
    rw [M.settle_of_trackedLoaded hloaded]
    exact ⟨fun h => hfailed.fetched (h.resolve_left (not_not.mpr hloaded)),
      fun h => hfailed.kept (not_or.mp h).2⟩
  · refine ⟨fun _ => ?_, fun h => absurd (.inl hloaded) h⟩
    rw [← M.save_settle] at hraised ⊢
    have hfailed := failed_save (M.trackedLoaded_settle row inst) hraised
    by_cases hlater : M.FetchesLater updateFields (M.settle row inst)
        (M.entryFor env updateFields (M.settle row inst))
    · exact hfailed.fetched hlater
    · rw [hfailed.kept hlater, snapshot_settle hloaded]

theorem auditKept_save_iff (hraised : (M.save env row updateFields verdict inst).raised = some error) :
    AuditKept row inst (M.save env row updateFields verdict inst) ↔
      M.NothingToLose env row updateFields inst := by
  obtain ⟨hfetched, hkept⟩ := snapshot_failed hraised
  have htrail : trailSeen (M.save env row updateFields verdict inst).row
      (M.save env row updateFields verdict inst).inst =
        M.trailAfter row (M.settle row inst)
          (M.entryFor env updateFields (M.settle row inst)) := by
    rw [← M.save_settle] at hraised ⊢
    have hfailed := failed_save (M.trackedLoaded_settle row inst) hraised
    rw [hfailed.unwritten, hfailed.trail]
  have hseen := trailSeen_settle (M := M) row inst
  constructor
  · rintro ⟨hsame, hsnap⟩
    refine ⟨fun entry hentry => ?_, fun hfetches => ?_⟩
    · rw [htrail, hentry, trailAfter, hseen] at hsame
      exact hsame
    · rw [← hsnap, hfetched hfetches]
  · rintro ⟨hsame, hsnap⟩
    refine ⟨?_, ?_⟩
    · rw [htrail]
      cases hentry : M.entryFor env updateFields (M.settle row inst) with
      | none => exact hseen
      | some entry => rw [trailAfter, hseen, hsame entry hentry]
    · by_cases hfetches : ¬ M.TrackedLoaded inst ∨
          M.FetchesLater updateFields inst (M.entryFor env updateFields (M.settle row inst))
      · rw [hfetched hfetches, hsnap hfetches]
      · exact hkept hfetches

theorem saveVia_eq (M : HistoryModel) (path : SavePath) (env : Env) (row : Row)
    (updateFields : Option (List String)) (verdict : Option PyError) (inst : Instance) :
    ((M.saveVia path env row updateFields verdict inst).raised.isSome =
        (M.save env row (path.fields updateFields) verdict inst).raised.isSome) ∧
      (M.saveVia path env row updateFields verdict inst).inst =
        (M.save env row (path.fields updateFields) verdict inst).inst ∧
      (M.saveVia path env row updateFields verdict inst).row =
        (M.save env row (path.fields updateFields) verdict inst).row := by
  cases path <;> simp [saveVia, baseSave, baseAsave, SavePath.fields]

/-- A save that raises, alone or under `BaseModel`, leaves trail and snapshot
as they were exactly when it had nothing to lose. -/
theorem auditKept_iff (path : SavePath)
    (hraised : (M.saveVia path env row updateFields verdict inst).raised.isSome = true) :
    AuditKept row inst (M.saveVia path env row updateFields verdict inst) ↔
      M.NothingToLose env row (path.fields updateFields) inst := by
  obtain ⟨hsome, hinst, hrow⟩ := saveVia_eq M path env row updateFields verdict inst
  rw [hsome] at hraised
  obtain ⟨error, herror⟩ := Option.isSome_iff_exists.mp hraised
  rw [← auditKept_save_iff herror]
  constructor
  · rintro ⟨htrail, hsnap⟩
    exact ⟨by rwa [hinst, hrow] at htrail, by rwa [hinst] at hsnap⟩
  · rintro ⟨htrail, hsnap⟩
    exact ⟨by rwa [hinst, hrow], by rwa [hinst]⟩

/-! ### Retrying -/

/-- A `Model.save` the database refuses hands a wholly loaded instance back
as it got it. -/
theorem modelSave_refused (M : HistoryModel) (row : Row) (error : PyError)
    (hdeferred : inst.deferred = []) (hnames : updateFields ≠ some []) :
    (M.modelSave row updateFields (some error) inst).inst = inst ∧
      (M.modelSave row updateFields (some error) inst).raised.isSome = true := by
  have hread : ∀ cols : List String, cols.foldl (M.read row) inst = inst :=
    fun cols => foldl_read_of_loaded fun a _ => by simp [hdeferred]
  unfold modelSave
  rw [if_neg hnames]
  split
  · exact ⟨rfl, rfl⟩
  · split
    · exact ⟨rfl, rfl⟩
    · exact ⟨hread _, rfl⟩

/-- The step lemma: a failed attempt leaves everything as it was, and its
entry in the trail. -/
theorem failed_attempt {entry : Entry} (hdeferred : inst.deferred = [])
    (hentry : M.entryFor env updateFields inst = some entry) :
    (M.save env row updateFields (some error) inst).inst =
      { inst with trail := some (M.appendEntry inst.trail.entries entry) } := by
  have hloaded : M.TrackedLoaded inst := M.trackedLoaded_of_deferred_nil hdeferred
  have hprep : M.prepared row inst (some entry) =
      { inst with trail := some (M.appendEntry inst.trail.entries entry) } := by
    rw [prepared, read_of_loaded (by simp [hdeferred]), trailAfter, trailSeen,
      if_neg (by simp [hdeferred])]
  have hnames : superFields updateFields (some entry) ≠ some [] := by
    cases updateFields <;> simp [superFields]
  have hdeferred' : (M.prepared row inst (some entry)).deferred = [] := by rw [hprep, hdeferred]
  obtain ⟨hinst, hraised⟩ := modelSave_refused M row error hdeferred' hnames
  obtain ⟨error', herror'⟩ := Option.isSome_iff_exists.mp hraised
  unfold save
  rw [M.prepareSave_eq, M.settle_of_trackedLoaded hloaded]
  dsimp only
  rw [hentry, herror']
  exact hinst.trans hprep

def attempts (M : HistoryModel) (row : Row) (updateFields : Option (List String))
    (failures : List (Env × PyError)) (inst : Instance) : Instance :=
  failures.foldl (fun inst failure =>
    (M.save failure.1 row updateFields (some failure.2) inst).inst) inst

/-- The run lemma: every failed attempt adds an entry for the same edits. -/
theorem attempts_spec (row : Row) (failures : List (Env × PyError)) (hdeferred : inst.deferred = [])
    (hadding : inst.adding = false) (hrecords : M.Records updateFields inst) :
    ∃ trail log, M.attempts row updateFields failures inst = { inst with trail := trail } ∧
      trail.entries = CappedLog.pushAll M.historyMaxEntries inst.trail.entries log ∧
        log.length = failures.length ∧
          ∀ entry ∈ log, ∃ env, M.entryFor env updateFields inst = some entry := by
  induction failures generalizing inst with
  | nil => exact ⟨inst.trail, [], rfl, rfl, rfl, by simp⟩
  | cons failure failures ih =>
      obtain ⟨env, error⟩ := failure
      obtain ⟨entry, hentry⟩ := M.exists_entryFor env hadding hrecords
      let next : Instance := { inst with trail := some (M.appendEntry inst.trail.entries entry) }
      have hstep : M.attempts row updateFields ((env, error) :: failures) inst =
          M.attempts row updateFields failures next := by
        change M.attempts row updateFields failures
          (M.save env row updateFields (some error) inst).inst = _
        rw [failed_attempt hdeferred hentry]
      obtain ⟨trail, log, hinst, htrail, hlen, hlog⟩ := @ih next hdeferred hadding hrecords
      refine ⟨trail, entry :: log, hstep.trans hinst, htrail, by simp [hlen], fun e he => ?_⟩
      rcases List.mem_cons.mp he with rfl | he
      · exact ⟨env, hentry⟩
      · exact hlog e he

/-- However many attempts failed, the save that succeeds stores an entry for
each of them besides its own. -/
theorem retries_store_each (failures : List (Env × PyError)) (hdeferred : inst.deferred = [])
    (hadding : inst.adding = false) (hrecords : M.Records updateFields inst)
    (hok : (M.save env row updateFields none
      (M.attempts row updateFields failures inst)).raised = none) :
    ∃ log : List Entry, log.length = failures.length + 1 ∧
      (M.save env row updateFields none
        (M.attempts row updateFields failures inst)).row.trail.entries =
          CappedLog.pushAll M.historyMaxEntries inst.trail.entries log ∧
        ∀ entry ∈ log, ∃ env, M.entryFor env updateFields inst = some entry := by
  obtain ⟨trail, log, hinst, htrail, hlen, hlog⟩ :=
    attempts_spec row failures hdeferred hadding hrecords
  rw [hinst] at hok ⊢
  obtain ⟨entry, hentry⟩ := M.exists_entryFor env hadding hrecords
  have hentry' : M.entryFor env updateFields { inst with trail := trail } = some entry := hentry
  have hloaded : M.TrackedLoaded { inst with trail := trail } :=
    M.trackedLoaded_of_deferred_nil hdeferred
  have hsaved := save_ok hloaded (by simp [hadding]) hok
  have hrow := hsaved.rowTrail
  rw [hsaved.entry, hentry', Option.isSome_some, Bool.true_or, if_pos rfl, trailAfter, trailSeen,
    if_neg (by simp [hdeferred])] at hrow
  refine ⟨log ++ [entry], by simp [hlen], ?_, fun e he => ?_⟩
  · rw [hrow, CappedLog.pushAll_append, ← htrail]
    rfl
  · rcases List.mem_append.mp he with he | he
    · exact hlog e he
    · exact ⟨env, List.mem_singleton.mp he ▸ hentry⟩

/-! ### One refused save -/

def pendingWidget : Instance :=
  historyWidget.assign (historyWidget.fromDb widgetRow (fun _ => .none) historyWidget.columns)
    "label" (.str "after")

/-- The database refuses the save of the new label: the caller gets a
`ValidationError`, and the trail in memory keeps the entry. -/
theorem refused_save_keeps_entry :
    (historyWidget.saveVia .base ⟨"noon", {}⟩ widgetRow none
        (some (.integrityError "duplicate key")) pendingWidget).raised =
      some (.validationError "duplicate key") ∧
    ¬ AuditKept widgetRow pendingWidget (historyWidget.saveVia .base ⟨"noon", {}⟩ widgetRow none
        (some (.integrityError "duplicate key")) pendingWidget) := by
  refine ⟨by decide +kernel, fun hkept => ?_⟩
  have hbefore : (trailSeen widgetRow pendingWidget).entries.length = 0 := by decide +kernel
  have hafter : (trailSeen (historyWidget.saveVia .base ⟨"noon", {}⟩ widgetRow none
      (some (.integrityError "duplicate key")) pendingWidget).row
      (historyWidget.saveVia .base ⟨"noon", {}⟩ widgetRow none
        (some (.integrityError "duplicate key")) pendingWidget).inst).entries.length = 1 := by
    decide +kernel
  rw [hkept.trail, hbefore] at hafter
  exact absurd hafter (by decide)

theorem refused_payload_keeps_audit :
    AuditKept widgetRow pendingWidget (historyWidget.saveVia .base ⟨"noon", {}⟩ widgetRow
      (some ["payload"]) (some (.integrityError "duplicate key")) pendingWidget) := by
  have hnone : historyWidget.entryFor ⟨"noon", {}⟩ (some ["payload", "updated_on"])
      (historyWidget.settle widgetRow pendingWidget) = none :=
    Option.isNone_iff_eq_none.mp (by decide +kernel)
  refine (auditKept_iff .base (by decide +kernel)).mpr ⟨fun entry hentry => ?_, fun hfetches => ?_⟩
  · rw [show SavePath.base.fields (some ["payload"]) = some ["payload", "updated_on"] by decide,
      hnone] at hentry
    exact absurd hentry (by simp)
  · have hdeferred : pendingWidget.deferred = [] := by decide +kernel
    rcases hfetches with hnot | ⟨-, hmem⟩ | ⟨-, names, -, a, -, hmem⟩
    · exact absurd (historyWidget.trackedLoaded_of_deferred_nil hdeferred) hnot
    · simp [hdeferred] at hmem
    · simp [hdeferred] at hmem

end HistoryModel

end NetixBackend.ChangeHistory
