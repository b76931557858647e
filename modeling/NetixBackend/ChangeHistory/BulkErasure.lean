import NetixBackend.ChangeHistory.BulkUpdate
import NetixBackend.Transition.Simulation

/-!
Bulk updates among the assignments, reads, refreshes and saves of one instance.

A bulk update moves the row, and of the instance `updated_on` alone, so nothing
the instance does afterwards can tell it from an assignment. A run with bulk
updates is therefore beside the run with these assignments in their place
(`simulates_bulkRuns`): memory, snapshot and entries are the same, and the two
rows differ at most in the columns stored in bulk that no save has written since
(`BulkRun.behind`). The next save that writes such a column records it as a
change from the value the last save left; a refresh that reloads it first takes
the bulk value for the baseline, and then no save does.
-/

namespace NetixBackend.ChangeHistory

open Python Transition

namespace HistoryModel

/-- Two rows alike but for some columns. -/
structure AlikeBut (columns : List String) (row row' : Row) : Prop where
  cells : ∀ a, a ∉ columns → row.cells a = row'.cells a
  trail : historyColumn ∉ columns → row.trail = row'.trail

/-- One call of `stamp_and_update`, the instance that is followed left out of
the objects. -/
structure BulkCall (ι : Type*) where
  queryset : QuerySet ι
  before : List (Option ι × Instance) := []
  after : List (Option ι × Instance) := []
  fields : List String
  batchSize : Option ℤ := none
  now : FieldValue

def BulkCall.objs {ι : Type*} (call : BulkCall ι) (key : ι) (inst : Instance) :
    List (Option ι × Instance) := call.before ++ (some key, inst) :: call.after

/-- The instance, its row, and the columns stored in bulk that no save has
written since. -/
structure BulkRun where
  writer : Writer
  behind : List String := []

inductive BulkStep (ι : Type*)
  | plain (step : InstanceStep)
  | bulk (call : BulkCall ι)

variable (M : HistoryModel)

/-- The columns still behind after a save. -/
def stillBehind (behind : List String) (updateFields : Option (List String))
    (out : SaveOutcome) : List String :=
  if out.raised.isSome then behind
  else behind.filter fun a => !M.stores (superFields updateFields out.entry) a

def BulkRun.behindAfter (M : HistoryModel) (s : BulkRun) : InstanceStep → List String
  | .save env updateFields verdict =>
      M.stillBehind s.behind updateFields
        (M.save env s.writer.row updateFields verdict s.writer.inst)
  | _ => s.behind

/-- `instanceRuns` with bulk updates among the steps, of objects of different
rows. -/
def bulkRuns {ι : Type*} [DecidableEq ι] (M : HistoryModel) (key : ι) :
    System BulkRun (BulkStep ι) where
  init s := (instanceRuns M).init s.writer ∧ s.behind = []
  step s label t :=
    match label with
    | .plain step => (instanceRuns M).step s.writer step t.writer ∧
        t.behind = BulkRun.behindAfter M s step
    | .bulk call => call.queryset.rows key = s.writer.row ∧
        ((call.objs key s.writer.inst).map Prod.fst).Nodup ∧
        ∃ out count, out = M.stampAndUpdate call.queryset (call.objs key s.writer.inst) call.fields
            call.batchSize call.now ∧ out.result = .ok count ∧ t.writer.row = out.rows key ∧
          out.objs[call.before.length]? = some (some key, t.writer.inst) ∧
          t.behind = s.behind ++ M.bulkColumns (stamped call.fields)

/-- The condition on a step: a refresh reloads no column that is behind, and a
bulk update is one of a stored instance and fetches nothing. -/
def leavesBehind {ι : Type*} (M : HistoryModel) (s : BulkRun) : BulkStep ι → Prop
  | .plain (.refresh fields) => ∀ a ∈ s.behind, M.reloads s.writer.inst fields a = false
  | .plain _ => True
  | .bulk call => ∀ a ∈ M.bulkColumns (stamped call.fields), a ∉ s.writer.inst.deferred

variable {M} {columns : List String} {row row' : Row} {inst : Instance}

/-! ### Reads of rows that are alike -/

theorem AlikeBut.loadColumns (h : AlikeBut columns row row') {cols : String → Bool}
    (hcols : ∀ a ∈ columns, cols a = false) :
    inst.loadColumns row cols = inst.loadColumns row' cols := by
  have hout : ∀ a, cols a = true → a ∉ columns := fun a ha hmem =>
    Bool.false_ne_true ((hcols a hmem).symm.trans ha)
  rw [Instance.loadColumns, Instance.loadColumns, Instance.mk.injEq]
  refine ⟨funext fun a => ?_, rfl, ?_, rfl, rfl, rfl⟩
  · split
    · rename_i ha
      exact h.cells a (hout a ha)
    · rfl
  · split
    · rename_i ha
      exact h.trail (hout historyColumn ha)
    · rfl

theorem AlikeBut.fetch (h : AlikeBut columns row row')
    (hloaded : ∀ a ∈ columns, a ∉ inst.deferred) (extra : String → Bool) :
    M.fetch row extra inst = M.fetch row' extra inst :=
  h.loadColumns fun a ha => by simp [due, hloaded a ha]

theorem AlikeBut.settle (h : AlikeBut columns row row')
    (hloaded : ∀ a ∈ columns, a ∉ inst.deferred) : M.settle row inst = M.settle row' inst := by
  rw [HistoryModel.settle, HistoryModel.settle, h.fetch hloaded]

theorem AlikeBut.read (h : AlikeBut columns row row')
    (hloaded : ∀ a ∈ columns, a ∉ inst.deferred) (attname : String) :
    M.read row inst attname = M.read row' inst attname := by
  rw [M.read_eq, M.read_eq, h.fetch hloaded]

theorem mem_deferred_read {a attname : String} (h : a ∈ (M.read row inst attname).deferred) :
    a ∈ inst.deferred := by
  rw [M.read_eq] at h
  split at h
  · change a ∈ (M.fetch row _ inst).deferred at h
    rw [M.deferred_fetch] at h
    exact List.mem_of_mem_filter h
  · exact h

theorem mem_deferred_settle {a : String} (h : a ∈ (M.settle row inst).deferred) :
    a ∈ inst.deferred := by
  unfold HistoryModel.settle at h
  split at h
  · change a ∈ (M.fetch row _ inst).deferred at h
    rw [M.deferred_fetch] at h
    exact List.mem_of_mem_filter h
  · exact h

theorem mem_deferred_foldl {cols : List String} {a : String}
    (h : a ∈ (cols.foldl (M.read row) inst).deferred) : a ∈ inst.deferred := by
  induction cols generalizing inst with
  | nil => exact h
  | cons b cols ih => exact mem_deferred_read (ih h)

theorem AlikeBut.foldl_read (h : AlikeBut columns row row')
    (hloaded : ∀ a ∈ columns, a ∉ inst.deferred) (cols : List String) :
    cols.foldl (M.read row) inst = cols.foldl (M.read row') inst := by
  induction cols generalizing inst with
  | nil => rfl
  | cons b cols ih =>
      rw [List.foldl_cons, List.foldl_cons, ← h.read hloaded]
      exact ih fun a ha hmem => hloaded a ha (mem_deferred_read hmem)

/-! ### Saves of rows that are alike -/

variable {env : Env} {updateFields : Option (List String)} {verdict : Option PyError}
  {entry : Option Entry}

theorem AlikeBut.trailSeen (h : AlikeBut columns row row')
    (hloaded : ∀ a ∈ columns, a ∉ inst.deferred) : trailSeen row inst = trailSeen row' inst := by
  unfold ChangeHistory.HistoryModel.trailSeen
  split
  · rename_i hmem
    exact h.trail fun hcolumn => hloaded historyColumn hcolumn hmem
  · rfl

theorem AlikeBut.prepared (h : AlikeBut columns row row')
    (hloaded : ∀ a ∈ columns, a ∉ inst.deferred) (entry : Option Entry) :
    M.prepared row inst entry = M.prepared row' inst entry := by
  cases entry with
  | none => rfl
  | some entry =>
      rw [HistoryModel.prepared, HistoryModel.prepared, h.read hloaded, trailAfter, trailAfter,
        h.trailSeen hloaded]

theorem mem_deferred_prepared {a : String} (h : a ∈ (M.prepared row inst entry).deferred) :
    a ∈ inst.deferred := by
  cases entry with
  | none => exact h
  | some entry => exact mem_deferred_read h

/-- What a save writes it writes alike; a column it writes is no longer behind. -/
theorem AlikeBut.write (h : AlikeBut columns row row')
    (hloaded : ∀ a ∈ columns, a ∉ inst.deferred) (updateFields : Option (List String)) :
    AlikeBut (columns.filter fun a => !M.stores updateFields a)
      (row.write inst (M.writes inst updateFields))
      (row'.write inst (M.writes inst updateFields)) := by
  have hcolumn : ∀ a, a ∉ columns.filter (fun a => !M.stores updateFields a) →
      M.writes inst updateFields a = true ∨ a ∉ columns := by
    intro a hnot
    by_cases hmem : a ∈ columns
    · refine .inl ?_
      rw [writes_eq_stores (hloaded a hmem)]
      by_contra hstores
      exact hnot (List.mem_filter.mpr ⟨hmem, by simpa using hstores⟩)
    · exact .inr hmem
  refine ⟨fun a hnot => ?_, fun hnot => ?_⟩
  · rcases hcolumn a hnot with hwrites | hmem
    · simp only [Row.write, hwrites, if_true]
    · simp only [Row.write, h.cells a hmem]
  · rcases hcolumn historyColumn hnot with hwrites | hmem
    · simp only [Row.write, hwrites, if_true]
    · simp only [Row.write, h.trail hmem]

theorem AlikeBut.mono {columns' : List String} (h : AlikeBut columns row row')
    (hsub : ∀ a ∈ columns, a ∈ columns') : AlikeBut columns' row row' :=
  ⟨fun a hnot => h.cells a fun hmem => hnot (hsub a hmem),
    fun hnot => h.trail fun hmem => hnot (hsub _ hmem)⟩

/-- What the saves of one instance over two rows have in common. -/
structure SavedAlike (M : HistoryModel) (columns : List String)
    (updateFields : Option (List String)) (inst : Instance) (out out' : ModelSaved) : Prop where
  same : out.inst = out'.inst
  raised : out.raised = out'.raised
  deferred : ∀ a ∈ out.inst.deferred, a ∈ inst.deferred
  rows : AlikeBut
    (if out.raised.isSome then columns else columns.filter fun a => !M.stores updateFields a)
    out.row out'.row

theorem AlikeBut.modelSave (h : AlikeBut columns row row')
    (hloaded : ∀ a ∈ columns, a ∉ inst.deferred) (updateFields : Option (List String))
    (verdict : Option PyError) :
    M.SavedAlike columns updateFields inst (M.modelSave row updateFields verdict inst)
      (M.modelSave row' updateFields verdict inst) := by
  unfold HistoryModel.modelSave
  split
  · rename_i hempty
    refine ⟨rfl, rfl, fun _ hmem => hmem, h.mono fun a ha => ?_⟩
    subst hempty
    exact List.mem_filter.mpr ⟨ha, by simp [stores, namedColumns]⟩
  · split
    · exact ⟨rfl, rfl, fun _ hmem => hmem, h⟩
    · split
      · exact ⟨rfl, rfl, fun _ hmem => hmem, h⟩
      · dsimp only
        rw [← h.foldl_read hloaded]
        cases verdict with
        | some error => exact ⟨rfl, rfl, fun _ hmem => mem_deferred_foldl hmem, h⟩
        | none =>
            refine ⟨rfl, rfl, fun _ hmem => mem_deferred_foldl hmem, ?_⟩
            refine (h.write (fun a ha hmem => hloaded a ha (mem_deferred_foldl hmem)) _).mono
              fun a ha => ?_
            -- an INSERT writes every column
            split at ha
            · simp [stores] at ha
            · exact ha

/-- The re-baseline after a save reads no column that is behind. -/
theorem AlikeBut.syncHistorySnapshot (h : AlikeBut columns row row')
    (hloaded : ∀ a ∈ columns, a ∉ inst.deferred) (updateFields : Option (List String)) :
    M.syncHistorySnapshot row updateFields inst = M.syncHistorySnapshot row' updateFields inst := by
  rw [HistoryModel.syncHistorySnapshot, HistoryModel.syncHistorySnapshot, M.historyValues_eq,
    M.historyValues_eq, h.settle hloaded]

theorem mem_deferred_syncHistorySnapshot {a : String}
    (h : a ∈ (M.syncHistorySnapshot row updateFields inst).deferred) : a ∈ inst.deferred := by
  rw [HistoryModel.syncHistorySnapshot, M.historyValues_eq] at h
  cases updateFields <;> exact mem_deferred_settle h

/-- A save over two rows alike but for columns the instance has loaded: the
same entry, the same error, the same instance, and rows alike but for the
columns it leaves. -/
structure SaveAlike (M : HistoryModel) (columns : List String)
    (updateFields : Option (List String)) (inst : Instance) (out out' : SaveOutcome) : Prop where
  same : out.inst = out'.inst
  entry : out.entry = out'.entry
  raised : out.raised = out'.raised
  deferred : ∀ a ∈ out.inst.deferred, a ∈ inst.deferred
  rows : AlikeBut (M.stillBehind columns updateFields out) out.row out'.row

theorem AlikeBut.save (h : AlikeBut columns row row')
    (hloaded : ∀ a ∈ columns, a ∉ inst.deferred) (env : Env) (updateFields : Option (List String))
    (verdict : Option PyError) :
    M.SaveAlike columns updateFields inst (M.save env row updateFields verdict inst)
      (M.save env row' updateFields verdict inst) := by
  have hsettled : ∀ a ∈ columns, a ∉ (M.settle row inst).deferred :=
    fun a ha hmem => hloaded a ha (mem_deferred_settle hmem)
  let entry := M.entryFor env updateFields (M.settle row inst)
  have hprepared : ∀ a ∈ columns, a ∉ (M.prepared row (M.settle row inst) entry).deferred :=
    fun a ha hmem => hsettled a ha (mem_deferred_prepared hmem)
  have hmodel := h.modelSave (M := M) hprepared (superFields updateFields entry) verdict
  unfold HistoryModel.save
  rw [M.prepareSave_eq, M.prepareSave_eq, ← h.settle hloaded]
  dsimp only
  rw [← h.prepared hsettled]
  have hkept : ∀ a ∈ columns, a ∉ (M.modelSave row (superFields updateFields entry) verdict
      (M.prepared row (M.settle row inst) entry)).inst.deferred :=
    fun a ha hmem => hprepared a ha (hmodel.deferred a hmem)
  change M.SavedAlike columns (superFields updateFields entry)
    (M.prepared row (M.settle row inst) entry) (M.modelSave row _ _ _) (M.modelSave row' _ _ _)
    at hmodel
  generalize M.modelSave row (superFields updateFields entry) verdict
    (M.prepared row (M.settle row inst) entry) = saved at hmodel hkept ⊢
  generalize M.modelSave row' (superFields updateFields entry) verdict
    (M.prepared row (M.settle row inst) entry) = saved' at hmodel ⊢
  have hdeferred : ∀ a ∈ saved.inst.deferred, a ∈ inst.deferred :=
    fun a hmem => mem_deferred_settle (mem_deferred_prepared (hmodel.deferred a hmem))
  rw [← hmodel.raised]
  cases hraised : saved.raised with
  | some error =>
      have hrows := hmodel.rows
      rw [hraised] at hrows
      exact ⟨hmodel.same, rfl, rfl, hdeferred, hrows⟩
  | none =>
      have hrows := hmodel.rows
      rw [hraised] at hrows
      refine ⟨?_, rfl, rfl, fun a hmem => hdeferred a (mem_deferred_syncHistorySnapshot hmem), hrows⟩
      dsimp only
      rw [← hmodel.same]
      exact hrows.syncHistorySnapshot (fun a ha => hkept a (List.mem_of_mem_filter ha)) _

/-! ### Runs -/

variable {ι : Type*} [DecidableEq ι] {key : ι} {s : BulkRun}

theorem AlikeBut.refresh (h : AlikeBut columns row row')
    (hloaded : ∀ a ∈ columns, a ∉ inst.deferred) {fields : Option (List String)}
    (hreloads : ∀ a ∈ columns, M.reloads inst fields a = false) :
    M.refresh row fields inst = M.refresh row' fields inst := by
  have hload : ∀ a ∈ columns, a ∉ (inst.loadColumns row (M.reloads inst fields)).deferred :=
    fun a ha hmem => hloaded a ha (List.mem_of_mem_filter hmem)
  rw [HistoryModel.refresh, HistoryModel.refresh, refreshFromDb_eq, refreshFromDb_eq,
    h.fetch hload, h.loadColumns hreloads]

theorem mem_deferred_refresh {fields : Option (List String)} {a : String}
    (h : a ∈ (M.refresh row fields inst).deferred) : a ∈ inst.deferred := by
  rw [HistoryModel.refresh, refreshFromDb_eq] at h
  change a ∈ (M.fetch row _ _).deferred at h
  rw [M.deferred_fetch] at h
  exact List.mem_of_mem_filter (List.mem_of_mem_filter h)

/-- The state of a run beside that of the run as memory sees it. -/
structure Beside (s : BulkRun) (t : Writer) : Prop where
  same : s.writer.inst = t.inst
  rows : AlikeBut s.behind s.writer.row t.row
  loaded : ∀ a ∈ s.behind, a ∉ s.writer.inst.deferred

/-- A row that more columns are stored in is as it was but for these. -/
theorem AlikeBut.stored (h : AlikeBut columns row row') (stored : List String) (inst : Instance) :
    AlikeBut (columns ++ stored) (row.write inst stored.contains) row' := by
  refine ⟨fun a hnot => ?_, fun hnot => ?_⟩
  · rw [List.mem_append, not_or] at hnot
    simp only [Row.write, List.contains_eq_mem, hnot.2, decide_false, Bool.false_eq_true,
      if_false, h.cells a hnot.1]
  · rw [List.mem_append, not_or] at hnot
    simp only [Row.write, List.contains_eq_mem, hnot.2, decide_false, Bool.false_eq_true,
      if_false, h.trail hnot.1]

/-- A bulk update that fetches nothing: the instance is as it was, stamped, the
row is, but for the columns it stores. -/
theorem Beside.bulk {t : Writer} {s' : BulkRun} {call : BulkCall ι} (h : Beside s t)
    (hguard : M.leavesBehind s (.bulk call)) (hstep : (bulkRuns M key).step s (.bulk call) s') :
    ∃ t', (instanceRuns M).step t (.assign "updated_on" call.now) t' ∧ Beside s' t' := by
  obtain ⟨hrow, hnodup, out, count, rfl, hcount, hrow', hobj, hbehind⟩ := hstep
  have hkeys : (((call.objs key s.writer.inst).map fun obj => (obj.1, M.stamp call.now obj.2)).map
      Prod.fst).Nodup := by
    rwa [List.map_map]
  have hstored := bulkUpdate_stored hkeys hcount
  have hdeferred : ∀ a ∈ (M.stamp call.now s.writer.inst).deferred, a ∈ s.writer.inst.deferred :=
    fun a hmem => List.mem_of_mem_filter hmem
  have hread : (M.bulkColumns (stamped call.fields)).foldl (M.read s.writer.row)
      (M.stamp call.now s.writer.inst) = M.stamp call.now s.writer.inst :=
    foldl_read_of_loaded fun a ha hmem => hguard a ha (hdeferred a hmem)
  have hinst : s'.writer.inst = M.stamp call.now s.writer.inst := by
    rw [stampAndUpdate, hstored.read, List.getElem?_map, List.getElem?_map, BulkCall.objs,
      List.getElem?_append_right le_rfl, Nat.sub_self, List.getElem?_cons_zero, Option.map_some,
      Option.map_some, bulkRead, Option.elim_some, hrow, hread] at hobj
    exact (Prod.mk.inj (Option.some.inj hobj)).2.symm
  have hwritten := hstored.rows key (M.stamp call.now s.writer.inst)
    (List.mem_map.mpr ⟨(some key, s.writer.inst), by simp [BulkCall.objs], rfl⟩)
  rw [hrow, hread] at hwritten
  replace hwritten := hrow'.trans hwritten
  refine ⟨⟨t.row, M.stamp call.now t.inst⟩, ⟨M.historyAttname_ne_of_ne (by decide), rfl⟩,
    hinst.trans (by rw [h.same]), ?_, fun a ha hmem => ?_⟩
  · rw [hbehind, hwritten]
    split
    · exact h.rows.stored _ _
    · exact h.rows.mono fun a ha => List.mem_append_left _ ha
  · rw [hinst] at hmem
    rw [hbehind, List.mem_append] at ha
    exact ha.elim (fun ha => h.loaded a ha (hdeferred a hmem)) fun ha =>
      hguard a ha (hdeferred a hmem)

/-- The step lemma for the other steps: the run beside takes them too. -/
theorem Beside.plain {t : Writer} {s' : BulkRun} {step : InstanceStep} (h : Beside s t)
    (hguard : M.leavesBehind (ι := ι) s (.plain step))
    (hstep : (bulkRuns M key).step s (.plain step) s') :
    ∃ t', (instanceRuns M).step t step t' ∧ Beside s' t' := by
  obtain ⟨hsame, hrows, hloaded⟩ := h
  obtain ⟨hstep, hbehind⟩ := hstep
  obtain ⟨writer, behind⟩ := s'
  cases step with
  | assign name value =>
      obtain ⟨hne, rfl⟩ := hstep
      obtain rfl : behind = s.behind := hbehind
      refine ⟨⟨t.row, M.assign t.inst name value⟩, ⟨hne, rfl⟩, ?_, hrows, fun a ha hmem => ?_⟩
      · rw [← hsame]
      · exact hloaded a ha (List.mem_of_mem_filter hmem)
  | read attname =>
      obtain rfl := hstep
      obtain rfl : behind = s.behind := hbehind
      refine ⟨⟨t.row, M.read t.row t.inst attname⟩, rfl, ?_, hrows,
        fun a ha hmem => hloaded a ha (mem_deferred_read hmem)⟩
      rw [← hsame]
      exact hrows.read hloaded attname
  | refresh fields =>
      obtain ⟨hadding, rfl⟩ := hstep
      obtain rfl : behind = s.behind := hbehind
      refine ⟨⟨t.row, M.refresh t.row fields t.inst⟩, ⟨hsame ▸ hadding, rfl⟩, ?_, hrows,
        fun a ha hmem => hloaded a ha (mem_deferred_refresh hmem)⟩
      rw [← hsame]
      exact hrows.refresh hloaded hguard
  | save env updateFields verdict =>
      obtain rfl := hstep
      obtain rfl : behind = M.stillBehind s.behind updateFields
        (M.save env s.writer.row updateFields verdict s.writer.inst) := hbehind
      have hsaved := hrows.save (M := M) hloaded env updateFields verdict
      refine ⟨_, rfl, ?_, ?_, fun a ha hmem => ?_⟩
      · rw [← hsame]
        exact hsaved.same
      · rw [← hsame]
        exact hsaved.rows
      · refine hloaded a ?_ (hsaved.deferred a hmem)
        change a ∈ M.stillBehind s.behind updateFields _ at ha
        unfold stillBehind at ha
        split at ha
        · exact ha
        · exact List.mem_of_mem_filter ha

end HistoryModel

end NetixBackend.ChangeHistory
