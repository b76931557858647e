import NetixBackend.ChangeHistory.Saves
import NetixBackend.Transition.System

/-!
One instance, no other writer of its row.

Memory, snapshot and row are related by `InStep`: the snapshot holds, for every
tracked name, the value the row holds. Saves keep the relation as long as they
keep pending edits pending (`KeepsPending`), and under it the entry of a save
is what moved in the row (`SaveFaithful`). The condition can fail: a partial
save that has to load a deferred column on its way re-baselines the whole
snapshot, the columns it does not write included.
-/

namespace NetixBackend.ChangeHistory

open Python Transition

namespace HistoryModel

variable (M : HistoryModel)

/-- What the trail owes the row about one save: `row` and `inst` are those
before it, `out` is what it left. -/
structure SaveFaithful (row : Row) (updateFields : Option (List String)) (inst : Instance)
    (out : SaveOutcome) : Prop where
  /-- Each recorded change is about a tracked name, from its stored value
  before the save to the value the save stored. -/
  sound : ∀ entry, out.entry = some entry → ∀ change ∈ entry.changes,
    change.field ∈ M.historyFields ∧
      M.stores updateFields (M.historyAttname change.field) = true ∧
      change.old = M.stored row change.field ∧ change.new = M.stored out.row change.field
  /-- A written value that moved is recorded, once. -/
  complete : ∀ name ∈ M.historyFields,
    M.stores updateFields (M.historyAttname name) = true →
      (M.stored row name).pyNe (M.stored out.row name) = true →
        ∃ entry, out.entry = some entry ∧ entry.changes.countP (·.field == name) = 1
  /-- A save that moves nothing records nothing. -/
  silent : (∀ name ∈ M.historyFields,
    M.stores updateFields (M.historyAttname name) = true →
      (M.stored row name).pyNe (M.stored out.row name) = false) → out.entry = none
  /-- What was written is the value in memory. -/
  written : ∀ name ∈ M.historyFields,
    M.stores updateFields (M.historyAttname name) = true →
      M.stored out.row name = M.current inst name
  /-- What was not written is in no change, and is still to be written. -/
  pending : ∀ name ∈ M.historyFields,
    M.stores updateFields (M.historyAttname name) = false →
      M.stored out.row name = M.stored row name ∧ M.current out.inst name = M.current inst name ∧
        ∀ entry, out.entry = some entry → ∀ change ∈ entry.changes, change.field ≠ name
  /-- The entry is appended to the stored trail, up to the cap. -/
  appended : out.row.trail =
    match out.entry with
    | none => row.trail
    | some entry => some (M.appendEntry row.trail.entries entry)

/-- A partial save that loads a deferred column leaves no tracked edit behind. -/
def KeepsPending (updateFields : Option (List String)) (inst : Instance) : Prop :=
  M.Fetches updateFields inst → ∀ name ∈ M.historyFields, M.selects updateFields name = false →
    inst.seen name = some (M.current inst name)

/-- Snapshot, memory and row of an instance that alone writes its row. -/
structure InStep (row : Row) (inst : Instance) : Prop where
  loaded : M.TrackedLoaded inst
  adding : inst.adding = false
  seen : ∀ name ∈ M.historyFields, inst.seen name = some (M.stored row name)
  trail : trailSeen row inst = row.trail

/-! ### One save -/

variable {M} {env : Env} {row : Row} {inst : Instance} {updateFields : Option (List String)}
  {verdict : Option PyError} {out : SaveOutcome} {name : String} {value : FieldValue}

theorem Saved.stored_out (h : M.Saved env row updateFields inst out)
    (hadding : inst.adding = false) (hname : name ∈ M.historyFields) :
    M.stored out.row name = if M.stores updateFields (M.historyAttname name) then
      M.current inst name else M.stored row name := by
  rw [stored, h.cells _ (M.mem_trackedAttnames hname), Instance.writtenFields_of_existing hadding]
  split <;> rfl

theorem selects_eq_stores (hnamed : M.NamedByField) (hname : name ∈ M.historyFields)
    (hvalid : updateFields.any (fun names => !M.validNames names) = false) :
    M.selects updateFields name = M.stores updateFields (M.historyAttname name) := by
  rw [Bool.eq_iff_iff]
  exact ⟨M.stores_of_selects hname hvalid, M.selects_of_stores hnamed hname⟩

theorem InStep.rowTrail (h : M.InStep row inst) (hsaved : M.Saved env row updateFields inst out) :
    out.row.trail = M.trailAfter row inst out.entry := by
  rw [hsaved.rowTrail]
  cases hentry : out.entry with
  | none =>
      rw [trailAfter, h.trail]
      split <;> rfl
  | some entry => rfl

theorem InStep.save (h : M.InStep row inst) (hsaved : M.Saved env row updateFields inst out)
    (hnamed : M.NamedByField) (hkeeps : M.KeepsPending updateFields inst) :
    M.InStep out.row out.inst where
  loaded a ha hmem := h.loaded a ha (hsaved.deferred a hmem)
  adding := hsaved.adding
  seen name hname := by
    have hfields := Instance.writtenFields_of_existing h.adding updateFields
    rw [hsaved.stored_out h.adding hname, ← selects_eq_stores hnamed hname hsaved.valid]
    cases hsel : M.selects updateFields name with
    | true => exact hsaved.seen_selected name hname (by rw [hfields]; exact hsel)
    | false =>
        rw [if_neg Bool.false_ne_true, ← h.seen name hname]
        rcases hsaved.seen_unselected name hname (by rw [hfields]; exact hsel) with hs | ⟨hfetches, hs⟩
        · exact hs
        · rw [hs, hkeeps hfetches name hname hsel]
  trail := by
    rw [hsaved.trailSeen, h.rowTrail hsaved]

theorem InStep.assign (h : M.InStep row inst) (hname : name ∈ M.historyFields) :
    M.InStep row (M.assign inst name value) where
  loaded a ha hmem := h.loaded a ha (List.mem_of_mem_filter hmem)
  adding := h.adding
  seen := h.seen
  trail := by
    rw [← h.trail]
    have hne : historyColumn ≠ M.historyAttname name :=
      (M.historyAttname_ne_historyColumn hname).symm
    simp [trailSeen, HistoryModel.assign, hne]

theorem InStep.faithful (h : M.InStep row inst) (hsaved : M.Saved env row updateFields inst out)
    (hnamed : M.NamedByField) : M.SaveFaithful row updateFields inst out where
  sound entry hentry change hmem := by
    rw [hsaved.entry] at hentry
    obtain ⟨name, hname, old, hold, -, hsel, rfl⟩ :=
      ((M.changes_of_entryFor h.adding hentry).1 change).mp hmem
    have hstores := M.stores_of_selects hname hsaved.valid hsel
    rw [h.seen name hname, Option.some.injEq] at hold
    refine ⟨hname, hstores, hold.symm, ?_⟩
    change M.current inst name = M.stored out.row name
    rw [hsaved.stored_out h.adding hname, if_pos hstores]
  complete name hname hstores hmoved := by
    rw [hsaved.stored_out h.adding hname, if_pos hstores] at hmoved
    have hsel := M.selects_of_stores hnamed hname hstores
    have hrecords : M.Records updateFields inst :=
      ⟨name, hname, _, h.seen name hname, hmoved, hsel⟩
    obtain ⟨entry, hentry⟩ := M.exists_entryFor env h.adding hrecords
    obtain ⟨hchanges, hcount⟩ := M.changes_of_entryFor h.adding hentry
    have hmem : M.change name (M.stored row name) (M.current inst name) ∈ entry.changes :=
      (hchanges _).mpr ⟨name, hname, _, h.seen name hname, hmoved, hsel, rfl⟩
    have hpos : 0 < entry.changes.countP (·.field == name) :=
      List.countP_pos_iff.mpr ⟨_, hmem, by simp [change]⟩
    have hle := hcount name
    exact ⟨entry, hsaved.entry.trans hentry, by omega⟩
  silent hstill := by
    rw [hsaved.entry, M.entryFor_eq_none_iff h.adding]
    intro name hname old hold hne
    rw [h.seen name hname, Option.some.injEq] at hold
    subst hold
    by_contra hsel
    have hstores := M.stores_of_selects hname hsaved.valid (by simpa using hsel)
    have hsame := hstill name hname hstores
    rw [hsaved.stored_out h.adding hname, if_pos hstores, hne] at hsame
    exact Bool.false_ne_true hsame.symm
  written name hname hstores := by
    rw [hsaved.stored_out h.adding hname, if_pos hstores]
  pending name hname hstores := by
    refine ⟨?_, ?_, ?_⟩
    · rw [hsaved.stored_out h.adding hname, hstores, if_neg Bool.false_ne_true]
    · rw [current, hsaved.attrs _ (M.mem_trackedAttnames hname), current]
    · rintro entry hentry change hmem rfl
      rw [hsaved.entry] at hentry
      obtain ⟨name, hname, old, -, -, hsel, rfl⟩ :=
        ((M.changes_of_entryFor h.adding hentry).1 change).mp hmem
      have hwritten := M.stores_of_selects hname hsaved.valid hsel
      exact Bool.false_ne_true (hstores.symm.trans hwritten)
  appended := by
    rw [h.rowTrail hsaved]
    cases out.entry with
    | none => rw [trailAfter, h.trail]
    | some entry => rw [trailAfter, h.trail]

/-! ### Runs -/

structure Writer where
  row : Row
  inst : Instance

inductive WriterStep
  | assign (name : String) (value : FieldValue)
  | save (env : Env) (updateFields : Option (List String))

/-- A saved instance is what its first save made of a new one. -/
def Created (M : HistoryModel) (s : Writer) : Prop :=
  ∃ (env : Env) (row : Row) (updateFields : Option (List String)) (inst : Instance),
    inst.adding = true ∧ inst.deferred = [] ∧
      ∃ out, out = M.save env row updateFields none inst ∧ out.raised = none ∧
        out.inst.adding = false ∧ s = ⟨out.row, out.inst⟩

/-- A loaded instance, every tracked attribute among the loaded ones. -/
def LoadedWhole (M : HistoryModel) (s : Writer) : Prop :=
  ∃ (defaults : String → FieldValue) (loaded : List String),
    (∀ a ∈ loaded, a ∈ M.columns) ∧ (∀ a ∈ M.trackedAttnames, a ∈ loaded) ∧
      s.inst = M.fromDb s.row defaults loaded

/-- Assignments to tracked fields and successful saves, in any order. -/
def singleWriter (M : HistoryModel) : System Writer WriterStep where
  init s := M.Created s ∨ M.LoadedWhole s
  step s label t :=
    match label with
    | .assign name value => name ∈ M.historyFields ∧ t = ⟨s.row, M.assign s.inst name value⟩
    | .save env updateFields =>
        (M.save env s.row updateFields none s.inst).raised = none ∧
          t = ⟨(M.save env s.row updateFields none s.inst).row,
            (M.save env s.row updateFields none s.inst).inst⟩

theorem reachable_assign {guard : Writer → WriterStep → Prop} {s : Writer}
    (hs : ((singleWriter M).restrict guard).Reachable s) (hguard : guard s (.assign name value))
    (hname : name ∈ M.historyFields) :
    ((singleWriter M).restrict guard).Reachable ⟨s.row, M.assign s.inst name value⟩ :=
  hs.next ⟨hguard, hname, rfl⟩

/-- The condition on a step: a save keeps what it does not write pending. -/
def keepsPendingStep (M : HistoryModel) (s : Writer) : WriterStep → Prop
  | .assign _ _ => True
  | .save _ updateFields => M.KeepsPending updateFields s.inst

theorem InStep.of_loaded {s : Writer} (h : M.LoadedWhole s) : M.InStep s.row s.inst := by
  obtain ⟨defaults, loaded, hcolumns, htracked, hinst⟩ := h
  have hloaded := M.loaded_fromDb s.row defaults hcolumns
  rw [← hinst] at hloaded
  refine ⟨fun a ha hmem => ?_, hloaded.adding, fun name hname => ?_, hloaded.trail⟩
  · exact (hloaded.mem_deferred.mp hmem).2 (htracked a ha)
  · rw [hloaded.seen name hname, if_pos (htracked _ (M.mem_trackedAttnames hname))]

theorem InStep.of_created {s : Writer} (h : M.Created s) : M.InStep s.row s.inst := by
  obtain ⟨env, row, updateFields, inst, hadding, hdeferred, out, hout, hok, hinserted, rfl⟩ := h
  have hsaved : M.Saved env row updateFields inst out := by
    rcases saved_or_skipped (M.trackedLoaded_of_deferred_nil hdeferred) (hout ▸ hok) with
      hsaved | ⟨snapshot, hskipped⟩
    · exact hout ▸ hsaved
    · -- a save that is skipped leaves the instance new
      rw [hout, hskipped] at hinserted
      exact absurd (hinserted.symm.trans hadding) Bool.false_ne_true
  have hfields : inst.writtenFields updateFields = none := by
    rw [Instance.writtenFields, if_pos hadding]
  refine ⟨fun a _ hmem => ?_, hinserted, fun name hname => ?_, ?_⟩
  · have hgone := hsaved.deferred a hmem
    simp [hdeferred] at hgone
  · rw [hsaved.seen_selected name hname (by rw [hfields]; rfl), stored,
      hsaved.cells _ (M.mem_trackedAttnames hname), hfields]
    rfl
  · rw [hsaved.trailSeen, hsaved.rowTrail, hfields]
    simp [stores]

/-- The step lemma: under the condition the relation is kept. -/
theorem inductive_inStep (hnamed : M.NamedByField) :
    ((singleWriter M).restrict M.keepsPendingStep).Inductive fun s => M.InStep s.row s.inst where
  init s h := by
    rcases h with h | h
    · exact .of_created h
    · exact .of_loaded h
  step s label t hs hstep := by
    obtain ⟨hguard, hstep⟩ := hstep
    cases label with
    | assign name value =>
        obtain ⟨hname, rfl⟩ := hstep
        exact hs.assign hname
    | save env updateFields =>
        obtain ⟨hok, rfl⟩ := hstep
        exact hs.save (save_ok hs.loaded (by simp [hs.adding]) hok) hnamed hguard

/-- In every run whose saves keep unwritten edits pending, every save is
faithful. -/
theorem saveFaithful_of_reachable (hnamed : M.NamedByField) {s : Writer}
    (hs : ((singleWriter M).restrict M.keepsPendingStep).Reachable s) (env : Env)
    (updateFields : Option (List String))
    (hok : (M.save env s.row updateFields none s.inst).raised = none) :
    M.SaveFaithful s.row updateFields s.inst (M.save env s.row updateFields none s.inst) := by
  have hin := (inductive_inStep hnamed).reachable hs
  exact hin.faithful (save_ok hin.loaded (by simp [hin.adding]) hok) hnamed

/-! ### A run that loses an edit -/

/-- A widget loaded with its trail deferred, edited twice. -/
def editedWidget : Writer where
  row := widgetRow
  inst :=
    let loaded := historyWidget.fromDb widgetRow (fun _ => .none)
      ["is_deleted", "label", "status", "owner_id", "payload"]
    historyWidget.assign (historyWidget.assign loaded "label" (.str "after")) "status" (.int 2)

def halfSavedWidget : Writer :=
  let out := historyWidget.save ⟨"noon", {}⟩ editedWidget.row (some ["status"]) none
    editedWidget.inst
  ⟨out.row, out.inst⟩

theorem editedWidget_reachable :
    ((singleWriter historyWidget).restrict historyWidget.keepsPendingStep).Reachable
      editedWidget := by
  let loaded : Writer := ⟨widgetRow, historyWidget.fromDb widgetRow (fun _ => .none)
    ["is_deleted", "label", "status", "owner_id", "payload"]⟩
  have hloaded : ((singleWriter historyWidget).restrict historyWidget.keepsPendingStep).Reachable
      loaded := .of_init (.inr ⟨_, _, by decide, by decide, rfl⟩)
  exact reachable_assign (reachable_assign hloaded trivial (by decide)) trivial (by decide)

/-- The partial save had to load the trail, which re-baselined the label too:
the full save that follows stores the label and records nothing. -/
theorem pending_edit_lost :
    (singleWriter historyWidget).Reachable halfSavedWidget ∧
      (historyWidget.save ⟨"one", {}⟩ halfSavedWidget.row none none halfSavedWidget.inst).raised =
        none ∧
      ¬ historyWidget.SaveFaithful halfSavedWidget.row none halfSavedWidget.inst
        (historyWidget.save ⟨"one", {}⟩ halfSavedWidget.row none none halfSavedWidget.inst) := by
  refine ⟨?_, rfl, fun hfaithful => ?_⟩
  · exact editedWidget_reachable.of_restrict.next (show (singleWriter historyWidget).step _
      (.save ⟨"noon", {}⟩ (some ["status"])) halfSavedWidget from ⟨rfl, rfl⟩)
  · obtain ⟨entry, hentry, -⟩ := hfaithful.complete "label" (by decide) rfl (by decide +kernel)
    have hnone : (historyWidget.save ⟨"one", {}⟩ halfSavedWidget.row none none
        halfSavedWidget.inst).entry.isSome = false := by decide +kernel
    rw [hentry] at hnone
    exact absurd hnone Bool.noConfusion

theorem saveFaithful_editedWidget :
    historyWidget.SaveFaithful editedWidget.row (some ["status"]) editedWidget.inst
      (historyWidget.save ⟨"noon", {}⟩ editedWidget.row (some ["status"]) none
        editedWidget.inst) :=
  saveFaithful_of_reachable (by decide) editedWidget_reachable ⟨"noon", {}⟩ (some ["status"])
    rfl

end HistoryModel

end NetixBackend.ChangeHistory
