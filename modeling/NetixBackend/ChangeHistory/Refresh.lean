import NetixBackend.ChangeHistory.SingleWriter

/-!
`refresh_from_db(fields=...)`.

The override lets Django reload the columns that are asked for and then takes
the whole baseline anew, from memory. A call, the read of a deferred attribute
and the reads a save begins with are all this one operation, for different
columns (`rebaselined`): afterwards every tracked attribute is loaded, and the
snapshot holds what each of them reads as. For a name that was not reloaded
that is its old baseline only if nothing was pending on it.

The runs here start from any load, deferred tracked columns included, so the
relation between memory, snapshot and row is weaker than `InStep`: it is about
the loaded names (`Baselined`).
-/

namespace NetixBackend.ChangeHistory

open Python Transition

namespace HistoryModel

variable (M : HistoryModel)

/-- The columns the call reloads; without a field list, those that are not
deferred. -/
def reloads (inst : Instance) (fields : Option (List String)) (attname : String) : Bool :=
  match fields with
  | none => M.columns.contains attname && !inst.deferred.contains attname
  | some names => (M.namedColumns names).contains attname

/-- `refresh_from_db(fields=...)`. -/
def refresh (row : Row) (fields : Option (List String)) (inst : Instance) : Instance :=
  M.refreshFromDb (M.read row) row (M.reloads inst fields) inst

/-- What a tracked name reads as: a deferred one is loaded first. -/
def readsAs (row : Row) (inst : Instance) (name : String) : JsonValue :=
  if M.historyAttname name ∈ inst.deferred then M.stored row name else M.current inst name

/-- The call re-baselines what it reloads and nothing else. -/
structure RefreshKeeps (row : Row) (fields : Option (List String)) (inst : Instance) : Prop where
  reloaded : ∀ name ∈ M.historyFields, M.reloads inst fields (M.historyAttname name) = true →
    (M.refresh row fields inst).seen name = some (M.stored row name)
  kept : ∀ name ∈ M.historyFields, M.reloads inst fields (M.historyAttname name) = false →
    (M.refresh row fields inst).seen name = inst.seen name

/-- No loaded tracked field outside `cols` has an unsaved edit. -/
def Clean (cols : String → Bool) (inst : Instance) : Prop :=
  ∀ name ∈ M.historyFields, cols (M.historyAttname name) = false →
    M.historyAttname name ∉ inst.deferred → inst.seen name = some (M.current inst name)

/-- Snapshot, memory and row of an instance that alone writes its row, as far as
its tracked attributes are loaded. -/
structure Baselined (row : Row) (inst : Instance) : Prop where
  adding : inst.adding = false
  seen : ∀ name ∈ M.historyFields, M.historyAttname name ∉ inst.deferred →
    inst.seen name = some (M.stored row name)
  trail : trailSeen row inst = row.trail

/-- What reloading `cols` and taking the baseline anew leaves. -/
structure Rebaselined (cols : String → Bool) (row : Row) (inst out : Instance) : Prop where
  loaded : M.TrackedLoaded out
  seen : ∀ name ∈ M.historyFields, out.seen name = some
    (if cols (M.historyAttname name) then M.stored row name else M.readsAs row inst name)
  adding : out.adding = inst.adding
  trail : trailSeen row inst = row.trail → trailSeen row out = row.trail

variable {M} {env : Env} {row : Row} {inst out : Instance} {updateFields : Option (List String)}
  {fields : Option (List String)} {cols : String → Bool} {name attname : String}
  {value : FieldValue}

/-! ### One operation -/

theorem refreshFromDb_eq (row : Row) (cols : String → Bool) (inst : Instance) :
    M.refreshFromDb (M.read row) row cols inst =
      M.rebase (M.fetch row (fun _ => false) (inst.loadColumns row cols)) := by
  rw [refreshFromDb, M.historyValues_eq]
  dsimp only
  rw [M.valuesOf_settle]
  unfold settle
  split
  · rfl
  · rename_i hany
    rw [M.fetch_of_not_any row hany]
    rfl

theorem rebaselined_refreshFromDb (row : Row) (cols : String → Bool) (inst : Instance) :
    M.Rebaselined cols row inst (M.refreshFromDb (M.read row) row cols inst) := by
  rw [refreshFromDb_eq]
  refine ⟨fun a ha hmem => ?_, fun name hname => ?_, rfl, fun htrail => ?_⟩
  · change a ∈ (M.fetch row _ _).deferred at hmem
    rw [M.deferred_fetch, List.mem_filter] at hmem
    simp [ha] at hmem
  · have htracked := M.mem_trackedAttnames hname
    simp only [rebase, Instance.seen, Option.bind_some, M.get?_valuesOf hname,
      M.attrs_fetch_tracked _ htracked]
    cases hcols : cols (M.historyAttname name) with
    | true => simp [Instance.loadColumns, hcols, stored]
    | false =>
        by_cases hmem : M.historyAttname name ∈ inst.deferred <;>
          simp [Instance.loadColumns, hcols, hmem, readsAs, stored, current]
  · change trailSeen row (M.fetch row _ _) = _
    rw [trailSeen_fetch]
    unfold trailSeen at htrail ⊢
    cases hcols : cols historyColumn <;>
      by_cases hmem : historyColumn ∈ inst.deferred <;>
        simp_all [Instance.loadColumns]

/-- Reading a deferred attribute is a refresh of it. -/
theorem read_eq_refreshFromDb (h : attname ∈ inst.deferred) (row : Row) :
    M.read row inst attname = M.refreshFromDb (M.read row) row (· == attname) inst := by
  rw [M.read_eq, if_pos h, refreshFromDb_eq, M.fetch_loadColumns h]

/-- So are the reads a save begins with, as long as a tracked attribute is
deferred. -/
theorem settle_eq_refreshFromDb (h : inst.deferred.any M.trackedAttnames.contains = true)
    (row : Row) : M.settle row inst = M.refreshFromDb (M.read row) row (fun _ => false) inst := by
  rw [settle, if_pos h, refreshFromDb_eq, loadColumns_eq_self fun _ => rfl]

/-! ### One call -/

/-- A call re-baselines only what it reloads exactly when every other tracked
name reads as its baseline. -/
theorem refreshKeeps_iff (row : Row) (fields : Option (List String)) (inst : Instance) :
    M.RefreshKeeps row fields inst ↔
      ∀ name ∈ M.historyFields, M.reloads inst fields (M.historyAttname name) = false →
        inst.seen name = some (M.readsAs row inst name) := by
  have hout : M.Rebaselined (M.reloads inst fields) row inst (M.refresh row fields inst) :=
    rebaselined_refreshFromDb row _ inst
  constructor
  · intro h name hname hnot
    rw [← h.kept name hname hnot, hout.seen name hname, hnot, if_neg Bool.false_ne_true]
  · intro h
    refine ⟨fun name hname hreloads => ?_, fun name hname hnot => ?_⟩
    · rw [hout.seen name hname, if_pos hreloads]
    · rw [hout.seen name hname, hnot, if_neg Bool.false_ne_true, h name hname hnot]

/-! ### Steps -/

theorem Baselined.of_inStep (h : M.InStep row inst) : M.Baselined row inst :=
  ⟨h.adding, fun name hname _ => h.seen name hname, h.trail⟩

/-- Taking the baseline anew with nothing pending outside what is reloaded
brings all three copies in step. -/
theorem Baselined.rebaselined (h : M.Baselined row inst) (hout : M.Rebaselined cols row inst out)
    (hclean : M.Clean cols inst) : M.InStep row out where
  loaded := hout.loaded
  adding := hout.adding.trans h.adding
  trail := hout.trail h.trail
  seen name hname := by
    rw [hout.seen name hname]
    cases hcols : cols (M.historyAttname name) with
    | true => rw [if_pos rfl]
    | false =>
        rw [if_neg Bool.false_ne_true, readsAs]
        by_cases hmem : M.historyAttname name ∈ inst.deferred
        · rw [if_pos hmem]
        · rw [if_neg hmem, ← hclean name hname hcols hmem, h.seen name hname hmem]

theorem Baselined.settle (h : M.Baselined row inst)
    (hclean : inst.deferred.any M.trackedAttnames.contains = true → M.Clean (fun _ => false) inst) :
    M.InStep row (M.settle row inst) := by
  by_cases hany : inst.deferred.any M.trackedAttnames.contains = true
  · rw [settle_eq_refreshFromDb hany]
    exact h.rebaselined (rebaselined_refreshFromDb row _ inst) (hclean hany)
  · rw [HistoryModel.settle, if_neg hany]
    have hloaded : M.TrackedLoaded inst := fun a ha hmem =>
      hany (List.any_eq_true.mpr ⟨a, hmem, by simpa using ha⟩)
    exact ⟨hloaded, h.adding,
      fun name hname => h.seen name hname (hloaded _ (M.mem_trackedAttnames hname)), h.trail⟩

theorem Baselined.assign (h : M.Baselined row inst) (hname : name ∈ M.historyFields)
    (hloaded : M.historyAttname name ∉ inst.deferred) :
    M.Baselined row (M.assign inst name value) where
  adding := h.adding
  seen other hother hmem := by
    refine h.seen other hother fun hdeferred => ?_
    by_cases hsame : M.historyAttname other = M.historyAttname name
    · exact hloaded (hsame ▸ hdeferred)
    · exact hmem (List.mem_filter.mpr ⟨hdeferred, by simpa using hsame⟩)
  trail := by
    rw [← h.trail]
    have hne : historyColumn ≠ M.historyAttname name :=
      (M.historyAttname_ne_historyColumn hname).symm
    simp [trailSeen, HistoryModel.assign, hne]

/-! ### Runs -/

inductive RefreshStep
  | assign (name : String) (value : FieldValue)
  /-- The value of an attribute is used. -/
  | read (attname : String)
  | refresh (fields : Option (List String))
  | save (env : Env) (updateFields : Option (List String))

/-- An instance of any load, every tracked name a column. -/
def LoadedPartly (M : HistoryModel) (s : Writer) : Prop :=
  (∀ a ∈ M.trackedAttnames, a ∈ M.columns) ∧
    ∃ (defaults : String → FieldValue) (loaded : List String),
      (∀ a ∈ loaded, a ∈ M.columns) ∧ s.inst = M.fromDb s.row defaults loaded

/-- Assignments to tracked fields, reads, refreshes and successful saves, in any
order. Django refuses a refresh of anything but columns. -/
def refreshingWriter (M : HistoryModel) : System Writer RefreshStep where
  init s := M.Created s ∨ M.LoadedPartly s
  step s label t :=
    match label with
    | .assign name value => name ∈ M.historyFields ∧ t = ⟨s.row, M.assign s.inst name value⟩
    | .read attname => t = ⟨s.row, M.read s.row s.inst attname⟩
    | .refresh fields =>
        fields.any (fun names => !M.validNames names) = false ∧
          t = ⟨s.row, M.refresh s.row fields s.inst⟩
    | .save env updateFields =>
        (M.save env s.row updateFields none s.inst).raised = none ∧
          t = ⟨(M.save env s.row updateFields none s.inst).row,
            (M.save env s.row updateFields none s.inst).inst⟩

/-- The condition on a step: an assignment is to a field that has a baseline,
and whatever takes the baseline anew finds no edit pending outside what it
reloads or saves. -/
def keepsEditsStep (M : HistoryModel) (s : Writer) : RefreshStep → Prop
  | .assign name _ => M.historyAttname name ∉ s.inst.deferred
  | .read attname => attname ∈ s.inst.deferred → M.Clean (· == attname) s.inst
  | .refresh fields => M.Clean (M.reloads s.inst fields) s.inst
  | .save _ updateFields =>
      (s.inst.deferred.any M.trackedAttnames.contains = true → M.Clean (fun _ => false) s.inst) ∧
        M.KeepsPending updateFields (M.settle s.row s.inst)

theorem Baselined.of_loadedPartly {s : Writer} (h : M.LoadedPartly s) :
    M.Baselined s.row s.inst := by
  obtain ⟨hcolumns, defaults, loaded, hloaded, hinst⟩ := h
  have hload := M.loaded_fromDb s.row defaults hloaded
  rw [← hinst] at hload
  refine ⟨hload.adding, fun name hname hnot => ?_, hload.trail⟩
  have hmem : M.historyAttname name ∈ loaded := by
    by_contra habsent
    exact hnot (hload.mem_deferred.mpr ⟨hcolumns _ (M.mem_trackedAttnames hname), habsent⟩)
  rw [hload.seen name hname, if_pos hmem]

/-- A save is a save of what the instance reads as. -/
theorem saved_of_baselined {s : Writer} (h : M.Baselined s.row s.inst)
    (hguard : M.keepsEditsStep s (.save env updateFields))
    (hok : (M.save env s.row updateFields none s.inst).raised = none) :
    M.InStep s.row (M.settle s.row s.inst) ∧
      M.Saved env s.row updateFields (M.settle s.row s.inst)
        (M.save env s.row updateFields none s.inst) := by
  have hin := h.settle hguard.1
  rw [← M.save_settle] at hok ⊢
  exact ⟨hin, save_ok hin.loaded (by simp [hin.adding]) hok⟩

/-- The step lemma. -/
theorem inductive_baselined (hnamed : M.NamedByField) :
    ((refreshingWriter M).restrict M.keepsEditsStep).Inductive
      fun s => M.Baselined s.row s.inst where
  init s h := by
    rcases h with h | h
    · exact .of_inStep (.of_created h)
    · exact .of_loadedPartly h
  step s label t hs hstep := by
    obtain ⟨hguard, hstep⟩ := hstep
    cases label with
    | assign name value =>
        obtain ⟨hname, rfl⟩ := hstep
        exact hs.assign hname hguard
    | read attname =>
        obtain rfl := hstep
        by_cases hmem : attname ∈ s.inst.deferred
        · dsimp only
          rw [read_eq_refreshFromDb hmem]
          exact .of_inStep (hs.rebaselined (rebaselined_refreshFromDb s.row _ s.inst) (hguard hmem))
        · dsimp only
          rw [read_of_loaded hmem]
          exact hs
    | refresh fields =>
        obtain ⟨-, rfl⟩ := hstep
        exact .of_inStep (hs.rebaselined (rebaselined_refreshFromDb s.row _ s.inst) hguard)
    | save env updateFields =>
        obtain ⟨hok, rfl⟩ := hstep
        obtain ⟨hin, hsaved⟩ := saved_of_baselined hs hguard hok
        exact .of_inStep (hin.save hsaved hnamed hguard.2)

/-- Each call re-baselines only what it reloads exactly when every other tracked
name reads as its baseline; and in every run whose steps all leave pending edits
in the snapshot, every save is faithful. -/
theorem refresh_keeps_pending (hnamed : M.NamedByField) :
    (∀ row fields inst, M.RefreshKeeps row fields inst ↔
      ∀ name ∈ M.historyFields, M.reloads inst fields (M.historyAttname name) = false →
        inst.seen name = some (M.readsAs row inst name)) ∧
    ∀ s env updateFields t, ((refreshingWriter M).restrict M.keepsEditsStep).Reachable s →
      ((refreshingWriter M).restrict M.keepsEditsStep).step s (.save env updateFields) t →
        M.SaveFaithful s.row updateFields (M.settle s.row s.inst)
          (M.save env s.row updateFields none s.inst) := by
  refine ⟨refreshKeeps_iff, fun s env updateFields t hs hstep => ?_⟩
  obtain ⟨hguard, hok, -⟩ := hstep
  obtain ⟨hin, hsaved⟩ :=
    saved_of_baselined ((inductive_baselined hnamed).reachable hs) hguard hok
  exact hin.faithful hsaved hnamed

/-! ### A refresh of the status with the label pending -/

def wholeWidget : Writer where
  row := widgetRow
  inst := historyWidget.fromDb widgetRow (fun _ => .none) historyWidget.columns

def pendingLabel : Writer where
  row := widgetRow
  inst := historyWidget.assign wholeWidget.inst "label" (.str "after")

def refreshedStatus : Writer where
  row := widgetRow
  inst := historyWidget.refresh widgetRow (some ["status"]) pendingLabel.inst

theorem pendingLabel_reachable :
    ((refreshingWriter historyWidget).restrict historyWidget.keepsEditsStep).Reachable
      pendingLabel := by
  have hwhole : ((refreshingWriter historyWidget).restrict historyWidget.keepsEditsStep).Reachable
      wholeWidget :=
    .of_init (.inr ⟨by decide, fun _ => .none, historyWidget.columns, by decide, rfl⟩)
  have hassign : ((refreshingWriter historyWidget).restrict historyWidget.keepsEditsStep).step
      wholeWidget (.assign "label" (.str "after")) pendingLabel :=
    ⟨show historyWidget.historyAttname "label" ∉ wholeWidget.inst.deferred by decide,
      show "label" ∈ historyWidget.historyFields by decide, rfl⟩
  exact hwhole.next hassign

/-- The refresh takes the label's edit for its stored value; the full save that
follows stores it and records nothing. -/
theorem partial_refresh_forgets :
    ¬ historyWidget.RefreshKeeps widgetRow (some ["status"]) pendingLabel.inst ∧
      (refreshingWriter historyWidget).Reachable refreshedStatus ∧
      (historyWidget.save ⟨"noon", {}⟩ refreshedStatus.row none none refreshedStatus.inst).raised =
        none ∧
      ¬ historyWidget.SaveFaithful refreshedStatus.row none
        (historyWidget.settle refreshedStatus.row refreshedStatus.inst)
        (historyWidget.save ⟨"noon", {}⟩ refreshedStatus.row none none refreshedStatus.inst) := by
  refine ⟨fun hkeeps => ?_, ?_, rfl, fun hfaithful => ?_⟩
  · have hseen := hkeeps.kept "label" (by decide) (by decide)
    rw [show pendingLabel.inst.seen "label" = some (.str "before") from rfl,
      show (historyWidget.refresh widgetRow (some ["status"]) pendingLabel.inst).seen "label" =
        some (.str "after") from rfl] at hseen
    exact absurd (JsonValue.str.inj (Option.some.inj hseen)) (by decide)
  · have hrefresh : (refreshingWriter historyWidget).step pendingLabel
        (.refresh (some ["status"])) refreshedStatus := ⟨by decide, rfl⟩
    exact pendingLabel_reachable.of_restrict.next hrefresh
  · obtain ⟨entry, hentry, -⟩ := hfaithful.complete "label" (by decide) rfl (by decide +kernel)
    have hnone : (historyWidget.save ⟨"noon", {}⟩ refreshedStatus.row none none
        refreshedStatus.inst).entry.isSome = false := by decide +kernel
    rw [hentry] at hnone
    exact absurd hnone Bool.noConfusion

/-- Refreshing the label itself discards its edit, and a full save of the edit
records it. -/
theorem refresh_keeps_pendingLabel :
    historyWidget.RefreshKeeps widgetRow (some ["label"]) pendingLabel.inst ∧
      historyWidget.SaveFaithful widgetRow none
        (historyWidget.settle widgetRow pendingLabel.inst)
        (historyWidget.save ⟨"noon", {}⟩ widgetRow none none pendingLabel.inst) := by
  obtain ⟨hkeeps, hfaithful⟩ := @refresh_keeps_pending historyWidget (by decide)
  constructor
  · refine (hkeeps _ _ _).mpr fun name hname hnot => ?_
    simp only [historyWidget, List.mem_cons, List.not_mem_nil, or_false] at hname
    rcases hname with rfl | rfl | rfl | rfl
    · exact absurd hnot (by decide)
    · rfl
    · rfl
    · rfl
  · refine hfaithful pendingLabel ⟨"noon", {}⟩ none
      ⟨_, _⟩ pendingLabel_reachable ⟨⟨fun hany => ?_, fun hfetches => ?_⟩, rfl, rfl⟩
    · exact absurd hany (by decide)
    · rcases hfetches with ⟨names, hnames, -⟩ | ⟨hmem, -⟩
      · exact nomatch hnames
      · exact absurd hmem (by decide)

end HistoryModel

end NetixBackend.ChangeHistory
