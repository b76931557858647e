import NetixBackend.ChangeHistory.FailedSave

/-!
The two spellings of a column.

Django writes a column under its field name and under its attname. The diff
and the re-baseline look for the tracked name and for the attname of the
tracked name, which is the same list unless the tracked name is an attname
itself: then the field name is in nobody's list.
-/

namespace NetixBackend.ChangeHistory

open Python

namespace HistoryModel

variable (M : HistoryModel)

/-- A tracked value that the snapshot knows and that differs from it. -/
def Moved (inst : Instance) (name : String) : Prop :=
  ∃ old, inst.seen name = some old ∧ old.pyNe (M.current inst name) = true

/-- The entry of a save lists a tracked name. -/
def Entered (out : SaveOutcome) (name : String) : Prop :=
  ∃ entry, out.entry = some entry ∧ ∃ change ∈ entry.changes, change.field = name

/-- The column of a tracked name is one that a save writes. -/
def Stored (updateFields : Option (List String)) (inst : Instance) (name : String) : Prop :=
  M.stores (inst.writtenFields updateFields) (M.historyAttname name) = true

/-- The diff and the re-baseline of a save select the columns it writes. -/
structure SelectsWritten (updateFields : Option (List String)) (inst : Instance)
    (out : SaveOutcome) : Prop where
  written : ∀ name ∈ M.historyFields, M.Stored updateFields inst name →
    M.Moved inst name → Entered out name ∧ out.inst.seen name = some (M.current inst name)
  unwritten : ∀ name ∈ M.historyFields, ¬M.Stored updateFields inst name →
    ¬Entered out name ∧ out.inst.seen name = inst.seen name

/-- A field tracked by its attname and named by its field name only. -/
def Misspelled (names : List String) (name : String) : Prop :=
  ∃ f ∈ M.fields, f.concrete = true ∧ f.attname = some name ∧ f.name ≠ name ∧
    f.name ∈ names ∧ name ∉ names

/-- The condition: no moved field is misspelled, a save that loads a deferred
column on its way leaves no other tracked field pending, and the entry of a
first save, which lists what is not empty, has every moved field to list. -/
structure SpelledAlike (updateFields : Option (List String)) (inst : Instance) : Prop where
  spelling : ∀ name ∈ M.historyFields, M.Moved inst name →
    ∀ names ∈ inst.writtenFields updateFields, ¬M.Misspelled names name
  pending : M.Fetches updateFields inst → ∀ name ∈ M.historyFields,
    ¬M.Stored updateFields inst name → inst.seen name = some (M.current inst name)
  created : inst.adding = true → ∀ name ∈ M.historyFields, M.Moved inst name →
    isEmptyMarker (M.current inst name) = false

variable {M} {env : Env} {row : Row} {inst : Instance} {updateFields : Option (List String)}
  {verdict : Option PyError} {name : String}

theorem historyAttname_of_attname {f : Field} (hf : f ∈ M.fields) (hatt : f.attname = some name) :
    M.historyAttname name = name := by
  have hget : M.getField name = some f := M.getField_of_spells hf (by simp [Field.spells, hatt])
  simp [historyAttname, hget, hatt]

/-- What Django writes and the diff does not look at. -/
theorem stores_not_selects_iff (hname : name ∈ M.historyFields) :
    (M.stores updateFields (M.historyAttname name) = true ∧ M.selects updateFields name = false) ↔
      ∃ names ∈ updateFields, M.Misspelled names name := by
  cases updateFields with
  | none => simp [selects]
  | some names =>
      simp only [stores, selects, List.contains_eq_mem, decide_eq_true_eq, Bool.or_eq_false_iff,
        decide_eq_false_iff_not, Option.mem_some_iff, exists_eq_left']
      constructor
      · rintro ⟨hstores, hattname, hself⟩
        rcases M.mem_namedColumns.mp hstores with ⟨f, hf, hconcrete, hany, hatt⟩ | ⟨-, heq⟩
        · have hget : M.getField name = some f :=
            M.getField_of_spells_historyAttname hf (by simp [Field.spells, hatt])
          obtain ⟨spelling, hmem, hspells⟩ := List.any_eq_true.mp hany
          have hspelling : f.name = spelling := by
            simp only [Field.spells, Bool.or_eq_true, beq_iff_eq] at hspells
            refine hspells.resolve_right fun h => hattname ?_
            rwa [Option.some.inj (hatt.symm.trans h)]
          have hspelled := (M.getField_eq_some hget).2
          have hne : f.name ≠ name := fun h => hself (h ▸ hspelling ▸ hmem)
          simp only [Field.spells, Bool.or_eq_true, beq_iff_eq] at hspelled
          exact ⟨f, hf, hconcrete, hspelled.resolve_left hne, hne, hspelling ▸ hmem, hself⟩
        · exact absurd heq (M.historyAttname_ne_historyColumn hname)
      · rintro ⟨f, hf, hconcrete, hatt, -, hmem, hself⟩
        rw [historyAttname_of_attname hf hatt]
        refine ⟨M.mem_namedColumns.mpr (.inl ⟨f, hf, hconcrete, ?_, hatt⟩), hself, hself⟩
        exact List.any_eq_true.mpr ⟨f.name, hmem, by simp [Field.spells]⟩

/-- A save that loads a deferred column has re-baselined before it writes. -/
theorem snapshot_saveReads_of_fetches (hloaded : M.TrackedLoaded inst)
    (hadding : inst.adding = false) (hfetches : M.Fetches updateFields inst) :
    (M.saveReads row updateFields inst (M.entryFor env updateFields inst)).snapshot =
      some (M.valuesOf inst.attrs) := by
  have hprep := reads_prepared row hloaded (M.entryFor env updateFields inst)
  rw [saveReads, snapshot_foldl_read row (hprep.trackedLoaded hloaded), hprep.valuesOf_eq hloaded,
    snapshot_prepared row _ hloaded, Instance.writtenFields_of_existing hadding]
  split
  · rfl
  · rename_i hread
    rw [if_pos]
    by_contra hkept
    rcases hfetches with ⟨names, rfl, hmem⟩ | ⟨hmem, hrecords⟩
    · exact hread ((named_deferred_prepared hkept names).mpr hmem)
    · exact hkept ⟨(M.isSome_entryFor_iff hadding).mpr hrecords, hmem⟩

/-- After such a save the snapshot has the values in memory. -/
theorem seen_of_fetches (hloaded : M.TrackedLoaded inst) (hadding : inst.adding = false)
    (hok : (M.save env row updateFields verdict inst).raised = none)
    (hfetches : M.Fetches updateFields inst) (hname : name ∈ M.historyFields)
    (hsel : M.selects updateFields name = false) :
    (M.save env row updateFields verdict inst).inst.seen name = some (M.current inst name) := by
  obtain ⟨-, read, hread, hsave⟩ := save_eq_of_ok hloaded (by simp [hadding]) hok
  have hsnap : read.snapshot = some (M.valuesOf inst.attrs) :=
    hread ▸ snapshot_saveReads_of_fetches hloaded hadding hfetches
  rw [hsave, Instance.writtenFields_of_existing hadding]
  simp only [Instance.seen, Option.bind_some]
  rw [get?_resynced hname, hsel, if_neg Bool.false_ne_true, Instance.seen, hsnap, Option.bind_some,
    M.get?_valuesOf hname, current]

/-- The entry lists the moved names that the diff looks at. -/
theorem entered_iff (hadding : inst.adding = false) {out : SaveOutcome}
    (hsaved : M.Saved env row updateFields inst out) (hname : name ∈ M.historyFields) :
    Entered out name ↔ M.Moved inst name ∧ M.selects updateFields name = true := by
  unfold Entered
  rw [hsaved.entry]
  constructor
  · rintro ⟨entry, hentry, change, hmem, hfield⟩
    obtain ⟨tracked, -, old, hold, hne, hsel, rfl⟩ :=
      ((M.changes_of_entryFor hadding hentry).1 change).mp hmem
    obtain rfl : tracked = name := hfield
    exact ⟨⟨old, hold, hne⟩, hsel⟩
  · rintro ⟨⟨old, hold, hne⟩, hsel⟩
    obtain ⟨entry, hentry⟩ := M.exists_entryFor env hadding ⟨name, hname, old, hold, hne, hsel⟩
    exact ⟨entry, hentry, _, ((M.changes_of_entryFor hadding hentry).1 _).mpr
      ⟨name, hname, old, hold, hne, hsel, rfl⟩, rfl⟩

/-- The entry of a first save lists what is not empty. -/
theorem entered_created_iff (hadding : inst.adding = true) {out : SaveOutcome}
    (hsaved : M.Saved env row updateFields inst out) (hname : name ∈ M.historyFields) :
    Entered out name ↔ isEmptyMarker (M.current inst name) = false := by
  obtain ⟨entry, hentry, -, hchanges⟩ :=
    M.entryFor_of_adding hadding
      (List.ne_nil_of_mem hname)
  rw [Entered, hsaved.entry, hentry]
  constructor
  · rintro ⟨listed, heq, change, hmem, hfield⟩
    obtain rfl := Option.some.inj heq
    obtain ⟨tracked, -, hvalue, rfl⟩ := (hchanges change).mp hmem
    obtain rfl : tracked = name := hfield
    exact hvalue
  · exact fun hvalue => ⟨entry, rfl, _, (hchanges _).mpr ⟨name, hname, hvalue, rfl⟩, rfl⟩

/-- An UPDATE: what the diff looks at is what is written, save for misspelled names. -/
theorem selectsWritten_existing_iff (hadding : inst.adding = false) (hloaded : M.TrackedLoaded inst)
    (hok : (M.save env row updateFields verdict inst).raised = none) :
    M.SelectsWritten updateFields inst (M.save env row updateFields verdict inst) ↔
      M.SpelledAlike updateFields inst := by
  have hsaved := save_ok hloaded (by simp [hadding]) hok
  have hfields := Instance.writtenFields_of_existing hadding updateFields
  have hunselected : ∀ name ∈ M.historyFields, ¬M.Stored updateFields inst name →
      M.selects updateFields name = false := by
    intro name hname hstored
    by_contra hsel
    refine hstored ?_
    rw [Stored, hfields]
    exact M.stores_of_selects hname hsaved.valid (by simpa using hsel)
  constructor
  · intro h
    refine ⟨fun name hname hmoved names hnames hmis => ?_, fun hfetches name hname hstored => ?_,
      fun hnew => absurd (hadding.symm.trans hnew) Bool.false_ne_true⟩
    · rw [hfields] at hnames
      obtain ⟨hstores, hsel⟩ := (stores_not_selects_iff hname).mpr ⟨names, hnames, hmis⟩
      have hstored : M.Stored updateFields inst name := by rw [Stored, hfields, hstores]
      have hentered := (h.written name hname hstored hmoved).1
      rw [((entered_iff hadding hsaved hname).mp hentered).2] at hsel
      cases hsel
    · rw [← (h.unwritten name hname hstored).2]
      exact seen_of_fetches hloaded hadding hok hfetches hname (hunselected name hname hstored)
  · intro h
    refine ⟨fun name hname hstored hmoved => ?_, fun name hname hstored => ?_⟩
    · have hsel : M.selects updateFields name = true := by
        by_contra hsel
        rw [Stored, hfields] at hstored
        obtain ⟨names, hnames, hmis⟩ :=
          (stores_not_selects_iff hname).mp ⟨hstored, by simpa using hsel⟩
        exact h.spelling name hname hmoved names (hfields.symm ▸ hnames) hmis
      exact ⟨(entered_iff hadding hsaved hname).mpr ⟨hmoved, hsel⟩,
        hsaved.seen_selected name hname (by rw [hfields, hsel])⟩
    · have hsel := hunselected name hname hstored
      refine ⟨fun hentered => ?_, ?_⟩
      · rw [((entered_iff hadding hsaved hname).mp hentered).2] at hsel
        cases hsel
      · rcases hsaved.seen_unselected name hname (by rw [hfields, hsel]) with hs | ⟨hfetches, hs⟩
        · exact hs
        · rw [hs, h.pending hfetches name hname hstored]

/-- An INSERT writes every column and re-baselines them all. -/
theorem selectsWritten_created_iff (hadding : inst.adding = true) (hloaded : M.TrackedLoaded inst)
    (hok : (M.save env row updateFields verdict inst).raised = none) :
    M.SelectsWritten updateFields inst (M.save env row updateFields verdict inst) ↔
      M.SpelledAlike updateFields inst := by
  have hfields : inst.writtenFields updateFields = none := by
    rw [Instance.writtenFields, hadding, if_pos rfl]
  have hstored : ∀ name, M.Stored updateFields inst name := by
    intro name
    rw [Stored, hfields]
    rfl
  have hsaved : ∀ name ∈ M.historyFields,
      M.Saved env row updateFields inst (M.save env row updateFields verdict inst) :=
    fun name hname => save_ok hloaded (fun _ => .inr (List.ne_nil_of_mem hname)) hok
  constructor
  · intro h
    refine ⟨fun name hname hmoved names hnames => ?_, fun _ name _ hnot => ?_,
      fun _ name hname hmoved => ?_⟩
    · rw [hfields] at hnames
      cases hnames
    · exact absurd (hstored name) hnot
    · have hentered := (h.written name hname (hstored name) hmoved).1
      exact (entered_created_iff hadding (hsaved name hname) hname).mp hentered
  · intro h
    refine ⟨fun name hname _ hmoved => ?_, fun name _ hnot => absurd (hstored name) hnot⟩
    have hvalue := h.created hadding name hname hmoved
    refine ⟨(entered_created_iff hadding (hsaved name hname) hname).mpr hvalue, ?_⟩
    refine (hsaved name hname).seen_selected name hname ?_
    rw [hfields]
    rfl

/-- The names `from_db` takes into the snapshot are those whose column was
loaded, in either spelling, and the diff and the re-baseline of a save select
the columns that it writes exactly when its names are spelled alike. -/
theorem selectsWritten_iff (hloaded : M.TrackedLoaded inst)
    (hok : (M.save env row updateFields verdict inst).raised = none) :
    (∀ defaults loaded, (∀ a ∈ loaded, a ∈ M.columns) → ∀ name ∈ M.historyFields,
      ((M.fromDb row defaults loaded).seen name).isSome = true ↔
        M.historyAttname name ∈ loaded) ∧
    (M.SelectsWritten updateFields inst (M.save env row updateFields verdict inst) ↔
      M.SpelledAlike updateFields inst) := by
  constructor
  · intro defaults loaded hcolumns name hname
    rw [(M.loaded_fromDb row defaults hcolumns).seen name hname]
    split
    · next hmem => exact ⟨fun _ => hmem, fun _ => rfl⟩
    · next hnot => exact ⟨fun hsome => absurd hsome Bool.false_ne_true, fun h => absurd h hnot⟩
  · cases hadding : inst.adding with
    | false => exact selectsWritten_existing_iff hadding hloaded hok
    | true => exact selectsWritten_created_iff hadding hloaded hok

/-! ### A foreign key tracked by its attname -/

def attnameWidget : HistoryModel := { historyWidget with
  historyFields := ["label", "owner_id"]
  trailApart := by decide
  autoApart := by decide }

def pendingOwner : Instance :=
  attnameWidget.assign (attnameWidget.fromDb widgetRow (fun _ => .none) attnameWidget.columns)
    "owner_id" (.int 7)

/-- `save(update_fields=["owner"])` stores `owner_id` and records nothing. -/
theorem not_selectsWritten_pendingOwner :
    (attnameWidget.save ⟨"noon", {}⟩ widgetRow (some ["owner"]) none pendingOwner).raised = none ∧
    ¬attnameWidget.SelectsWritten (some ["owner"]) pendingOwner
      (attnameWidget.save ⟨"noon", {}⟩ widgetRow (some ["owner"]) none pendingOwner) := by
  refine ⟨by decide +kernel, fun h => ?_⟩
  have hnone : (attnameWidget.save ⟨"noon", {}⟩ widgetRow (some ["owner"]) none
      pendingOwner).entry.isNone = true := by decide +kernel
  have hmoved : attnameWidget.Moved pendingOwner "owner_id" := ⟨.null, rfl, rfl⟩
  have hstored : attnameWidget.Stored (some ["owner"]) pendingOwner "owner_id" := by
    unfold Stored
    decide +kernel
  obtain ⟨⟨entry, hentry, -⟩, -⟩ := h.written "owner_id" (by decide) hstored hmoved
  rw [hentry] at hnone
  cases hnone

/-- Named by its attname the same column is recorded. -/
theorem selectsWritten_pendingOwner :
    attnameWidget.SelectsWritten (some ["owner_id"]) pendingOwner
      (attnameWidget.save ⟨"noon", {}⟩ widgetRow (some ["owner_id"]) none pendingOwner) := by
  have hdeferred : pendingOwner.deferred = [] := by decide +kernel
  have hadding : pendingOwner.adding = false := by decide +kernel
  refine (selectsWritten_iff (attnameWidget.trackedLoaded_of_deferred_nil hdeferred)
    (by decide +kernel)).2.mpr ⟨?_, ?_, fun h => absurd (hadding.symm.trans h) Bool.false_ne_true⟩
  · rintro name - - names hnames ⟨f, hf, -, -, -, hmem, -⟩
    rw [Instance.writtenFields_of_existing hadding] at hnames
    obtain rfl := Option.some.inj hnames
    rw [List.mem_singleton] at hmem
    have hnot : ∀ f ∈ attnameWidget.fields, f.name ≠ "owner_id" := by decide
    exact absurd hmem (hnot f hf)
  · rintro (⟨names, -, a, -, hmem⟩ | ⟨hmem, -⟩)
    · simp [hdeferred] at hmem
    · simp [hdeferred] at hmem

end HistoryModel

end NetixBackend.ChangeHistory
