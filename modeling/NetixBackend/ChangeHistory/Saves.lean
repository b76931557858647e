import NetixBackend.ChangeHistory.Reads

/-!
What one save does.

A save first reads every tracked attribute, so saving an instance is saving
the settled instance (`save_settle`); from there on the tracked attributes are
loaded, the entry is a function of the snapshot and the attributes
(`entryFor`), and only two things can still move the snapshot before the
re-baseline: loading the deferred trail and loading a deferred column that
`update_fields` names (`Fetches`). `Saved` is all that a successful save
guarantees, `Failed` all that one refused by `Model.save` leaves behind; no
later module unfolds `save`.
-/

namespace NetixBackend.ChangeHistory

open Python

def Instance.seen (inst : Instance) (name : String) : Option JsonValue :=
  inst.snapshot.bind fun snapshot => snapshot.get? name

/-- The `update_fields` that decide what is written: an INSERT writes it all. -/
def Instance.writtenFields (inst : Instance) (updateFields : Option (List String)) :
    Option (List String) :=
  if inst.adding then none else updateFields

theorem Instance.writtenFields_of_existing {inst : Instance} (hadding : inst.adding = false)
    (updateFields : Option (List String)) : inst.writtenFields updateFields = updateFields := by
  rw [writtenFields, hadding, if_neg Bool.false_ne_true]

namespace HistoryModel

variable (M : HistoryModel)

/-! ### The entry -/

/-- The value of a tracked name as the trail records it. -/
def current (inst : Instance) (name : String) : JsonValue :=
  jsonSafe (inst.attrs (M.historyAttname name))

/-- The stored value of a tracked name as the trail records it. -/
def stored (row : Row) (name : String) : JsonValue :=
  jsonSafe (row.cells (M.historyAttname name))

/-- The entry a save of an instance with its tracked attributes loaded appends. -/
def entryFor (env : Env) (updateFields : Option (List String)) (inst : Instance) :
    Option Entry :=
  if M.historyFields.isEmpty then none
  else M.entryOf env updateFields inst.adding inst.snapshot (M.valuesOf inst.attrs)

theorem mem_valuesOf {attrs : String → FieldValue} {name : String} {value : JsonValue} :
    (name, value) ∈ (M.valuesOf attrs).items ↔
      name ∈ M.historyFields ∧ value = jsonSafe (attrs (M.historyAttname name)) :=
  Dict.mem_items_tabulate ..

theorem mem_diff {updateFields : Option (List String)} {snapshot : Dict String JsonValue}
    {attrs : String → FieldValue} {change : Change} :
    change ∈ M.diff updateFields snapshot (M.valuesOf attrs) ↔
      ∃ name ∈ M.historyFields, ∃ old, snapshot.get? name = some old ∧
        old.pyNe (jsonSafe (attrs (M.historyAttname name))) = true ∧
        M.selects updateFields name = true ∧
        change = M.change name old (jsonSafe (attrs (M.historyAttname name))) := by
  simp only [diff, List.mem_filterMap, Prod.exists, mem_valuesOf]
  constructor
  · rintro ⟨name, value, ⟨hname, rfl⟩, hchange⟩
    cases hold : snapshot.get? name with
    | none => simp [hold] at hchange
    | some old =>
        simp only [hold, Option.ite_none_right_eq_some, Bool.and_eq_true, Option.some.injEq]
          at hchange
        obtain ⟨⟨hne, hsel⟩, rfl⟩ := hchange
        exact ⟨name, hname, old, hold, hne, hsel, rfl⟩
  · rintro ⟨name, hname, old, hold, hne, hsel, rfl⟩
    exact ⟨name, _, ⟨hname, rfl⟩, by simp [hold, hne, hsel]⟩

theorem countP_diff (updateFields : Option (List String)) (snapshot current : Dict String JsonValue)
    (name : String) :
    (M.diff updateFields snapshot current).countP (·.field == name) ≤ 1 := by
  have hfields : ((M.diff updateFields snapshot current).map Change.field).Sublist
      (current.items.map Prod.fst) := by
    unfold diff
    induction current.items with
    | nil => simp
    | cons item items ih =>
        obtain ⟨name, value⟩ := item
        simp only [List.filterMap_cons, List.map_cons]
        cases hold : snapshot.get? name with
        | none => exact ih.cons name
        | some old =>
            dsimp only
            split
            · exact ih.cons name
            · rename_i change hchange
              obtain ⟨-, hsome⟩ := Option.ite_none_right_eq_some.mp hchange
              rw [List.map_cons, ← Option.some.inj hsome]
              exact ih.cons_cons name
  have hnodup := hfields.nodup current.nodup
  have hcount := List.nodup_iff_count_le_one.mp hnodup name
  rwa [List.count, List.countP_map] at hcount

theorem entryFor_eq_none_iff {env : Env} {updateFields : Option (List String)} {inst : Instance}
    (hadding : inst.adding = false) :
    M.entryFor env updateFields inst = none ↔
      ∀ name ∈ M.historyFields, ∀ old, inst.seen name = some old →
        old.pyNe (M.current inst name) = true → M.selects updateFields name = false := by
  cases hsnap : inst.snapshot with
  | none => simp [entryFor, entryOf, hadding, hsnap, Instance.seen]
  | some snapshot =>
      have hnil : M.diff updateFields snapshot (M.valuesOf inst.attrs) = [] ↔
          ∀ name ∈ M.historyFields, ∀ old, inst.seen name = some old →
            old.pyNe (M.current inst name) = true → M.selects updateFields name = false := by
        rw [List.eq_nil_iff_forall_not_mem]
        constructor
        · intro hnone name hname old hold hne
          by_contra hsel
          refine hnone _ (M.mem_diff.mpr ⟨name, hname, old, ?_, hne, by simpa using hsel, rfl⟩)
          simpa [Instance.seen, hsnap] using hold
        · rintro hall change hmem
          obtain ⟨name, hname, old, hold, hne, hsel, -⟩ := M.mem_diff.mp hmem
          rw [hall name hname old (by simpa [Instance.seen, hsnap] using hold) hne] at hsel
          exact Bool.false_ne_true hsel
      rw [← hnil]
      simp only [entryFor, entryOf, hadding, hsnap, Bool.false_eq_true, if_false,
        ite_eq_left_iff, List.isEmpty_iff]
      constructor
      · intro h
        by_cases hempty : M.historyFields = []
        · rw [List.eq_nil_iff_forall_not_mem]
          intro change hmem
          obtain ⟨name, hname, -⟩ := M.mem_diff.mp hmem
          simp [hempty] at hname
        · simpa using h hempty
      · rintro h -
        simp [h]

/-- There is something to record: a tracked name the save looks at differs
from the snapshot. -/
def Records (updateFields : Option (List String)) (inst : Instance) : Prop :=
  ∃ name ∈ M.historyFields, ∃ old, inst.seen name = some old ∧
    old.pyNe (M.current inst name) = true ∧ M.selects updateFields name = true

theorem isSome_entryFor_iff {env : Env} {updateFields : Option (List String)} {inst : Instance}
    (hadding : inst.adding = false) :
    (M.entryFor env updateFields inst).isSome = true ↔ M.Records updateFields inst := by
  rw [← not_iff_not, Option.not_isSome_iff_eq_none, M.entryFor_eq_none_iff hadding]
  simp [Records]

theorem exists_entryFor (env : Env) {updateFields : Option (List String)} {inst : Instance}
    (hadding : inst.adding = false) (hrecords : M.Records updateFields inst) :
    ∃ entry, M.entryFor env updateFields inst = some entry :=
  Option.isSome_iff_exists.mp ((M.isSome_entryFor_iff hadding).mpr hrecords)

/-- An entry of an existing row lists exactly the selected names whose value
differs from the snapshot, each once. -/
theorem changes_of_entryFor {env : Env} {updateFields : Option (List String)} {inst : Instance}
    {entry : Entry} (hadding : inst.adding = false)
    (hentry : M.entryFor env updateFields inst = some entry) :
    (∀ change, change ∈ entry.changes ↔
      ∃ name ∈ M.historyFields, ∃ old, inst.seen name = some old ∧
        old.pyNe (M.current inst name) = true ∧ M.selects updateFields name = true ∧
        change = M.change name old (M.current inst name)) ∧
    ∀ name, entry.changes.countP (·.field == name) ≤ 1 := by
  cases hsnap : inst.snapshot with
  | none => simp [entryFor, entryOf, hadding, hsnap] at hentry
  | some snapshot =>
      have hchanges : entry.changes = M.diff updateFields snapshot (M.valuesOf inst.attrs) := by
        simp only [entryFor, entryOf, hadding, hsnap, Bool.false_eq_true, if_false,
          Option.ite_none_left_eq_some, Option.some.injEq] at hentry
        rw [← hentry.2.2, historyEntry]
      rw [hchanges]
      refine ⟨fun change => ?_, M.countP_diff updateFields snapshot _⟩
      rw [M.mem_diff]
      simp only [Instance.seen, hsnap, Option.bind_some, current]

/-! ### The columns -/

def stores (updateFields : Option (List String)) (attname : String) : Bool :=
  match updateFields with
  | none => true
  | some names => (M.namedColumns names).contains attname

theorem mem_namedColumns {names : List String} {attname : String} :
    attname ∈ M.namedColumns names ↔
      (∃ f ∈ M.fields, f.concrete = true ∧ names.any f.spells = true ∧ f.attname = some attname) ∨
        (historyColumn ∈ names ∧ attname = historyColumn) := by
  simp only [namedColumns, List.mem_append, List.mem_filterMap, List.mem_filter, Bool.and_eq_true,
    List.contains_eq_mem, decide_eq_true_eq]
  constructor
  · rintro (⟨f, ⟨hf, hconcrete, hany⟩, hatt⟩ | h)
    · exact .inl ⟨f, hf, hconcrete, hany, hatt⟩
    · split at h
      · exact .inr ⟨‹_›, by simpa using h⟩
      · simp at h
  · rintro (⟨f, hf, hconcrete, hany, hatt⟩ | ⟨hmem, rfl⟩)
    · exact .inl ⟨f, ⟨hf, hconcrete, hany⟩, hatt⟩
    · exact .inr (by simp [hmem])

theorem historyColumn_mem_namedColumns {names : List String} :
    historyColumn ∈ M.namedColumns names ↔ historyColumn ∈ names := by
  rw [M.mem_namedColumns]
  constructor
  · rintro (⟨f, hf, -, -, hatt⟩ | ⟨hmem, -⟩)
    · have hspells : f.spells historyColumn = true := by simp [Field.spells, hatt]
      rw [M.trailApart.1 f hf] at hspells
      exact absurd hspells Bool.false_ne_true
    · exact hmem
  · exact fun hmem => .inr ⟨hmem, rfl⟩

/-- Naming the trail as well adds the trail column and no other. -/
theorem mem_namedColumns_append {names : List String} {attname : String} :
    attname ∈ M.namedColumns (names ++ [historyColumn]) ↔
      attname ∈ M.namedColumns names ∨ attname = historyColumn := by
  by_cases ha : attname = historyColumn
  · subst ha
    simp [M.historyColumn_mem_namedColumns]
  · rw [M.mem_namedColumns, M.mem_namedColumns]
    simp only [ha, and_false, or_false]
    constructor
    · rintro ⟨f, hf, hconcrete, hany, hatt⟩
      refine ⟨f, hf, hconcrete, ?_, hatt⟩
      rw [List.any_append, List.any_cons, M.trailApart.1 f hf] at hany
      simpa using hany
    · rintro ⟨f, hf, hconcrete, hany, hatt⟩
      exact ⟨f, hf, hconcrete, by simp [List.any_append, hany], hatt⟩

/-- A tracked name the diff looks at names the column it is stored in. -/
theorem stores_of_selects {updateFields : Option (List String)} {name : String}
    (hname : name ∈ M.historyFields)
    (hvalid : updateFields.any (fun names => !M.validNames names) = false)
    (hsel : M.selects updateFields name = true) :
    M.stores updateFields (M.historyAttname name) = true := by
  cases updateFields with
  | none => rfl
  | some names =>
      have hcol : name ≠ historyColumn := fun h => M.trailApart.2 (h ▸ hname)
      simp only [Option.any_some, Bool.not_eq_false', validNames, List.all_eq_true, Bool.or_eq_true,
        beq_iff_eq, List.any_eq_true, Bool.and_eq_true, List.contains_eq_mem,
        decide_eq_true_eq] at hvalid
      -- the name used, in whichever spelling, belongs to a concrete field
      have hfield : ∀ spelling ∈ names, spelling ≠ historyColumn →
          (spelling = name ∨ spelling = M.historyAttname name) →
          M.historyAttname name ∈ M.namedColumns names := by
        intro spelling hmem hne heq
        have hauto : spelling ∉ M.autoColumns := by
          rcases heq with rfl | rfl
          · exact fun h => (M.autoApart _ h).2 hname
          · exact M.historyAttname_not_mem_autoColumns hname
        obtain ⟨f, hf, hconcrete, hspells⟩ :=
          (hvalid spelling hmem).resolve_left (not_or.mpr ⟨hne, hauto⟩)
        obtain ⟨column, hcolumn⟩ := Option.isSome_iff_exists.mp (f.columnNamed hconcrete)
        have hget : M.getField name = some f := by
          rcases heq with rfl | rfl
          · exact M.getField_of_spells hf hspells
          · exact M.getField_of_spells_historyAttname hf hspells
        refine M.mem_namedColumns.mpr (.inl ⟨f, hf, hconcrete, ?_, ?_⟩)
        · exact List.any_eq_true.mpr ⟨spelling, hmem, hspells⟩
        · simp [historyAttname, hget, hcolumn]
      simp only [selects, Bool.or_eq_true, List.contains_eq_mem, decide_eq_true_eq] at hsel
      simp only [stores, List.contains_eq_mem, decide_eq_true_eq]
      rcases hsel with hmem | hmem
      · exact hfield _ hmem (M.historyAttname_ne_historyColumn hname) (.inr rfl)
      · exact hfield _ hmem hcol (.inl rfl)

/-- `history_fields` holds field names and plain attribute names, no attname
of a field with a name of its own. -/
def NamedByField : Prop :=
  ∀ name ∈ M.historyFields, ∀ f ∈ M.fields, f.spells name = true → f.name = name

instance : Decidable M.NamedByField :=
  inferInstanceAs (Decidable (∀ name ∈ M.historyFields, ∀ f ∈ M.fields,
    f.spells name = true → f.name = name))

/-- Conversely, the column of such a name is stored only under a spelling the
diff looks for. -/
theorem selects_of_stores {updateFields : Option (List String)} {name : String}
    (hnamed : M.NamedByField) (hname : name ∈ M.historyFields)
    (hstores : M.stores updateFields (M.historyAttname name) = true) :
    M.selects updateFields name = true := by
  cases updateFields with
  | none => rfl
  | some names =>
      simp only [stores, List.contains_eq_mem, decide_eq_true_eq] at hstores
      simp only [selects, Bool.or_eq_true, List.contains_eq_mem, decide_eq_true_eq]
      rcases M.mem_namedColumns.mp hstores with ⟨f, hf, -, hany, hatt⟩ | ⟨-, heq⟩
      · have hget : M.getField name = some f :=
          M.getField_of_spells_historyAttname hf (by simp [Field.spells, hatt])
        obtain ⟨spelling, hmem, hspells⟩ := List.any_eq_true.mp hany
        simp only [Field.spells, Bool.or_eq_true, beq_iff_eq] at hspells
        rcases hspells with rfl | hspells
        · have hspelled := (M.getField_eq_some hget).2
          exact .inr (hnamed name hname f hf hspelled ▸ hmem)
        · rw [hatt, Option.some.injEq] at hspells
          exact .inl (hspells ▸ hmem)
      · exact absurd heq (M.historyAttname_ne_historyColumn hname)

/-- The entry of a first save lists exactly the tracked values that are not
empty, with no old value. -/
theorem entryFor_of_adding {env : Env} {updateFields : Option (List String)} {inst : Instance}
    (hadding : inst.adding = true) (hfields : M.historyFields ≠ []) :
    ∃ entry, M.entryFor env updateFields inst = some entry ∧ entry.action = .created ∧
      ∀ change, change ∈ entry.changes ↔ ∃ name ∈ M.historyFields,
        isEmptyMarker (M.current inst name) = false ∧
          change = M.change name .null (M.current inst name) := by
  have hentry : M.entryFor env updateFields inst = some (historyEntry env .created
      (((M.valuesOf inst.attrs).items.filter fun item => !isEmptyMarker item.2).map
        fun item => M.change item.1 .null item.2)) := by
    simp only [entryFor, entryOf, List.isEmpty_iff, hfields, if_false, hadding, if_true]
  refine ⟨_, hentry, rfl, fun change => ?_⟩
  simp only [historyEntry, List.mem_map, List.mem_filter, Prod.exists, mem_valuesOf, current]
  constructor
  · rintro ⟨name, value, ⟨⟨hname, rfl⟩, hvalue⟩, rfl⟩
    exact ⟨name, hname, by simpa using hvalue, rfl⟩
  · rintro ⟨name, hname, hvalue, rfl⟩
    exact ⟨name, _, ⟨⟨hname, rfl⟩, by simpa using hvalue⟩, rfl⟩

/-! ### Loading an instance -/

theorem historyAttname_mem_of_mem {loaded : List String} (hloaded : ∀ a ∈ loaded, a ∈ M.columns)
    {name : String} (hname : name ∈ M.historyFields) (hmem : name ∈ loaded) :
    M.historyAttname name ∈ loaded := by
  have hcolumn := hloaded name hmem
  simp only [columns, List.mem_append, List.mem_filterMap, List.mem_filter,
    List.mem_singleton] at hcolumn
  rcases hcolumn with ⟨f, ⟨hf, -⟩, hatt⟩ | rfl
  · have hspells : f.spells name = true := by simp [Field.spells, hatt]
    have hget := M.getField_of_spells hf hspells
    simpa [historyAttname, hget, hatt] using hmem
  · exact absurd hname M.trailApart.2

/-- The baseline taken while loading leaves deferred names out and reads no
deferred attribute. -/
theorem historyValues_loaded (read : Instance → String → Instance) {loaded : List String}
    {inst : Instance} (hloaded : ∀ a ∈ loaded, a ∈ M.columns)
    (hread : ∀ a ∈ loaded, read inst a = inst) :
    M.historyValues read (some loaded) inst =
      (inst, Dict.tabulate (M.historyFields.filter fun name =>
        loaded.contains (M.historyAttname name)) (M.current inst)) := by
  have hfold : ∀ names : List String, (∀ name ∈ names, name ∈ M.historyFields) →
      ∀ values : Dict String JsonValue,
        names.foldl (fun acc name =>
          if (some loaded).any fun names =>
              !names.contains name && !names.contains (M.historyAttname name) then acc
          else (read acc.1 (M.historyAttname name), acc.2.set name
            (jsonSafe ((read acc.1 (M.historyAttname name)).attrs (M.historyAttname name)))))
          (inst, values) =
        (inst, (names.filter fun name => loaded.contains (M.historyAttname name)).foldl
          (fun acc name => acc.set name (M.current inst name)) values) := by
    intro names hnames
    induction names with
    | nil => exact fun _ => rfl
    | cons name rest ih =>
        intro values
        have hrest := ih fun n hn => hnames n (List.mem_cons_of_mem _ hn)
        rw [List.foldl_cons]
        by_cases hmem : M.historyAttname name ∈ loaded
        · rw [if_neg (by simp [hmem]), hread _ hmem, List.filter_cons_of_pos (by simpa using hmem),
            List.foldl_cons]
          exact hrest _
        · have hname : name ∉ loaded := fun h =>
            hmem (M.historyAttname_mem_of_mem hloaded (hnames name (by simp)) h)
          rw [if_pos (by simp [hmem, hname]), List.filter_cons_of_neg (by simpa using hmem)]
          exact hrest values
  exact hfold M.historyFields (fun _ h => h) Dict.empty

structure Loaded (row : Row) (defaults : String → FieldValue) (loaded : List String)
    (inst : Instance) : Prop where
  attrs : ∀ a, inst.attrs a = if a ∈ loaded then row.cells a else defaults a
  deferred : inst.deferred = M.columns.filter fun a => !loaded.contains a
  trail : trailSeen row inst = row.trail
  adding : inst.adding = false
  seen : ∀ name ∈ M.historyFields, inst.seen name =
    if M.historyAttname name ∈ loaded then some (M.stored row name) else none

variable {M} in
theorem Loaded.mem_deferred {row : Row} {defaults : String → FieldValue} {loaded : List String}
    {inst : Instance} (h : M.Loaded row defaults loaded inst) {a : String} :
    a ∈ inst.deferred ↔ a ∈ M.columns ∧ a ∉ loaded := by
  simp [h.deferred]

theorem loaded_fromDb (row : Row) (defaults : String → FieldValue) {loaded : List String}
    (hloaded : ∀ a ∈ loaded, a ∈ M.columns) :
    M.Loaded row defaults loaded (M.fromDb row defaults loaded) := by
  have hread : ∀ a ∈ loaded, M.read row (M.modelFromDb row defaults loaded) a =
      M.modelFromDb row defaults loaded :=
    fun a ha => read_of_loaded (by simp [modelFromDb, ha])
  rw [fromDb, M.historyValues_loaded (M.read row) hloaded hread]
  refine ⟨fun a => by simp [modelFromDb], rfl, ?_, rfl,
    fun name hname => ?_⟩
  · by_cases hmem : historyColumn ∈ loaded
    · simp [trailSeen, modelFromDb, hmem]
    · simp [trailSeen, modelFromDb, hmem, columns]
  · simp only [Instance.seen, Option.bind_some, Dict.get?_tabulate, List.mem_filter, hname,
      true_and, List.contains_eq_mem, decide_eq_true_eq]
    split
    · rename_i hmem
      simp [current, stored, modelFromDb, hmem]
    · rfl

/-! ### The steps of a save -/

theorem trackedLoaded_settle (row : Row) (inst : Instance) :
    M.TrackedLoaded (M.settle row inst) := by
  intro a ha hmem
  unfold settle at hmem
  split at hmem
  · change a ∈ (M.fetch row _ inst).deferred at hmem
    rw [M.deferred_fetch, List.mem_filter] at hmem
    simp [ha] at hmem
  · rename_i hany
    exact hany (List.any_eq_true.mpr ⟨a, hmem, by simpa using ha⟩)

theorem settle_of_historyFields_nil (h : M.historyFields = []) (row : Row) (inst : Instance) :
    M.settle row inst = inst :=
  M.settle_of_trackedLoaded (fun a ha => by simp [trackedAttnames, h] at ha) row

theorem buildHistoryEntry_eq (env : Env) (row : Row) (updateFields : Option (List String))
    (inst : Instance) :
    M.buildHistoryEntry env row updateFields inst =
      (M.settle row inst, M.entryFor env updateFields (M.settle row inst)) := by
  unfold buildHistoryEntry entryFor
  by_cases h : M.historyFields = []
  · simp [h, M.settle_of_historyFields_nil h]
  · simp [h, M.historyValues_eq]

def superFields (updateFields : Option (List String)) (entry : Option Entry) :
    Option (List String) :=
  match entry with
  | none => updateFields
  | some _ => updateFields.map (· ++ [historyColumn])

def trailAfter (row : Row) (inst : Instance) (entry : Option Entry) : Trail :=
  match entry with
  | none => trailSeen row inst
  | some entry => some (M.appendEntry (trailSeen row inst).entries entry)

def prepared (row : Row) (inst : Instance) (entry : Option Entry) : Instance :=
  match entry with
  | none => inst
  | some _ => { M.read row inst historyColumn with trail := M.trailAfter row inst entry }

theorem prepareSave_eq (env : Env) (row : Row) (updateFields : Option (List String))
    (inst : Instance) :
    M.prepareSave env row updateFields inst =
      let settled := M.settle row inst
      let entry := M.entryFor env updateFields settled
      (M.prepared row settled entry, superFields updateFields entry, entry) := by
  simp only [prepareSave, M.buildHistoryEntry_eq]
  cases M.entryFor env updateFields (M.settle row inst) with
  | none => rfl
  | some entry =>
      have htrail : (M.read row (M.settle row inst) historyColumn).trail =
          trailSeen row (M.settle row inst) := by
        simp [trail_read, trailSeen]
      simp only [prepared, superFields, trailAfter, htrail]

theorem save_settle (env : Env) (row : Row) (updateFields : Option (List String))
    (verdict : Option PyError) (inst : Instance) :
    M.save env row updateFields verdict (M.settle row inst) =
      M.save env row updateFields verdict inst := by
  unfold save
  rw [M.prepareSave_eq, M.prepareSave_eq,
    M.settle_of_trackedLoaded (M.trackedLoaded_settle row inst)]

variable {M} {env : Env} {row : Row} {inst : Instance} {updateFields : Option (List String)}
  {verdict : Option PyError} {entry : Option Entry} {attname : String}

theorem reads_prepared (row : Row) (hloaded : M.TrackedLoaded inst) (entry : Option Entry) :
    M.Reads inst (M.prepared row inst entry) := by
  cases entry with
  | none => exact .refl
  | some entry =>
      have h := M.reads_read row hloaded historyColumn
      exact ⟨h.attrs, h.deferred, h.snapshot, h.adding⟩

theorem trailSeen_prepared (row : Row) (inst : Instance) (entry : Option Entry) :
    trailSeen row (M.prepared row inst entry) = M.trailAfter row inst entry := by
  cases entry with
  | none => rfl
  | some entry => simp [trailSeen, prepared, M.not_mem_deferred_read row inst historyColumn]

theorem trail_of_not_deferred (h : historyColumn ∉ inst.deferred) (row : Row) :
    inst.trail = trailSeen row inst := by
  rw [trailSeen, if_neg h]

/-! ### A successful save -/

/-- Whether a partial save loads a deferred column on its way: one it names,
or the trail because it has an entry to append. -/
def Fetches (M : HistoryModel) (updateFields : Option (List String)) (inst : Instance) : Prop :=
  (∃ names, updateFields = some names ∧ ∃ a ∈ M.namedColumns names, a ∈ inst.deferred) ∨
    (historyColumn ∈ inst.deferred ∧ M.Records updateFields inst)

/-- All that a successful save of an instance with its tracked attributes
loaded guarantees. -/
structure Saved (M : HistoryModel) (env : Env) (row : Row) (updateFields : Option (List String))
    (inst : Instance) (out : SaveOutcome) : Prop where
  entry : out.entry = M.entryFor env updateFields inst
  valid : updateFields.any (fun names => !M.validNames names) = false
  attrs : ∀ a ∈ M.trackedAttnames, out.inst.attrs a = inst.attrs a
  deferred : ∀ a ∈ out.inst.deferred, a ∈ inst.deferred
  adding : out.inst.adding = false
  cells : ∀ a ∈ M.trackedAttnames, out.row.cells a =
    if M.stores (inst.writtenFields updateFields) a then inst.attrs a else row.cells a
  /-- The trail in the row is written by a save that names it or adds to it. -/
  rowTrail : out.row.trail =
    if out.entry.isSome || M.stores (inst.writtenFields updateFields) historyColumn then
      M.trailAfter row inst out.entry
    else row.trail
  trailSeen : trailSeen out.row out.inst = M.trailAfter row inst out.entry
  seen_selected : ∀ name ∈ M.historyFields,
    M.selects (inst.writtenFields updateFields) name = true →
      out.inst.seen name = some (M.current inst name)
  /-- What was not written stays pending, unless a deferred load re-baselined
  the whole snapshot. -/
  seen_unselected : ∀ name ∈ M.historyFields,
    M.selects (inst.writtenFields updateFields) name = false →
      out.inst.seen name = inst.seen name ∨
        (M.Fetches updateFields inst ∧ out.inst.seen name = some (M.current inst name))

theorem modelSave_ok (hok : (M.modelSave row updateFields verdict inst).raised = none)
    (hskip : inst.adding = true → updateFields ≠ some []) :
    updateFields.any (fun names => !M.validNames names) = false ∧
      ∃ read, read =
          ((inst.writtenFields updateFields).elim [] M.namedColumns).foldl (M.read row) inst ∧
        M.modelSave row updateFields verdict inst =
          ⟨{ read with adding := false },
            row.write read (M.writes read (inst.writtenFields updateFields)), none⟩ := by
  unfold modelSave at hok ⊢
  split at hok
  · rename_i hempty
    have hadding : inst.adding = false := Bool.eq_false_iff.mpr fun h => hskip h hempty
    subst hempty
    have hself : ({ inst with adding := false } : Instance) = inst := by rw [← hadding]
    refine ⟨rfl, inst, ?_, ?_⟩
    · simp [Instance.writtenFields, hadding, namedColumns]
    · rw [if_pos rfl, hself]
      simp [Instance.writtenFields, hadding, Row.write, writes, namedColumns]
  · rename_i hempty
    rw [if_neg hempty]
    split at hok
    · simp at hok
    · rename_i hvalid
      rw [if_neg hvalid]
      split at hok
      · simp at hok
      · rename_i hinsert
        rw [if_neg hinsert]
        refine ⟨by simpa using hvalid, _, rfl, ?_⟩
        cases verdict with
        | none => rfl
        | some error => simp at hok

/-- A save writes a loaded column exactly when `stores` says so. -/
theorem writes_eq_stores (hmem : attname ∉ inst.deferred) :
    M.writes inst updateFields attname = M.stores updateFields attname := by
  cases updateFields <;> simp [writes, stores, hmem]

theorem stores_superFields (hne : attname ≠ historyColumn) :
    M.stores (superFields updateFields entry) attname = M.stores updateFields attname := by
  cases entry with
  | none => rfl
  | some entry =>
      cases updateFields with
      | none => rfl
      | some names =>
          simp [superFields, stores, M.mem_namedColumns_append, hne]

theorem stores_superFields_historyColumn :
    M.stores (superFields updateFields entry) historyColumn =
      (entry.isSome || M.stores updateFields historyColumn) := by
  cases entry with
  | none => simp [superFields]
  | some entry =>
      cases updateFields with
      | none => rfl
      | some names => simp [superFields, stores, M.mem_namedColumns_append]

theorem writtenFields_superFields :
    inst.writtenFields (superFields updateFields entry) =
      superFields (inst.writtenFields updateFields) entry := by
  unfold Instance.writtenFields
  cases entry <;> split <;> rfl

theorem valid_superFields :
    (superFields updateFields entry).any (fun names => !M.validNames names) =
      updateFields.any fun names => !M.validNames names := by
  cases entry with
  | none => rfl
  | some entry =>
      cases updateFields with
      | none => rfl
      | some names => simp [superFields, validNames, List.all_append]

def resynced (M : HistoryModel) (updateFields : Option (List String)) (inst : Instance) :
    Dict String JsonValue :=
  match updateFields with
  | none => M.valuesOf inst.attrs
  | some names =>
      (inst.snapshot.getD Dict.empty).update ((M.valuesOf inst.attrs).filterKeys fun name =>
        names.contains name || names.contains (M.historyAttname name))

theorem syncHistorySnapshot_eq (hloaded : M.TrackedLoaded inst) (row : Row)
    (updateFields : Option (List String)) :
    M.syncHistorySnapshot row updateFields inst =
      { inst with snapshot := some (M.resynced updateFields inst) } := by
  rw [syncHistorySnapshot, M.historyValues_of_trackedLoaded hloaded]
  cases updateFields <;> rfl

theorem get?_resynced {name : String} (hname : name ∈ M.historyFields) :
    (M.resynced updateFields inst).get? name =
      if M.selects updateFields name then some (M.current inst name) else inst.seen name := by
  cases updateFields with
  | none => simp [resynced, selects, M.get?_valuesOf hname, current]
  | some names =>
      have hbase : (inst.snapshot.getD Dict.empty).get? name = inst.seen name := by
        cases h : inst.snapshot <;> simp [Instance.seen, h]
      rw [resynced, Dict.get?_update, Dict.get?_filterKeys, hbase, M.get?_valuesOf hname,
        Bool.or_comm]
      change _ = if (names.contains (M.historyAttname name) || names.contains name) then _ else _
      split <;> simp [current]

def saveReads (M : HistoryModel) (row : Row) (updateFields : Option (List String))
    (inst : Instance) (entry : Option Entry) : Instance :=
  ((superFields (inst.writtenFields updateFields) entry).elim [] M.namedColumns).foldl
    (M.read row) (M.prepared row inst entry)

theorem writtenFields_prepared (hloaded : M.TrackedLoaded inst) :
    (M.prepared row inst entry).writtenFields (superFields updateFields entry) =
      superFields (inst.writtenFields updateFields) entry := by
  have hprep := M.reads_prepared row hloaded entry
  rw [writtenFields_superFields, Instance.writtenFields, hprep.adding, Instance.writtenFields]

theorem reads_saveReads (row : Row) (updateFields : Option (List String))
    (hloaded : M.TrackedLoaded inst) (entry : Option Entry) :
    M.Reads inst (M.saveReads row updateFields inst entry) := by
  have hprep := M.reads_prepared row hloaded entry
  exact hprep.trans (reads_foldl row (hprep.trackedLoaded hloaded) _) hloaded

theorem trailSeen_saveReads (row : Row) (updateFields : Option (List String)) (inst : Instance)
    (entry : Option Entry) :
    trailSeen row (M.saveReads row updateFields inst entry) = M.trailAfter row inst entry := by
  rw [saveReads, trailSeen_foldl, trailSeen_prepared]

/-- Without a deferred column to load, no read of the save changes the
snapshot. -/
theorem snapshot_saveReads (h : ¬ M.Fetches updateFields inst) (hadding : inst.adding = false) :
    (M.saveReads row updateFields inst (M.entryFor env updateFields inst)).snapshot =
      inst.snapshot := by
  obtain ⟨hnamed, htrail⟩ := not_or.mp h
  have hread : ∀ names, updateFields = some names → ∀ a ∈ M.namedColumns names,
      a ∉ inst.deferred := fun names hnames a ha hmem => hnamed ⟨names, hnames, a, ha, hmem⟩
  rw [saveReads, Instance.writtenFields_of_existing hadding]
  cases hentry : M.entryFor env updateFields inst with
  | none =>
      rw [prepared, superFields, foldl_read_of_loaded]
      intro a ha
      cases updateFields with
      | none => simp at ha
      | some names => exact hread names rfl a ha
  | some entry =>
      have hmem : historyColumn ∉ inst.deferred := fun hmem =>
        htrail ⟨hmem, (M.isSome_entryFor_iff hadding).mp (by rw [hentry]; rfl)⟩
      rw [foldl_read_of_loaded, prepared, read_of_loaded hmem]
      intro a ha
      rw [prepared, read_of_loaded hmem]
      cases updateFields with
      | none => simp [superFields] at ha
      | some names =>
          rcases M.mem_namedColumns_append.mp ha with ha | rfl
          · exact hread names rfl a ha
          · exact hmem

/-- Whatever column a save writes, it has been read by then. -/
theorem not_mem_deferred_of_writes (hloaded : M.TrackedLoaded inst)
    (hwrites : M.writes (M.saveReads row updateFields inst entry)
      (superFields (inst.writtenFields updateFields) entry) attname = true) :
    attname ∉ (M.saveReads row updateFields inst entry).deferred := by
  unfold saveReads at hwrites ⊢
  cases hfields : superFields (inst.writtenFields updateFields) entry with
  | none => simpa [hfields, writes] using hwrites
  | some names =>
      have hprep := (M.reads_prepared row hloaded entry).trackedLoaded hloaded
      rw [hfields] at hwrites
      exact not_mem_deferred_foldl hprep (by simpa [writes] using hwrites)

theorem save_eq_of_ok (hloaded : M.TrackedLoaded inst)
    (hskip : inst.adding = true → updateFields ≠ some [] ∨ M.historyFields ≠ [])
    (hok : (M.save env row updateFields verdict inst).raised = none) :
    updateFields.any (fun names => !M.validNames names) = false ∧
      ∃ read, read = M.saveReads row updateFields inst (M.entryFor env updateFields inst) ∧
        M.save env row updateFields verdict inst =
          ⟨{ read with
              adding := false
              snapshot := some (M.resynced (inst.writtenFields updateFields) read) },
            row.write read (M.writes read (superFields (inst.writtenFields updateFields)
              (M.entryFor env updateFields inst))),
            none, M.entryFor env updateFields inst⟩ := by
  let entry := M.entryFor env updateFields inst
  have hprep : M.Reads inst (M.prepared row inst entry) := reads_prepared row hloaded entry
  have hskip' : (M.prepared row inst entry).adding = true →
      superFields updateFields entry ≠ some [] := by
    intro hadding
    rw [hprep.adding] at hadding
    cases hentry : entry with
    | some e => cases updateFields <;> simp [superFields]
    | none =>
        rcases hskip hadding with hne | hne
        · exact hne
        · simp [entry, entryFor, entryOf, hadding, hne] at hentry
  have hsave := M.prepareSave_eq env row updateFields inst
  rw [M.settle_of_trackedLoaded hloaded] at hsave
  unfold save at hok ⊢
  rw [hsave] at hok ⊢
  dsimp only at hok ⊢
  have hraised : (M.modelSave row (superFields updateFields entry) verdict
      (M.prepared row inst entry)).raised = none := by
    split at hok
    · simp at hok
    · assumption
  obtain ⟨hvalid, read, hread, hmodel⟩ := modelSave_ok hraised hskip'
  rw [writtenFields_prepared hloaded] at hread hmodel
  replace hread : read = M.saveReads row updateFields inst entry := hread
  have hreads : M.Reads inst read := hread ▸ reads_saveReads row updateFields hloaded entry
  have hloaded' : M.TrackedLoaded { read with adding := false } := hreads.trackedLoaded hloaded
  have hsync := M.syncHistorySnapshot_eq hloaded'
    (row.write read (M.writes read (superFields (inst.writtenFields updateFields) entry)))
    (inst.writtenFields updateFields)
  refine ⟨valid_superFields ▸ hvalid, read, hread, ?_⟩
  rw [hmodel, hprep.adding]
  exact congrArg (fun inst => (⟨inst, _, none, entry⟩ : SaveOutcome)) hsync

theorem save_ok (hloaded : M.TrackedLoaded inst)
    (hskip : inst.adding = true → updateFields ≠ some [] ∨ M.historyFields ≠ [])
    (hok : (M.save env row updateFields verdict inst).raised = none) :
    M.Saved env row updateFields inst (M.save env row updateFields verdict inst) := by
  obtain ⟨hvalid, read, hread, hsave⟩ := save_eq_of_ok hloaded hskip hok
  have hreads : M.Reads inst read := hread ▸ reads_saveReads row updateFields hloaded _
  have htrail : trailSeen row read = M.trailAfter row inst (M.entryFor env updateFields inst) :=
    hread ▸ trailSeen_saveReads row updateFields inst _
  have hcurrent : ∀ name ∈ M.historyFields, M.current read name = M.current inst name :=
    fun name hname => by
      rw [current, hreads.attrs _ (hloaded _ (M.mem_trackedAttnames hname)), current]
  have hseen : ∀ name ∈ M.historyFields, ((M.resynced (inst.writtenFields updateFields) read).get?
      name) = if M.selects (inst.writtenFields updateFields) name then
        some (M.current inst name) else read.seen name :=
    fun name hname => by rw [get?_resynced hname, hcurrent name hname]
  have hdeferred : ∀ a, M.writes read (superFields (inst.writtenFields updateFields)
      (M.entryFor env updateFields inst)) a = true → a ∉ read.deferred :=
    fun a => hread ▸ not_mem_deferred_of_writes hloaded
  rw [hsave]
  refine ⟨rfl, hvalid, ?_, hreads.deferred, rfl, ?_, ?_, ?_, ?_, ?_⟩
  · exact fun a ha => hreads.attrs a (hloaded a ha)
  · intro a ha
    have hne : a ≠ historyColumn := fun h => M.historyColumn_not_tracked (h ▸ ha)
    simp only [Row.write, hreads.attrs a (hloaded a ha),
      writes_eq_stores (hreads.trackedLoaded hloaded a ha), stores_superFields hne]
  · rw [← stores_superFields_historyColumn, ← htrail]
    simp only [Row.write]
    by_cases hmem : historyColumn ∈ read.deferred
    · have hwrites : M.writes read (superFields (inst.writtenFields updateFields)
          (M.entryFor env updateFields inst)) historyColumn = false :=
        Bool.eq_false_iff.mpr fun h => hdeferred _ h hmem
      simp [hwrites, trailSeen, hmem]
    · rw [writes_eq_stores hmem, trail_of_not_deferred hmem row]
  · rw [← htrail]
    simp only [trailSeen, Row.write]
    split
    · rename_i hmem
      rw [if_neg fun h => hdeferred _ h hmem]
    · rfl
  · intro name hname hsel
    simp only [Instance.seen, Option.bind_some]
    rw [hseen name hname, if_pos hsel]
  · intro name hname hsel
    have hadding : inst.adding = false := by
      cases h : inst.adding with
      | false => rfl
      | true => simp [Instance.writtenFields, h, selects] at hsel
    have hkept : read.snapshot = inst.snapshot ∨ M.Fetches updateFields inst ∧
        read.snapshot = some (M.valuesOf inst.attrs) := by
      by_cases hfetches : M.Fetches updateFields inst
      · rcases hreads.snapshot with h | h
        · exact .inl h
        · exact .inr ⟨hfetches, h⟩
      · exact .inl (hread ▸ snapshot_saveReads hfetches hadding)
    simp only [Instance.seen, Option.bind_some]
    rw [hseen name hname, if_neg (by simp [hsel])]
    rcases hkept with hs | ⟨hfetches, hs⟩
    · exact .inl (by rw [Instance.seen, hs])
    · exact .inr ⟨hfetches, by rw [Instance.seen, hs, Option.bind_some, M.get?_valuesOf hname,
        current]⟩

/-- A save that goes through saves, or is one of no fields of a model that
tracks nothing. -/
theorem saved_or_skipped (hloaded : M.TrackedLoaded inst)
    (hok : (M.save env row updateFields verdict inst).raised = none) :
    M.Saved env row updateFields inst (M.save env row updateFields verdict inst) ∨
      ∃ snapshot, M.save env row updateFields verdict inst =
        ⟨{ inst with snapshot := snapshot }, row, none, none⟩ := by
  by_cases hskip : inst.adding = true → updateFields ≠ some [] ∨ M.historyFields ≠ []
  · exact .inl (save_ok hloaded hskip hok)
  · obtain ⟨-, hnot⟩ := Classical.not_imp.mp hskip
    obtain ⟨hempty, hfields⟩ := not_or.mp hnot
    rw [not_not] at hempty hfields
    have hentry : M.entryFor env (some []) inst = none := by simp [entryFor, hfields]
    refine .inr ⟨some (M.resynced (if inst.adding then none else some []) inst), ?_⟩
    rw [← M.syncHistorySnapshot_eq hloaded row, hempty, save, M.prepareSave_eq,
      M.settle_of_trackedLoaded hloaded]
    dsimp only
    rw [hentry]
    rfl

end HistoryModel

end NetixBackend.ChangeHistory
