import NetixBackend.Views.TenantConfinement

/-!
What an update does with a list body.

The list branch of `UpdateListModelMixin.update` builds its serializer with no
instance, so the save at the end of the handler creates. Every hook that
returns has saved (`savesOnSuccess_performUpdate`), and a save without an
instance adds a row for each item (`exists_new_pk_of_save`): the primary keys
stay what they were for the empty list and for no other.
-/

namespace NetixBackend.Views

open Python Effects

namespace Database

def pks (db : Database) : List ℕ := db.rows.map Prod.fst

def row? (db : Database) (pk : ℕ) : Option Row := db.rows.lookup pk

end Database

/-- What a list update is to do: no row comes or goes, and the rows that change
are ones `get_object` gives the caller. -/
structure ListUpdates (getObject : ℕ → Database → Except Raised Instance)
    (db db' : Database) : Prop where
  keys : ∀ pk, pk ∈ db'.pks ↔ pk ∈ db.pks
  changed : ∀ pk, db'.row? pk ≠ db.row? pk → ∃ target, getObject pk db = .ok target

/-- What the framework's `create` does: unless it raises, it adds a row. -/
def SerializerClass.CreatesRows (cls : SerializerClass) : Prop :=
  ∀ attrs db, (cls.create attrs db).raised = none → ∃ row, .insert row ∈ (cls.create attrs db).writes

/-- Between the two tables no primary key was lost. -/
def KeepsPks (db db' : Database) : Prop := db.pks ⊆ db'.pks

instance : Std.Refl KeepsPks where
  refl _ := List.Subset.refl _

instance : IsTrans Database KeepsPks where
  trans _ _ _ := List.Subset.trans

variable {db : Database} {view : View} {serializer : Serializer}

/-! ### Primary keys -/

theorem lt_nextPk {pk : ℕ} (h : pk ∈ db.pks) : pk < db.nextPk := by
  obtain ⟨rows, written⟩ := db
  change pk ∈ rows.map Prod.fst at h
  change pk < rows.foldr (fun entry least => max (entry.1 + 1) least) 0
  induction rows with
  | nil => exact absurd h List.not_mem_nil
  | cons entry rest ih =>
      rw [List.map_cons, List.mem_cons] at h
      rw [List.foldr_cons, lt_max_iff]
      rcases h with rfl | h
      · exact .inl (Nat.lt_succ_self _)
      · exact .inr (ih h)

theorem pks_apply_insert (row : Row) : (db.apply (.insert row)).pks = db.pks ++ [db.nextPk] := by
  simp [Database.apply, Database.pks]

theorem pks_apply_update (pk : ℕ) (row : Row) : (db.apply (.update pk row)).pks = db.pks := by
  rw [Database.apply, Database.pks, Database.pks, List.map_map]
  refine List.map_congr_left fun entry _ => ?_
  by_cases h : entry.1 = pk <;> simp [h]

theorem keepsPks_apply (w : Write) : KeepsPks db (db.apply w) := by
  cases w with
  | insert row =>
      rw [KeepsPks, pks_apply_insert]
      exact List.subset_append_left _ _
  | update pk row =>
      rw [KeepsPks, pks_apply_update]
      exact List.Subset.refl _

theorem keepsPks_foldl (writes : List Write) : KeepsPks db (writes.foldl Database.apply db) := by
  induction writes generalizing db with
  | nil => exact Std.Refl.refl db
  | cons w rest ih => exact IsTrans.trans _ _ _ (keepsPks_apply w) ih

/-- A primary key that one write adds is there after the rest. -/
theorem exists_new_pk_foldl {writes : List Write} {row : Row} (h : .insert row ∈ writes) :
    ∃ pk ∈ (writes.foldl Database.apply db).pks, pk ∉ db.pks := by
  induction writes generalizing db with
  | nil => exact absurd h List.not_mem_nil
  | cons w rest ih =>
      rcases List.mem_cons.mp h with rfl | h
      · refine ⟨db.nextPk, keepsPks_foldl rest ?_, fun hmem => (lt_nextPk hmem).false⟩
        rw [pks_apply_insert]
        exact List.mem_append_right _ (List.mem_singleton_self _)
      · obtain ⟨pk, hpk, hnew⟩ := @ih (db.apply w) h
        exact ⟨pk, hpk, fun hmem => hnew (keepsPks_apply w hmem)⟩

/-! ### Saves without an instance -/

theorem keepsPks_save (kwargs : Row) : Tx.Within KeepsPks (serializer.save kwargs) := by
  refine .each fun attrs _ => ?_
  split
  · exact fun db => keepsPks_foldl _
  · exact fun db => keepsPks_foldl _

theorem raised_of_perform {code : Database → Effect} {u : Unit}
    (h : (perform code).outcome db = .ok u) : (code db).raised = none := by
  cases hraised : (code db).raised with
  | none => rfl
  | some error => simp [Tx.outcome, perform, hraised] at h

/-- A save of at least one row without an instance adds a row. -/
theorem exists_new_pk_of_save (hcreates : serializer.cls.CreatesRows)
    (htarget : serializer.target = none) (hrows : serializer.validatedData ≠ []) {kwargs : Row}
    {u : Unit} (hok : (serializer.save kwargs).outcome db = .ok u) :
    ∃ pk ∈ ((serializer.save kwargs).after db).pks, pk ∉ db.pks := by
  obtain ⟨cls, target, rows⟩ := serializer
  obtain rfl : target = none := htarget
  cases rows with
  | nil => exact absurd rfl hrows
  | cons attrs rest =>
      obtain ⟨u', hfirst, _, hafter⟩ := Tx.outcome_bind_ok hok
      obtain ⟨row, hrow⟩ := hcreates _ _ (raised_of_perform hfirst)
      obtain ⟨pk, hpk, hnew⟩ := @exists_new_pk_foldl db _ row hrow
      have hrest := @keepsPks_save ⟨cls, none, rest⟩ kwargs
        ((perform (cls.create (attrs.update kwargs))).after db)
      exact ⟨pk, hafter ▸ hrest hpk, hnew⟩

theorem after_save_nil {cls : SerializerClass} {target : Option Instance} (kwargs : Row) :
    ((⟨cls, target, []⟩ : Serializer).save kwargs).after db = db := rfl

/-! ### The hooks -/

/-- A run of the hook that returns has done one save. -/
def SavesOnSuccess (serializer : Serializer) (hook : Tx Raised Database Unit) : Prop :=
  ∀ db u, hook.outcome db = .ok u → ∃ kwargs, hook db = serializer.save kwargs db

theorem SavesOnSuccess.save (kwargs : Row) : SavesOnSuccess serializer (serializer.save kwargs) :=
  fun _ _ _ => ⟨kwargs, rfl⟩

theorem SavesOnSuccess.check {α : Type} {check : Except Raised α}
    {hook : α → Tx Raised Database Unit} (h : ∀ a, SavesOnSuccess serializer (hook a)) :
    SavesOnSuccess serializer (Tx.ofExcept check >>= hook) := by
  intro db u hok
  cases check with
  | error error => exact nomatch hok
  | ok a => exact h a db u hok

theorem savesOnSuccess_tenantPerformUpdate :
    SavesOnSuccess serializer (view.tenantPerformUpdate serializer) := by
  refine .check fun kwargs => ?_
  cases kwargs with
  | none => exact .save _
  | some organizationId =>
      dsimp only
      split
      · exact .check fun _ => .check fun _ => .save _
      · exact .save _

theorem savesOnSuccess_performUpdate :
    SavesOnSuccess serializer (view.performUpdate serializer) := by
  unfold View.performUpdate
  split
  · refine .check fun target => ?_
    cases target with
    | none => exact savesOnSuccess_tenantPerformUpdate
    | some organizationId => exact .save _
  · exact savesOnSuccess_tenantPerformUpdate

/-! ### The list branch -/

theorem length_validateItems {items : List JsonValue} {rows : List Row}
    (h : view.validateItems db items = .ok rows) : rows.length = items.length := by
  induction items generalizing rows with
  | nil => exact Except.ok.inj h ▸ rfl
  | cons item rest ih =>
      obtain ⟨row, -, h⟩ := exists_of_bind_ok h
      obtain ⟨rows', hrows', h⟩ := exists_of_bind_ok h
      exact Except.ok.inj h ▸ congrArg Nat.succ (ih hrows')

/-- A list body is handed on as it is. -/
theorem serializerData_list {items : List JsonValue} {data : JsonValue}
    (h : view.serializerData (.arr items) = .ok data) : data = .arr items := by
  change (if view.tenantWritePinBeforeValidation then view.pinnedWriteData (.arr items)
    else .ok (.arr items)) = _ at h
  split at h
  · obtain ⟨organizationId, -, h⟩ := exists_of_bind_ok h
    cases organizationId <;> exact (Except.ok.inj h).symm
  · exact (Except.ok.inj h).symm

theorem validList_spec {items : List JsonValue}
    (h : (view.validList (.arr items)).outcome db = .ok serializer) :
    serializer.cls = view.serializerClass ∧ serializer.target = none ∧
      serializer.validatedData.length = items.length := by
  obtain ⟨data, hdata, h⟩ := exists_of_bind_ok h
  obtain rfl := serializerData_list hdata
  obtain ⟨rows, hrows, h⟩ := exists_of_bind_ok h
  obtain rfl := Except.ok.inj h
  exact ⟨rfl, rfl, length_validateItems hrows⟩

/-- A list update that succeeds has saved one row for each item, with no
instance. -/
theorem update_list {items : List JsonValue} (hmixin : view.updateListModel = true)
    (hbody : view.request.data = .arr items) {isPartial : Bool} {response : Response}
    (hok : (view.update isPartial).outcome db = .ok response) :
    ∃ (serializer : Serializer) (kwargs : Row), serializer.cls = view.serializerClass ∧
      serializer.target = none ∧ serializer.validatedData.length = items.length ∧
      (serializer.save kwargs).outcome db = .ok () ∧
      (view.update isPartial).after db = (serializer.save kwargs).after db := by
  have hlist : (view.updateListModel && view.bodyIsList) = true := by
    rw [hmixin, View.bodyIsList, hbody]
    rfl
  rw [View.update, if_pos hlist, hbody] at hok ⊢
  obtain ⟨serializer, hvalid, hok, hafter⟩ := Tx.outcome_bind_ok hok
  obtain ⟨u, hhook, _, hafter'⟩ := Tx.outcome_bind_ok hok
  obtain ⟨kwargs, hsave⟩ := savesOnSuccess_performUpdate db u hhook
  obtain ⟨hcls, htarget, hlength⟩ := validList_spec hvalid
  refine ⟨serializer, kwargs, hcls, htarget, hlength, ?_, ?_⟩
  · exact (congrArg Prod.fst hsave).symm.trans hhook
  · exact hafter.trans (hafter'.trans (congrArg Prod.snd hsave))

/-- A list update that succeeds updates only if the list is empty. -/
theorem list_update_iff {items : List JsonValue} (hmixin : view.updateListModel = true)
    (hbody : view.request.data = .arr items) (hcreates : view.serializerClass.CreatesRows)
    (getObject : ℕ → Database → Except Raised Instance) {isPartial : Bool} {response : Response}
    (hok : (view.update isPartial).outcome db = .ok response) :
    ListUpdates getObject db ((view.update isPartial).after db) ↔ items = [] := by
  obtain ⟨serializer, kwargs, hcls, htarget, hlength, hsaved, hafter⟩ :=
    update_list hmixin hbody hok
  rw [hafter]
  constructor
  · intro hupdates
    by_contra hitems
    have hrows : serializer.validatedData ≠ [] := by
      rw [ne_eq, ← List.length_eq_zero_iff, hlength, List.length_eq_zero_iff]
      exact hitems
    obtain ⟨pk, hpk, hnew⟩ := exists_new_pk_of_save (hcls ▸ hcreates) htarget hrows hsaved
    exact hnew ((hupdates.keys pk).mp hpk)
  · rintro rfl
    obtain ⟨cls, target, rows⟩ := serializer
    obtain rfl : rows = [] := List.length_eq_zero_iff.mp hlength
    rw [after_save_nil]
    exact ⟨fun pk => Iff.rfl, fun pk hchanged => absurd rfl hchanged⟩

/-! ### A list of one row -/

/-- A table with one widget. -/
def oneWidget : Database where
  rows := [(1, Dict.empty.set "label" (.plain (.str "old")))]

def widgetByPk (pk : ℕ) (db : Database) : Except Raised Instance :=
  match db.row? pk with
  | some row => .ok ⟨pk, row⟩
  | none => .error .http404

def bulkUpdate (items : List JsonValue) : View where
  serializerClass := modelSerializer scopedWidget
  model := scopedWidget
  getObject _ _ := .error .http404
  updateListModel := true
  action := "update"
  request := { data := .arr items }

theorem createsRows_modelSerializer (model : Model) : (modelSerializer model).CreatesRows :=
  fun attrs _ _ => ⟨attrs, List.mem_singleton_self _⟩

/-- The row that is to be updated stays as it was, and a second one appears. -/
theorem list_update_creates :
    ((bulkUpdate [.obj [("id", .int 1), ("label", .str "new")]]).update false).outcome oneWidget =
        .ok 200 ∧
      (((bulkUpdate [.obj [("id", .int 1), ("label", .str "new")]]).update false).after
        oneWidget).pks = [1, 2] ∧
      ¬ ListUpdates widgetByPk oneWidget
        (((bulkUpdate [.obj [("id", .int 1), ("label", .str "new")]]).update false).after
          oneWidget) := by
  refine ⟨rfl, by decide, fun hupdates => ?_⟩
  exact absurd ((hupdates.keys 2).mp (by decide)) (by decide)

theorem list_update_empty :
    ListUpdates widgetByPk oneWidget (((bulkUpdate []).update false).after oneWidget) :=
  (list_update_iff rfl rfl (createsRows_modelSerializer _) widgetByPk rfl).mpr rfl

end NetixBackend.Views
