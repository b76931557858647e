import NetixBackend.Views.OrgScope

/-!
A superuser's requests for one organization spare the rows of the others.

The two halves of the mixin have to fit: the object of an update or a delete
comes out of a queryset of the target organization, and the save pins that same
organization, so a row that is touched was the target's and stays the target's.
`Spared` is the relation this gives between the tables before and after: the
rows of every other organization are the same rows. It composes, so it holds
of a run of requests once it holds of one (`runs_spare`); a caller who is no
superuser changes nothing at all (`parameter_gate`).
-/

namespace NetixBackend.Views

open Python Effects

/-! ### Rows of other organizations -/

/-- The row belongs to one of the organizations. -/
def OwnedByAny (field : String) (organizations : ℤ → Prop) (row : Row) : Prop :=
  ∃ organization, organizations organization ∧ OwnedBy field organization row

/-- Between the two tables every row that belongs to none of the organizations
is the same row. A key still names one row. -/
def Spared (field : String) (organizations : ℤ → Prop) (db db' : Database) : Prop :=
  db.pks.Nodup → db'.pks.Nodup ∧
    ∀ inst, ¬ OwnedByAny field organizations inst.row →
      (inst ∈ db'.instances ↔ inst ∈ db.instances)

variable {field : String} {organizations : ℤ → Prop} {db db' : Database}

instance : Std.Refl (Spared field organizations) where
  refl _ hnodup := ⟨hnodup, fun _ _ => Iff.rfl⟩

instance : IsTrans Database (Spared field organizations) where
  trans _ _ _ h h' hnodup :=
    ⟨(h' (h hnodup).1).1, fun inst hforeign =>
      ((h' (h hnodup).1).2 inst hforeign).trans ((h hnodup).2 inst hforeign)⟩

theorem Spared.mono {organizations' : ℤ → Prop} (h : Spared field organizations db db')
    (hsubset : ∀ organization, organizations organization → organizations' organization) :
    Spared field organizations' db db' := by
  intro hnodup
  refine ⟨(h hnodup).1, fun inst hforeign => (h hnodup).2 inst fun howned => hforeign ?_⟩
  obtain ⟨organization, horganization, hrow⟩ := howned
  exact ⟨organization, hsubset organization horganization, hrow⟩

/-- Whatever is stored under the key belongs to one of the organizations. -/
def KeyOwned (field : String) (organizations : ℤ → Prop) (pk : ℕ) (db : Database) : Prop :=
  ∀ inst ∈ db.instances, inst.pk = pk → OwnedByAny field organizations inst.row

theorem mem_instances_apply_insert (db : Database) (row : Row) (inst : Instance) :
    inst ∈ (db.apply (.insert row)).instances ↔ inst ∈ db.instances ∨ inst = ⟨db.nextPk, row⟩ := by
  simp [Database.apply, Database.instances]

theorem spared_insert {row : Row} (h : OwnedByAny field organizations row) :
    Spared field organizations db (db.apply (.insert row)) := by
  intro hnodup
  constructor
  · rw [pks_apply_insert]
    refine List.nodup_append.mpr ⟨hnodup, List.nodup_singleton _, fun pk hpk pk' hpk' => ?_⟩
    rw [List.mem_singleton] at hpk'
    have hlt := lt_nextPk hpk
    omega
  · intro inst hforeign
    rw [mem_instances_apply_insert]
    constructor
    · rintro (hmem | rfl)
      · exact hmem
      · exact absurd h hforeign
    · exact .inl

theorem spared_update {pk : ℕ} {row : Row} (h : OwnedByAny field organizations row)
    (hkey : KeyOwned field organizations pk db) :
    Spared field organizations db (db.apply (.update pk row)) := by
  intro hnodup
  refine ⟨by rwa [pks_apply_update], fun inst hforeign => ?_⟩
  rw [mem_instances_apply_update]
  split
  · rename_i hpk
    constructor
    · rintro ⟨rfl, -⟩
      exact absurd h hforeign
    · intro hmem
      exact absurd (hkey inst hmem hpk) hforeign
  · exact Iff.rfl

theorem keyOwned_update {pk : ℕ} {row : Row} (h : OwnedByAny field organizations row) :
    KeyOwned field organizations pk (db.apply (.update pk row)) := by
  intro inst hinst hpk
  rw [mem_instances_apply_update, if_pos hpk] at hinst
  exact hinst.1 ▸ h

/-- A key names one row. -/
theorem instance_eq_of_pk (hnodup : db.pks.Nodup) {inst inst' : Instance}
    (h : inst ∈ db.instances) (h' : inst' ∈ db.instances) (hpk : inst.pk = inst'.pk) :
    inst = inst' := by
  obtain ⟨rows, written⟩ := db
  change (rows.map Prod.fst).Nodup at hnodup
  obtain ⟨entry, hentry, rfl⟩ := List.mem_map.mp h
  obtain ⟨entry', hentry', rfl⟩ := List.mem_map.mp h'
  rw [List.inj_on_of_nodup_map hnodup hentry hentry' hpk]

theorem row?_of_mem (hnodup : db.pks.Nodup) {inst : Instance} (h : inst ∈ db.instances) :
    db.row? inst.pk = some inst.row := by
  obtain ⟨rows, written⟩ := db
  change (rows.map Prod.fst).Nodup at hnodup
  obtain ⟨entry, hentry, rfl⟩ := List.mem_map.mp h
  exact ((⟨rows, hnodup⟩ : Dict ℕ Row).mem_items_iff entry.1 entry.2).mp hentry

/-! ### Saves that pin the target -/

/-- What the framework's model serializer does: `create` inserts a row with the
attributes it is given, `update` writes them to the instance's row. -/
structure SerializerClass.ModelLike (cls : SerializerClass) : Prop where
  create : ∀ (attrs : Row) (db : Database), ∀ w ∈ (cls.create attrs db).writes,
    ∃ row, w = .insert row ∧ ∀ key value, attrs.get? key = some value → row.get? key = some value
  update : ∀ (target : Instance) (attrs : Row) (db : Database),
    ∀ w ∈ (cls.update target attrs db).writes,
      ∃ row, w = .update target.pk row ∧
        ∀ key value, attrs.get? key = some value → row.get? key = some value

variable {organization : ℤ} {serializer : Serializer} {view : View}

theorem get?_pinned (attrs : Row) :
    (attrs.update (View.pinKwargs field organization)).get? field =
      some (.plain (.int organization)) := by
  simp [View.pinKwargs]

theorem spared_save_create (hcls : serializer.cls.ModelLike) (htarget : serializer.target = none) :
    Tx.Within (Spared field (· = organization))
      (serializer.save (View.pinKwargs field organization)) := by
  refine .each fun attrs _ => ?_
  rw [htarget]
  intro db
  have hwrites := hcls.create (attrs.update (View.pinKwargs field organization)) db
  change Spared _ _ db (List.foldl Database.apply db _)
  revert hwrites
  generalize (serializer.cls.create (attrs.update (View.pinKwargs field organization)) db).writes
    = writes
  intro hwrites
  induction writes generalizing db with
  | nil => exact Std.Refl.refl db
  | cons w rest ih =>
      rw [List.forall_mem_cons] at hwrites
      obtain ⟨⟨row, rfl, hrow⟩, hrest⟩ := hwrites
      exact IsTrans.trans _ _ _
        (spared_insert ⟨organization, rfl, hrow _ _ (get?_pinned attrs)⟩) (ih _ hrest)

/-- An update keeps the key in the organization's hands, which is what the next
write of the same save needs. -/
theorem spared_save_update (hcls : serializer.cls.ModelLike) {target : Instance}
    (htarget : serializer.target = some target)
    (hkey : KeyOwned field (· = organization) target.pk db) :
    Spared field (· = organization) db
      ((serializer.save (View.pinKwargs field organization)).after db) := by
  have hwrites : ∀ (attrs : Row) (writes : List Write) (db : Database),
      (∀ w ∈ writes, ∃ row, w = .update target.pk row ∧
        ∀ key value, (attrs.update (View.pinKwargs field organization)).get? key = some value →
          row.get? key = some value) →
      KeyOwned field (· = organization) target.pk db →
      Spared field (· = organization) db (writes.foldl Database.apply db) ∧
        KeyOwned field (· = organization) target.pk (writes.foldl Database.apply db) := by
    intro attrs writes
    induction writes with
    | nil => exact fun db _ hkey => ⟨Std.Refl.refl db, hkey⟩
    | cons w rest ih =>
        intro db hwrites hkey
        rw [List.forall_mem_cons] at hwrites
        obtain ⟨⟨row, rfl, hrow⟩, hrest⟩ := hwrites
        have howned : OwnedByAny field (· = organization) row :=
          ⟨organization, rfl, hrow _ _ (get?_pinned attrs)⟩
        obtain ⟨hspared, hkey'⟩ := ih _ hrest (keyOwned_update howned)
        exact ⟨IsTrans.trans _ _ _ (spared_update howned hkey) hspared, hkey'⟩
  rw [Serializer.save, htarget]
  generalize serializer.validatedData = rows
  induction rows generalizing db with
  | nil => exact Std.Refl.refl db
  | cons attrs rest ih =>
      let code := serializer.cls.update target (attrs.update (View.pinKwargs field organization))
      obtain ⟨hspared, hkey'⟩ := hwrites attrs (code db).writes db (hcls.update target _ db) hkey
      change Spared _ _ db (Tx.after (perform code >>= fun _ => _) db)
      cases hraised : Tx.outcome (perform code) db with
      | error e =>
          rw [Tx.after_bind_of_error hraised]
          exact hspared
      | ok u =>
          rw [Tx.after_bind_of_ok hraised]
          exact IsTrans.trans _ _ _ hspared (ih hkey')

/-! ### The handlers -/

theorem validSingle_spec {isPartial : Bool} {target : Option Instance} {data : JsonValue}
    (h : (view.validSingle isPartial target data).outcome db = .ok serializer) :
    serializer.cls = view.serializerClass ∧ serializer.target = target := by
  obtain ⟨data', -, h⟩ := exists_of_bind_ok h
  obtain ⟨row, -, h⟩ := exists_of_bind_ok h
  obtain rfl := Except.ok.inj h
  exact ⟨rfl, rfl⟩

theorem target_of_validList {data : JsonValue}
    (h : (view.validList data).outcome db = .ok serializer) :
    serializer.cls = view.serializerClass ∧ serializer.target = none := by
  obtain ⟨data', -, h⟩ := exists_of_bind_ok h
  cases data' with
  | arr items =>
      obtain ⟨rows, -, h⟩ := exists_of_bind_ok h
      obtain rfl := Except.ok.inj h
      exact ⟨rfl, rfl⟩
  | _ => exact nomatch h

/-- A handler reads, saves and responds, and only the save counts. -/
theorem relates_handle {R : Database → Database → Prop} [Std.Refl R]
    {build : Tx Raised Database Serializer} {hook : Serializer → Tx Raised Database Unit}
    (hread : build.after db = db)
    (hsave : ∀ serializer, build.outcome db = .ok serializer → R db ((hook serializer).after db))
    (status : ℕ) :
    R db (Tx.after (do
      let serializer ← build
      hook serializer
      View.respond serializer status) db) := by
  cases hbuild : build.outcome db with
  | error e =>
      rw [Tx.after_bind_of_error hbuild, hread]
      exact Std.Refl.refl db
  | ok serializer =>
      rw [Tx.after_bind_of_ok hbuild, hread]
      cases hhook : (hook serializer).outcome db with
      | error e =>
          rw [Tx.after_bind_of_error hhook]
          exact hsave serializer hbuild
      | ok u =>
          rw [Tx.after_bind_of_ok hhook]
          exact hsave serializer hbuild

theorem relates_dispatch {R : Database → Database → Prop} [Std.Refl R] {kind : HandlerKind}
    {action : WriteAction} (h : R db ((view.handler kind action).after db)) :
    R db ((view.dispatch kind action).after db) := by
  unfold View.dispatch
  dsimp only
  split
  · cases houtcome : (view.handler kind action).outcome db with
    | ok response =>
        rw [Tx.after, Tx.atomic_of_ok houtcome]
        exact h
    | error e =>
        rw [Tx.after, Tx.atomic_of_error houtcome]
        exact Std.Refl.refl db
  · exact h

namespace OrgScopeView

variable {endpoint : OrgScopeView}

/-- With a target every hook, sync or async, is the save that pins it. -/
theorem hooks_of_targets (h : endpoint.Targets organization) (serializer : Serializer) :
    endpoint.view.performCreate serializer =
        serializer.save (View.pinKwargs endpoint.scope.scopeField organization) ∧
      endpoint.view.performUpdate serializer =
        serializer.save (View.pinKwargs endpoint.scope.scopeField organization) := by
  have htarget : endpoint.view.superuserTargetOrganizationId endpoint.scope =
      .ok (some organization) := h.target
  have hperform : ∀ super, endpoint.view.superuserPerform endpoint.scope super serializer =
      serializer.save (View.pinKwargs endpoint.scope.scopeField organization) := by
    intro super
    rw [View.superuserPerform, htarget]
    rfl
  exact ⟨hperform _, hperform _⟩

theorem keyOwned_of_found (h : endpoint.Targets organization) (hnodup : db.pks.Nodup)
    {inst : Instance} (hfound : endpoint.getObject db = .ok inst) :
    KeyOwned endpoint.scope.scopeField (· = organization) inst.pk db := by
  obtain ⟨hmem, howned⟩ := getObject_spec h hfound
  intro other hother hpk
  obtain rfl : other = inst := instance_eq_of_pk hnodup hother hmem hpk
  exact ⟨organization, rfl, howned⟩

theorem spared_create (h : endpoint.Targets organization)
    (hserializer : endpoint.base.serializerClass.ModelLike) :
    Spared endpoint.scope.scopeField (· = organization) db (endpoint.view.create.after db) := by
  have hsave : ∀ serializer : Serializer,
      serializer.cls = endpoint.view.serializerClass ∧ serializer.target = none →
        Spared endpoint.scope.scopeField (· = organization) db
          ((endpoint.view.performCreate serializer).after db) := by
    rintro serializer ⟨hcls, htarget⟩
    rw [(hooks_of_targets h serializer).1]
    exact spared_save_create (hcls ▸ hserializer) htarget db
  unfold View.create
  split
  · exact relates_handle rfl (fun serializer hvalid => hsave serializer (target_of_validList hvalid)) 201
  · exact relates_handle rfl (fun serializer hvalid => hsave serializer (validSingle_spec hvalid)) 201

/-- The update of one object, under either hook. -/
theorem spared_updateSingle (h : endpoint.Targets organization)
    (hserializer : endpoint.base.serializerClass.ModelLike) (isPartial : Bool)
    {hook : Serializer → Tx Raised Database Unit}
    (hhook : ∀ serializer, hook serializer =
      serializer.save (View.pinKwargs endpoint.scope.scopeField organization)) :
    Spared endpoint.scope.scopeField (· = organization) db (Tx.after (do
      let target ← Tx.read (endpoint.view.getObject endpoint.view.request)
      let serializer ← endpoint.view.validSingle isPartial (some target) endpoint.view.request.data
      hook serializer
      View.respond serializer 200) db) := by
  intro hnodup
  revert hnodup
  cases hfound : endpoint.getObject db with
  | error e =>
      have hread : Tx.outcome (Tx.read (endpoint.view.getObject endpoint.view.request)) db =
          .error e := hfound
      rw [Tx.after_bind_of_error hread]
      exact Std.Refl.refl (r := Spared _ _) db
  | ok target =>
      intro hnodup
      have hread : Tx.outcome (Tx.read (endpoint.view.getObject endpoint.view.request)) db =
          .ok target := hfound
      rw [Tx.after_bind_of_ok hread]
      refine relates_handle (R := Spared _ _) rfl (fun serializer hvalid => ?_) 200 hnodup
      obtain ⟨hcls, htarget⟩ := validSingle_spec hvalid
      rw [hhook]
      exact spared_save_update (hcls ▸ hserializer) htarget (keyOwned_of_found h hnodup hfound)

theorem spared_updateHandler (h : endpoint.Targets organization)
    (hserializer : endpoint.base.serializerClass.ModelLike) (isPartial : Bool) :
    Spared endpoint.scope.scopeField (· = organization) db
      ((endpoint.view.update isPartial).after db) := by
  unfold View.update
  split
  · refine relates_handle rfl (fun serializer hvalid => ?_) 200
    obtain ⟨hcls, htarget⟩ := target_of_validList hvalid
    rw [(hooks_of_targets h serializer).2]
    exact spared_save_create (hcls ▸ hserializer) htarget db
  · exact spared_updateSingle h hserializer isPartial fun serializer =>
      (hooks_of_targets h serializer).2

theorem spared_acreate (h : endpoint.Targets organization)
    (hserializer : endpoint.base.serializerClass.ModelLike) :
    Spared endpoint.scope.scopeField (· = organization) db (endpoint.view.acreate.after db) := by
  refine relates_handle rfl (fun serializer hvalid => ?_) 201
  obtain ⟨hcls, htarget⟩ := validSingle_spec hvalid
  change Spared _ _ db ((endpoint.view.performCreate serializer).after db)
  rw [(hooks_of_targets h serializer).1]
  exact spared_save_create (hcls ▸ hserializer) htarget db

theorem spared_aupdate (h : endpoint.Targets organization)
    (hserializer : endpoint.base.serializerClass.ModelLike) (isPartial : Bool) :
    Spared endpoint.scope.scopeField (· = organization) db
      ((endpoint.view.aupdate isPartial).after db) :=
  spared_updateSingle h hserializer isPartial fun serializer => (hooks_of_targets h serializer).2

/-- The view deletes through a base model, and its organization column is not
one that a soft delete writes. -/
structure Deletes (endpoint : OrgScopeView) (model : BaseModel) : Prop where
  model : endpoint.base.model = model.toModel
  column : endpoint.scope.scopeField ≠ "is_deleted" ∧ endpoint.scope.scopeField ≠ "updated_on"

theorem getObject_mem {inst : Instance} (hfound : endpoint.getObject db = .ok inst) :
    inst ∈ db.instances := by
  obtain ⟨queryset, -, hfound⟩ := exists_of_bind_ok hfound
  split at hfound
  · exact nomatch hfound
  · rename_i found hfind
    obtain ⟨u, -, hfound⟩ := exists_of_bind_ok hfound
    obtain rfl := Except.ok.inj hfound
    exact (List.mem_filter.mp (List.mem_of_find?_eq_some hfind)).1

theorem Deletes.through {model : BaseModel} (h : endpoint.Deletes model) :
    endpoint.view.DeletesThrough model where
  model := h.model
  stored _ _ hfound := getObject_mem hfound

/-- Retiring a row of the organization spares the others. -/
theorem spared_retires {inst : Instance} {now : Value} (hretires : Retires inst.pk now db db')
    (hmem : inst ∈ db.instances) (howned : OwnedBy field organization inst.row)
    (hflag : field ≠ "is_deleted") (hstamp : field ≠ "updated_on") :
    Spared field (· = organization) db db' := by
  intro hnodup
  have hnodup' : db'.pks.Nodup := hretires.keys ▸ hnodup
  refine ⟨hnodup', fun other hforeign => ?_⟩
  by_cases hpk : other.pk = inst.pk
  · constructor
    · intro hother
      have hrow := row?_of_mem hnodup hmem
      have hrow' := row?_of_mem hnodup' hother
      have hcolumn := hretires.columns _ _ hrow (hpk ▸ hrow') field hflag hstamp
      exact absurd ⟨organization, rfl, hcolumn.trans howned⟩ hforeign
    · intro hother
      obtain rfl := instance_eq_of_pk hnodup hother hmem hpk
      exact absurd ⟨organization, rfl, howned⟩ hforeign
  · exact hretires.others other hpk

theorem spared_destroy {model : BaseModel} (h : endpoint.Targets organization)
    (hdeletes : endpoint.Deletes model) (kind : HandlerKind) :
    Spared endpoint.scope.scopeField (· = organization) db
      ((endpoint.view.dispatch kind .destroy).after db) := by
  have hdelete := destroy_baseModel hdeletes.through kind db
  generalize (endpoint.view.dispatch kind .destroy).after db = next at hdelete ⊢
  generalize (endpoint.view.dispatch kind .destroy).outcome db = answer at hdelete
  cases hdelete with
  | refused => exact Std.Refl.refl db
  | retired target _ hfound hretires =>
      obtain ⟨hmem, howned⟩ := getObject_spec h hfound
      exact spared_retires hretires hmem howned hdeletes.column.1 hdeletes.column.2

/-- The step lemma: a request of a superuser for one organization. -/
theorem spared_of_targets {model : BaseModel} (h : endpoint.Targets organization)
    (hserializer : endpoint.base.serializerClass.ModelLike) (hdeletes : endpoint.Deletes model)
    (kind : HandlerKind) (action : WriteAction) :
    Spared endpoint.scope.scopeField (· = organization) db
      ((endpoint.view.dispatch kind action).after db) := by
  cases action with
  | destroy => exact spared_destroy h hdeletes kind
  | create =>
      refine relates_dispatch ?_
      cases kind with
      | sync => exact spared_create h hserializer
      | coroutine => exact spared_acreate h hserializer
  | update =>
      refine relates_dispatch ?_
      cases kind with
      | sync => exact spared_updateHandler h hserializer false
      | coroutine => exact spared_aupdate h hserializer false
  | partialUpdate =>
      refine relates_dispatch ?_
      cases kind with
      | sync => exact spared_updateHandler h hserializer true
      | coroutine => exact spared_aupdate h hserializer true

/-! ### Callers that are refused -/

variable {raw : String}

theorem hooks_of_refused {e : Raised} (h : endpoint.target = .error e) (serializer : Serializer) :
    endpoint.view.performCreate serializer = Tx.raise e ∧
      endpoint.view.performUpdate serializer = Tx.raise e := by
  have htarget : endpoint.view.superuserTargetOrganizationId endpoint.scope = .error e := h
  have hperform : ∀ super, endpoint.view.superuserPerform endpoint.scope super serializer =
      Tx.raise e := by
    intro super
    rw [View.superuserPerform, htarget]
    rfl
  exact ⟨hperform _, hperform _⟩

theorem getQueryset_of_refused {e : Raised} (h : endpoint.target = .error e) :
    endpoint.getQueryset = .error e := by
  rw [getQueryset]
  split
  · rw [getOrgScopedQueryset, h]
    rfl
  · rw [h]
    rfl

theorem getObject_of_refused {e : Raised} (h : endpoint.target = .error e) (db : Database) :
    endpoint.getObject db = .error e := by
  rw [getObject, getQueryset_of_refused h]
  rfl

/-- The error of the body, in the handlers that validate it before they ask for
the target. -/
def bodyError (endpoint : OrgScopeView) (kind : HandlerKind) (action : WriteAction)
    (db : Database) : Option Raised :=
  let view := endpoint.view
  let errorOf (build : Tx Raised Database Serializer) : Option Raised :=
    match build.outcome db with
    | .error e => some e
    | .ok _ => none
  match kind, action with
  | .sync, .create =>
      if view.createListModel && view.bodyIsList then errorOf (view.validList view.request.data)
      else errorOf (view.validSingle false none view.request.data)
  | .coroutine, .create => errorOf (view.validSingle false none view.request.data)
  | .sync, .update | .sync, .partialUpdate =>
      if view.updateListModel && view.bodyIsList then errorOf (view.validList view.request.data)
      else none
  | _, _ => none

/-- A handler that builds its serializer first raises what that raises, else
what its hook does. -/
theorem handle_of_refused {e : Raised} {build : Tx Raised Database Serializer}
    {hook : Serializer → Tx Raised Database Unit} (hread : build.after db = db)
    (hhook : ∀ serializer, hook serializer = Tx.raise e) (status : ℕ) :
    (do
      let serializer ← build
      hook serializer
      View.respond serializer status : Tx Raised Database Response) db =
      (.error ((match build.outcome db with
        | .error e' => some e'
        | .ok _ => none).getD e), db) := by
  cases hbuild : build.outcome db with
  | error e' => rw [Tx.bind_of_error hbuild, hread, Option.getD_some]
  | ok serializer =>
      rw [Tx.bind_of_ok hbuild, hread, hhook]
      rfl

theorem dispatch_of_raised {kind : HandlerKind} {action : WriteAction} {e : Raised}
    (h : endpoint.view.handler kind action db = (.error e, db)) :
    endpoint.view.dispatch kind action db = (.error e, db) := by
  by_cases hlisted : handlerName kind action ∈ endpoint.view.atomicActions ∧ kind ≠ .coroutine
  · rw [View.dispatch, if_pos hlisted]
    exact Tx.atomic_of_error (congrArg Prod.fst h)
  · rw [View.dispatch, if_neg hlisted]
    exact h

theorem create_of_refused {e : Raised} (h : endpoint.target = .error e) (db : Database) :
    endpoint.view.create db =
      (.error ((endpoint.bodyError .sync .create db).getD e), db) := by
  have hhook := fun serializer => (hooks_of_refused h serializer).1
  unfold View.create bodyError
  dsimp only
  split
  · exact handle_of_refused rfl hhook 201
  · exact handle_of_refused rfl hhook 201

/-- What is found first is not found. -/
theorem found_of_refused {e : Raised} (h : endpoint.target = .error e)
    (next : Instance → Tx Raised Database Response) (db : Database) :
    (Tx.read (endpoint.view.getObject endpoint.view.request) >>= next) db = (.error e, db) :=
  Tx.bind_of_error (getObject_of_refused h db)

theorem update_of_refused {e : Raised} (h : endpoint.target = .error e) (isPartial : Bool)
    (db : Database) : endpoint.view.update isPartial db =
      (.error ((endpoint.bodyError .sync .update db).getD e), db) := by
  have hhook := fun serializer => (hooks_of_refused h serializer).2
  unfold View.update bodyError
  dsimp only
  split
  · exact handle_of_refused rfl hhook 200
  · exact found_of_refused h _ db

/-- Whoever is refused gets the refusal from every write action, or the error of
the body where the body is looked at first; nothing is written. -/
theorem dispatch_of_refused {e : Raised} (h : endpoint.target = .error e) (hnot : e ≠ .http404)
    (kind : HandlerKind) (action : WriteAction) (db : Database) :
    endpoint.view.dispatch kind action db =
      (.error ((endpoint.bodyError kind action db).getD e), db) := by
  have hmissing := getObject_of_refused h db
  have hanswer : endpoint.view.answerTo e = .error e := by
    cases e with
    | http404 => exact absurd rfl hnot
    | _ => rfl
  refine dispatch_of_raised ?_
  cases kind with
  | sync =>
      cases action with
      | create => exact create_of_refused h db
      | update => exact update_of_refused h false db
      | partialUpdate => exact update_of_refused h true db
      | destroy => exact (destroy_of_not_found hmissing).trans (by rw [hanswer]; rfl)
  | coroutine =>
      cases action with
      | create => exact handle_of_refused rfl (fun serializer => (hooks_of_refused h serializer).1) 201
      | update => exact found_of_refused h _ db
      | partialUpdate => exact found_of_refused h _ db
      | destroy => exact (adestroy_of_not_found hmissing).trans (by rw [hanswer]; rfl)

/-! ### One request -/

theorem selectsAll_iff {filters : Dict String FilterValue} {inst : Instance} :
    selectsAll filters inst = true ↔
      ∀ key value, filters.get? key = some value → value.holds (inst.row.get? key) = true := by
  rw [selectsAll, List.all_eq_true]
  constructor
  · intro hall key value hget
    exact hall (key, value) ((Dict.mem_items_iff _ _ _).mpr hget)
  · rintro hall ⟨key, value⟩ hmem
    exact hall key value ((Dict.mem_items_iff _ _ _).mp hmem)

theorem selectsAll_superuserOrgFilters (h : endpoint.Targets organization) (inst : Instance) :
    selectsAll (endpoint.superuserOrgFilters organization) inst = true ↔
      OwnedBy endpoint.scope.scopeField organization inst.row ∧
        selectsAll endpoint.superuserOrgExtraFilter inst = true := by
  constructor
  · intro hselected
    refine ⟨ownedBy_of_selected h hselected, selectsAll_iff.mpr fun key value hget => ?_⟩
    exact selectsAll_iff.mp hselected key value (by simp [superuserOrgFilters, hget])
  · rintro ⟨howned, hextra⟩
    refine selectsAll_iff.mpr fun key value hget => ?_
    cases hkey : endpoint.superuserOrgExtraFilter.get? key with
    | some value' =>
        obtain rfl : value' = value := by simpa [superuserOrgFilters, hkey] using hget
        exact selectsAll_iff.mp hextra key value' hkey
    | none =>
        rw [superuserOrgFilters, Dict.get?_update, hkey, Option.none_or, Dict.get?_set] at hget
        split at hget
        · rename_i hfield
          obtain rfl := Option.some.inj hget
          rw [hfield]
          exact holds_int_iff.mpr howned
        · exact absurd hget (by simp)

/-- The parameter is parsed first and gated second, so it is an error that is no
404, or a target. -/
theorem target_cases (h : endpoint.Asks raw) :
    (∃ e, endpoint.target = .error e ∧ e ≠ .http404) ∨
      ∃ organization, endpoint.target = .ok (some organization) := by
  rw [target_of_asks h]
  cases intOfString raw with
  | error e => exact .inl ⟨_, rfl, Raised.noConfusion⟩
  | ok organization =>
      dsimp only
      split
      · exact .inr ⟨organization, rfl⟩
      · exact .inl ⟨_, rfl, Raised.noConfusion⟩

/-- The gate, for reads and writes at once: whoever is no superuser gets the
refusal from every action, unless its body is invalid where that is looked at
first, and changes nothing; a superuser is shown the rows of the target, all of
them and no others. -/
theorem parameter_gate (endpoint : OrgScopeView) (h : endpoint.Asks raw) (db : Database) :
    (isSuperuser endpoint.base.request = false →
      endpoint.list db = .error (endpoint.refusal raw) ∧
        ∀ kind action, endpoint.view.dispatch kind action db =
          (.error ((endpoint.bodyError kind action db).getD (endpoint.refusal raw)), db)) ∧
    ∀ organization, endpoint.Targets organization → ∀ rows, endpoint.list db = .ok rows →
      ∀ inst, inst ∈ rows ↔
        inst ∈ db.instances ∧ OwnedBy endpoint.scope.scopeField organization inst.row ∧
          selectsAll endpoint.superuserOrgExtraFilter inst = true ∧
          endpoint.filterBackends inst = true := by
  constructor
  · intro hcaller
    have htarget := target_of_not_superuser h hcaller
    have hnot : endpoint.refusal raw ≠ .http404 := by
      unfold refusal
      split <;> exact Raised.noConfusion
    refine ⟨?_, fun kind action => dispatch_of_refused htarget hnot kind action db⟩
    rw [list, getQueryset_of_refused htarget]
    rfl
  · intro organization htargets rows hrows inst
    obtain ⟨queryset, hqueryset, hrows⟩ := exists_of_bind_ok hrows
    rw [← Except.ok.inj hrows, List.mem_filter, Queryset.rows, List.mem_filter,
      getQueryset_of_targets htargets hqueryset, selectsAll_superuserOrgFilters htargets]
    tauto

end OrgScopeView

/-! ### Runs of requests -/

/-- A write request with the parameter. -/
structure Visit where
  endpoint : OrgScopeView
  kind : HandlerKind
  action : WriteAction

def Visit.serve (visit : Visit) (db : Database) : Database :=
  (visit.endpoint.view.dispatch visit.kind visit.action).after db

def serveAll (visits : List Visit) (db : Database) : Database :=
  visits.foldl (fun db visit => visit.serve db) db

/-- The request carries the parameter, to a view over the shared serializers and
models, on the given organization column. -/
structure Visit.Carries (field : String) (visit : Visit) : Prop where
  asks : ∃ raw, visit.endpoint.Asks raw
  column : visit.endpoint.scope.scopeField = field
  extraFilter : visit.endpoint.superuserOrgExtraFilter.get? field = none
  serializer : visit.endpoint.base.serializerClass.ModelLike
  deletes : ∃ model, visit.endpoint.Deletes model

/-- The organizations that the superusers among the callers named. -/
def namedBySuperusers (visits : List Visit) (organization : ℤ) : Prop :=
  ∃ visit ∈ visits, isSuperuser visit.endpoint.base.request = true ∧
    visit.endpoint.target = .ok (some organization)

theorem spared_serve {visit : Visit} (h : visit.Carries field) (db : Database) :
    Spared field (namedBySuperusers [visit]) db (visit.serve db) := by
  obtain ⟨raw, hasks⟩ := h.asks
  obtain ⟨model, hdeletes⟩ := h.deletes
  rcases OrgScopeView.target_cases hasks with ⟨e, htarget, hnot⟩ | ⟨organization, htarget⟩
  · have hrun := OrgScopeView.dispatch_of_refused htarget hnot visit.kind visit.action db
    rw [Visit.serve, Tx.after, hrun]
    exact Std.Refl.refl db
  · have htargets : visit.endpoint.Targets organization := ⟨htarget, h.column ▸ h.extraFilter⟩
    have hspared : Spared _ _ db _ := OrgScopeView.spared_of_targets htargets h.serializer
      hdeletes visit.kind visit.action
    rw [h.column] at hspared
    refine hspared.mono ?_
    rintro _ rfl
    exact ⟨visit, List.mem_singleton_self _, OrgScopeView.isSuperuser_of_target htarget, htarget⟩

/-- However many requests with the parameter are served, to whichever views and
from whichever callers, the rows of every organization that no superuser named
are the same rows. -/
theorem runs_spare (visits : List Visit) (h : ∀ visit ∈ visits, visit.Carries field)
    (db : Database) : Spared field (namedBySuperusers visits) db (serveAll visits db) := by
  induction visits generalizing db with
  | nil => exact Std.Refl.refl db
  | cons visit rest ih =>
      rw [List.forall_mem_cons] at h
      have hfirst : Spared field (namedBySuperusers (visit :: rest)) db (visit.serve db) :=
        (spared_serve h.1 db).mono fun organization => by
          rintro ⟨v, hv, hnamed⟩
          obtain rfl := List.mem_singleton.mp hv
          exact ⟨v, List.mem_cons_self, hnamed⟩
      have hrest : Spared field (namedBySuperusers (visit :: rest)) (visit.serve db)
          (serveAll (visit :: rest) db) :=
        (ih h.2 (visit.serve db)).mono fun organization => by
          rintro ⟨v, hv, hnamed⟩
          exact ⟨v, List.mem_cons_of_mem _ hv, hnamed⟩
      exact IsTrans.trans _ _ _ hfirst hrest

/-! ### A superuser and a tenant -/

theorem modelLike_modelSerializer (model : Model) : (modelSerializer model).ModelLike where
  create attrs db w hw := by
    obtain rfl := List.mem_singleton.mp hw
    exact ⟨attrs, rfl, fun _ _ hget => hget⟩
  update target attrs db w hw := by
    obtain rfl := List.mem_singleton.mp hw
    exact ⟨target.row.update attrs, rfl, fun key value hget => by simp [hget]⟩

/-- The first widget of the table, asked for in the name of organization 5. -/
def widgetEndpoint (envoy : JsonValue) : OrgScopeView where
  base :=
    { serializerClass := modelSerializer scopedWidget
      model := widgetModel.toModel
      getObject := fun _ _ => .error .http404
      modelQueryset := some ⟨widgetModel.toModel, fun _ => true⟩
      action := "update"
      request :=
        { envoy
          queryParams := Dict.empty.set "organization" "5"
          data := .obj [("label", .str "renamed")] } }
  envoy := columnFilter
  lookup := 1

def platformWidget : OrgScopeView := widgetEndpoint (.obj [("is_superuser", .str "true")])

def tenantWidget : OrgScopeView := widgetEndpoint (.obj [("organization", .int 5)])

theorem parameter_gate_tenantWidget :
    (isSuperuser tenantWidget.base.request = false →
      tenantWidget.list widgetTable = .error (tenantWidget.refusal "5") ∧
        ∀ kind action, tenantWidget.view.dispatch kind action widgetTable =
          (.error ((tenantWidget.bodyError kind action widgetTable).getD (tenantWidget.refusal "5")),
            widgetTable)) ∧
    ∀ organization, tenantWidget.Targets organization → ∀ rows,
      tenantWidget.list widgetTable = .ok rows → ∀ inst, inst ∈ rows ↔
        inst ∈ widgetTable.instances ∧
          OwnedBy tenantWidget.scope.scopeField organization inst.row ∧
          selectsAll tenantWidget.superuserOrgExtraFilter inst = true ∧
          tenantWidget.filterBackends inst = true :=
  OrgScopeView.parameter_gate tenantWidget ⟨rfl, by decide⟩ widgetTable

theorem carries_widgetEndpoint (envoy : JsonValue) (kind : HandlerKind) (action : WriteAction) :
    (⟨widgetEndpoint envoy, kind, action⟩ : Visit).Carries "organization_id" where
  asks := ⟨"5", rfl, fun h => Bool.noConfusion h.1⟩
  column := rfl
  extraFilter := rfl
  serializer := modelLike_modelSerializer _
  deletes := ⟨widgetModel, rfl, by simp [widgetEndpoint], by simp [widgetEndpoint]⟩

/-- The superuser updates and deletes, the tenant is refused: the row of
organization 6 stays. -/
theorem runs_spare_widgets :
    Spared "organization_id"
      (namedBySuperusers [⟨platformWidget, .sync, .update⟩, ⟨tenantWidget, .coroutine, .update⟩,
        ⟨platformWidget, .coroutine, .destroy⟩])
      widgetTable
      (serveAll [⟨platformWidget, .sync, .update⟩, ⟨tenantWidget, .coroutine, .update⟩,
        ⟨platformWidget, .coroutine, .destroy⟩] widgetTable) := by
  refine runs_spare _ ?_ widgetTable
  simp only [List.forall_mem_cons]
  exact ⟨carries_widgetEndpoint _ _ _, carries_widgetEndpoint _ _ _, carries_widgetEndpoint _ _ _,
    List.forall_mem_nil _⟩

example : (platformWidget.view.dispatch .sync .update).outcome widgetTable = .ok 200 := rfl

end NetixBackend.Views
