import NetixBackend.Views.Handlers

/-!
A tenant writes into its own organization only.

Whatever the chain of overrides decides, a tenant's request reaches
`Serializer.save` with the pin or not at all. `Pins` states once what the
result assumes of the view, the identity and the serializer; under it
`tenantSaveKwargs` always answers with the tenant's organization
(`tenantSaveKwargs_of_pins`), and the rest is the rule for each construct of
the handlers: the checks of `pin_and_reject` and the cross-organization
parameter can raise, which writes nothing, but no branch saves without the
keyword argument.
-/

namespace NetixBackend.Views

open Python Effects

/-- What the framework's `save(**kwargs)` does with its keyword arguments: they
overlay the validated attributes, and every row written carries them. -/
structure SerializerClass.OverlaysKwargs (cls : SerializerClass) : Prop where
  create : ∀ (attrs kwargs : Row) (db : Database),
    ∀ w ∈ (cls.create (attrs.update kwargs) db).writes,
      ∀ key value, kwargs.get? key = some value → w.row.get? key = some value
  update : ∀ (target : Instance) (attrs kwargs : Row) (db : Database),
    ∀ w ∈ (cls.update target (attrs.update kwargs) db).writes,
      ∀ key value, kwargs.get? key = some value → w.row.get? key = some value

/-- A request of the tenant to an action the view pins, on a model that has the
organization column. -/
structure View.Pins (view : View) (tenant : ℤ) : Prop where
  identity : IsTenant view.request tenant
  scope : view.tenantWriteScope ≠ .off
  notExempt : view.action ∉ view.tenantWriteExemptActions
  column : ∃ model, view.serializerClass.model = some model ∧
    modelHasField model view.tenantWriteScopeField = true
  overlays : view.serializerClass.OverlaysKwargs

/-- The row is the tenant's: the organization column has its id. -/
def OwnedBy (field : String) (tenant : ℤ) (row : Row) : Prop :=
  row.get? field = some (.plain (.int tenant))

variable {view : View} {tenant : ℤ} {serializer : Serializer}

theorem tenantOrganizationId_of_pins (h : view.Pins tenant) :
    view.tenantOrganizationId = .ok (some tenant) := by
  rw [View.tenantOrganizationId, if_neg h.scope, if_neg h.notExempt]
  exact tenantOrganizationId_of_isTenant h.identity

theorem tenantSaveKwargs_of_pins (h : view.Pins tenant)
    (hcls : serializer.cls = view.serializerClass) :
    view.tenantSaveKwargs serializer = .ok (some tenant) := by
  obtain ⟨model, hmodel, hfield⟩ := h.column
  rw [View.tenantSaveKwargs, tenantOrganizationId_of_pins h, hcls, hmodel]
  simp only [bind, Except.bind, hfield, if_true]
  rfl

/-- The cross-organization parameter never gives a tenant a target. -/
theorem superuserTarget_of_pins (h : view.Pins tenant) (scope : SuperuserOrgScope)
    (target : ℤ) : view.superuserTargetOrganizationId scope ≠ .ok (some target) := by
  unfold View.superuserTargetOrganizationId
  split
  · simp
  · split
    · simp
    · split
      · simp
      · simp [h.identity.notSuperuser]

/-! ### The hooks -/

/-- A save with the pin writes rows of the tenant only. -/
theorem within_save (h : view.Pins tenant) (hcls : serializer.cls = view.serializerClass) :
    Tx.Within (Confines (OwnedBy view.tenantWriteScopeField tenant))
      (serializer.save (View.pinKwargs view.tenantWriteScopeField tenant)) := by
  have hpin : (View.pinKwargs view.tenantWriteScopeField tenant).get? view.tenantWriteScopeField =
      some (.plain (.int tenant)) := by simp [View.pinKwargs]
  refine .each fun attrs _ => ?_
  rw [hcls]
  split
  · exact within_perform fun db w hw => h.overlays.update _ _ _ db w hw _ _ hpin
  · exact within_perform fun db w hw => h.overlays.create _ _ db w hw _ _ hpin

theorem within_tenantPerformCreate (h : view.Pins tenant)
    (hcls : serializer.cls = view.serializerClass) :
    Tx.Within (Confines (OwnedBy view.tenantWriteScopeField tenant))
      (view.tenantPerformCreate serializer) := by
  rw [View.tenantPerformCreate, tenantSaveKwargs_of_pins h hcls]
  refine .bind (.ofExcept _) fun kwargs hkwargs => ?_
  obtain ⟨s, hkwargs⟩ := hkwargs
  obtain rfl := Except.ok.inj hkwargs
  dsimp only
  split
  · exact .bind (.ofExcept _) fun _ _ => within_save h hcls
  · exact within_save h hcls

theorem within_tenantPerformUpdate (h : view.Pins tenant)
    (hcls : serializer.cls = view.serializerClass) :
    Tx.Within (Confines (OwnedBy view.tenantWriteScopeField tenant))
      (view.tenantPerformUpdate serializer) := by
  rw [View.tenantPerformUpdate, tenantSaveKwargs_of_pins h hcls]
  refine .bind (.ofExcept _) fun kwargs hkwargs => ?_
  obtain ⟨s, hkwargs⟩ := hkwargs
  obtain rfl := Except.ok.inj hkwargs
  dsimp only
  split
  · exact .bind (.ofExcept _) fun _ _ => .bind (.ofExcept _) fun _ _ => within_save h hcls
  · exact within_save h hcls

/-- The override either refuses the tenant or leaves the hook below to it. -/
theorem within_superuserPerform (h : view.Pins tenant) (scope : SuperuserOrgScope)
    {super : Serializer → Tx Raised Database Unit}
    (hsuper : Tx.Within (Confines (OwnedBy view.tenantWriteScopeField tenant)) (super serializer)) :
    Tx.Within (Confines (OwnedBy view.tenantWriteScopeField tenant))
      (view.superuserPerform scope super serializer) := by
  refine .bind (.ofExcept _) fun target htarget => ?_
  obtain ⟨s, htarget⟩ := htarget
  cases target with
  | none => exact hsuper
  | some target => exact absurd htarget (superuserTarget_of_pins h scope target)

theorem within_performCreate (h : view.Pins tenant)
    (hcls : serializer.cls = view.serializerClass) :
    Tx.Within (Confines (OwnedBy view.tenantWriteScopeField tenant))
      (view.performCreate serializer) := by
  unfold View.performCreate
  split
  · exact within_superuserPerform h _ (within_tenantPerformCreate h hcls)
  · exact within_tenantPerformCreate h hcls

theorem within_performUpdate (h : view.Pins tenant)
    (hcls : serializer.cls = view.serializerClass) :
    Tx.Within (Confines (OwnedBy view.tenantWriteScopeField tenant))
      (view.performUpdate serializer) := by
  unfold View.performUpdate
  split
  · exact within_superuserPerform h _ (within_tenantPerformUpdate h hcls)
  · exact within_tenantPerformUpdate h hcls

/-- The native save of the coroutine hooks is out of a tenant's reach. -/
theorem within_performAsync (h : view.Pins tenant)
    (hcls : serializer.cls = view.serializerClass) {hook : Serializer → Tx Raised Database Unit}
    (hhook : Tx.Within (Confines (OwnedBy view.tenantWriteScopeField tenant)) (hook serializer)) :
    Tx.Within (Confines (OwnedBy view.tenantWriteScopeField tenant))
      (view.performAsync hook serializer) := by
  unfold View.performAsync
  rw [tenantSaveKwargs_of_pins h hcls]
  split
  · exact hhook
  · refine .bind (.ofExcept _) fun kwargs hkwargs => ?_
    obtain ⟨s, hkwargs⟩ := hkwargs
    obtain rfl := Except.ok.inj hkwargs
    exact hhook

/-! ### The handlers -/

theorem cls_of_validSingle {isPartial : Bool} {target : Option Instance} {data : JsonValue}
    {db : Database} (h : (view.validSingle isPartial target data).outcome db = .ok serializer) :
    serializer.cls = view.serializerClass := by
  obtain ⟨data', -, h⟩ := exists_of_bind_ok h
  obtain ⟨row, -, h⟩ := exists_of_bind_ok h
  exact Except.ok.inj h ▸ rfl

theorem cls_of_validList {data : JsonValue} {db : Database}
    (h : (view.validList data).outcome db = .ok serializer) :
    serializer.cls = view.serializerClass := by
  obtain ⟨data', -, h⟩ := exists_of_bind_ok h
  cases data' with
  | arr items =>
      obtain ⟨rows, -, h⟩ := exists_of_bind_ok h
      exact Except.ok.inj h ▸ rfl
  | _ => exact nomatch h

/-- A handler validates, which writes nothing, runs its hook and responds. -/
theorem within_handle {build : Tx Raised Database Serializer}
    {hook : Serializer → Tx Raised Database Unit} {R : Database → Database → Prop} [Std.Refl R]
    [IsTrans Database R] (hbuild : Tx.Within R build)
    (hcls : ∀ db serializer, build.outcome db = .ok serializer →
      serializer.cls = view.serializerClass)
    (hhook : ∀ serializer : Serializer, serializer.cls = view.serializerClass →
      Tx.Within R (hook serializer)) (status : ℕ) :
    Tx.Within R (do
      let serializer ← build
      hook serializer
      View.respond serializer status) := by
  refine .bind hbuild fun serializer hserializer => ?_
  obtain ⟨db, hdb⟩ := hserializer
  exact .bind (hhook serializer (hcls db serializer hdb)) fun _ _ => .read _

theorem within_create (h : view.Pins tenant) :
    Tx.Within (Confines (OwnedBy view.tenantWriteScopeField tenant)) view.create := by
  unfold View.create
  split
  · exact within_handle (.read _) (fun _ _ => cls_of_validList)
      (fun _ => within_performCreate h) 201
  · exact within_handle (.read _) (fun _ _ => cls_of_validSingle)
      (fun _ => within_performCreate h) 201

theorem within_update (h : view.Pins tenant) (isPartial : Bool) :
    Tx.Within (Confines (OwnedBy view.tenantWriteScopeField tenant)) (view.update isPartial) := by
  unfold View.update
  split
  · exact within_handle (.read _) (fun _ _ => cls_of_validList)
      (fun _ => within_performUpdate h) 200
  · refine .bind (.read _) fun target _ => ?_
    exact within_handle (.read _) (fun _ _ => cls_of_validSingle)
      (fun _ => within_performUpdate h) 200

theorem within_acreate (h : view.Pins tenant) :
    Tx.Within (Confines (OwnedBy view.tenantWriteScopeField tenant)) view.acreate :=
  within_handle (.read _) (fun _ _ => cls_of_validSingle)
    (fun _ hcls => within_performAsync h hcls (within_performCreate h hcls)) 201

theorem within_aupdate (h : view.Pins tenant) (isPartial : Bool) :
    Tx.Within (Confines (OwnedBy view.tenantWriteScopeField tenant)) (view.aupdate isPartial) :=
  .bind (.read _) fun _ _ => within_handle (.read _) (fun _ _ => cls_of_validSingle)
    (fun _ hcls => within_performAsync h hcls (within_performUpdate h hcls)) 200

/-- Tenant confinement: whatever the body names and whichever mixins and
handler serve it, the rows a tenant's create or update writes are the tenant's;
a request that is refused before it saves writes none. -/
theorem writes_confined (h : view.Pins tenant) (kind : HandlerKind) {action : WriteAction}
    (haction : action ≠ .destroy) (db : Database) :
    ∃ new, ((view.handler kind action).after db).written = db.written ++ new ∧
      ∀ row ∈ new, OwnedBy view.tenantWriteScopeField tenant row := by
  cases kind with
  | sync =>
      cases action with
      | create => exact within_create h db
      | update => exact within_update h false db
      | partialUpdate => exact within_update h true db
      | destroy => exact absurd rfl haction
  | coroutine =>
      cases action with
      | create => exact within_acreate h db
      | update => exact within_aupdate h false db
      | partialUpdate => exact within_aupdate h true db
      | destroy => exact absurd rfl haction

/-! ### A list of rows naming two organizations -/

/-- A model serializer that takes every attribute of the body as it is. -/
def modelSerializer (model : Model) : SerializerClass where
  model := some model
  validate _ _ data _ :=
    match data with
    | .obj entries => .ok (Dict.ofPairs (entries.map fun entry => (entry.1, .plain entry.2)))
    | _ => .error (.validationError .null)
  create attrs _ := { writes := [.insert attrs] }
  update target attrs _ := { writes := [.update target.pk (target.row.update attrs)] }

theorem overlaysKwargs_modelSerializer (model : Model) :
    (modelSerializer model).OverlaysKwargs where
  create attrs kwargs db w hw key value hkey := by
    obtain rfl := List.mem_singleton.mp hw
    simp [Write.row, hkey]
  update target attrs kwargs db w hw key value hkey := by
    obtain rfl := List.mem_singleton.mp hw
    simp [Write.row, hkey]

def scopedWidget : Model := { fields := some ["id", "label", "organization_id"] }

/-- Organization 5 posts a row of its own and one of organization 7. -/
def bulkCreate : View where
  serializerClass := modelSerializer scopedWidget
  model := scopedWidget
  getObject _ _ := .error .http404
  superuserOrgScope := some {}
  createListModel := true
  action := "create"
  request :=
    { envoy := .obj [("organization", .str "5")]
      data := .arr [.obj [("organization_id", .int 5)], .obj [("organization_id", .int 7)]] }

theorem pins_bulkCreate : bulkCreate.Pins 5 where
  identity :=
    { notSuperuser := rfl
      organization := ⟨_, _, rfl, rfl, rfl⟩
      nonzero := by decide }
  scope := by decide
  notExempt := List.not_mem_nil
  column := ⟨scopedWidget, rfl, by decide⟩
  overlays := overlaysKwargs_modelSerializer _

theorem writes_confined_bulkCreate :
    ((bulkCreate.handler .sync .create).after {}).written.length = 2 ∧
      ∃ new, ((bulkCreate.handler .sync .create).after {}).written = [] ++ new ∧
        ∀ row ∈ new, OwnedBy "organization_id" 5 row :=
  ⟨by decide, writes_confined pins_bulkCreate .sync (by decide) {}⟩

end NetixBackend.Views
