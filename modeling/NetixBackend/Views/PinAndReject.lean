import NetixBackend.Views.TenantConfinement

/-!
Which foreign writes `pin_and_reject` refuses.

A validated row names an organization under the name of the field that put it
there. For a plain column that is `organization_id`; for a foreign key it is
`organization`, with the related row as its value, or the attname
`organization_id`. The check reads the attname alone. `decides_rejectForeignBody`
and `decides_rejectForeignInstance` say exactly what it sees, and
`pinsOrRefuses_iff` that a hook which checks and then saves is right about a
property exactly when what the check sees is all of it.

A foreign organization named under the foreign key's own name is therefore
saved over, unless something else in the request gives it away.
-/

namespace NetixBackend.Views

open Python Effects

/-- The shapes of an organization column. -/
inductive OrganizationColumn
  /-- A field `organization_id`. -/
  | plain
  /-- A foreign key `organization`, with the attname `organization_id`. -/
  | foreignKey

namespace OrganizationColumn

def fieldName : OrganizationColumn → String
  | .plain => "organization_id"
  | .foreignKey => "organization"

/-- The keys of a validated row that set the column. -/
def spellings (column : OrganizationColumn) : List String := ["organization_id", column.fieldName]

def In (column : OrganizationColumn) (model : Model) : Prop :=
  ∃ fields, model.fields = some fields ∧ column.fieldName ∈ fields

end OrganizationColumn

/-- The value is an organization, and not the tenant's. -/
def Value.NamesOther (tenant : ℤ) : Value → Prop
  | .plain value => (Value.plain value).isNone = false ∧ value.sameTextAsInt tenant = false
  | .related pk _ => pk ≠ tenant

/-- The row names another organization under that key. -/
def NamesOther (tenant : ℤ) (name : String) (row : Row) : Prop :=
  ∃ value, row.get? name = some value ∧ value.NamesOther tenant

/-- Some validated row does. -/
def BodyNames (tenant : ℤ) (name : String) (rows : List Row) : Prop :=
  ∃ row ∈ rows, NamesOther tenant name row

/-- Some validated row names another organization, under either spelling. -/
def ForeignBody (column : OrganizationColumn) (tenant : ℤ) (rows : List Row) : Prop :=
  ∃ row ∈ rows, ∃ name ∈ column.spellings, NamesOther tenant name row

/-- The target instance belongs to another organization. -/
def ForeignTarget (tenant : ℤ) (target : Option Instance) : Prop :=
  ∃ instance', target = some instance' ∧ NamesOther tenant "organization_id" instance'.row

/-- What stands under an attname is a plain value, never a related row. -/
def PlainAttname (row : Row) : Prop :=
  ∀ value, row.get? "organization_id" = some value → ∃ json, value = .plain json

/-- A framework serializer's `create` and `update` refuse nobody. -/
structure SerializerClass.NeverDenies (cls : SerializerClass) : Prop where
  create : ∀ attrs db message, (cls.create attrs db).raised ≠ some (.permissionDenied message)
  update : ∀ target attrs db message,
    (cls.update target attrs db).raised ≠ some (.permissionDenied message)

/-- A tenant's write through a model serializer under `pin_and_reject`. -/
structure View.Rejects (view : View) (tenant : ℤ) (column : OrganizationColumn)
    (serializer : Serializer) : Prop where
  identity : IsTenant view.request tenant
  scope : view.tenantWriteScope = .pinAndReject
  field : view.tenantWriteScopeField = "organization_id"
  notExempt : view.action ∉ view.tenantWriteExemptActions
  column : ∃ model, serializer.cls.model = some model ∧ column.In model
  neverDenies : serializer.cls.NeverDenies
  rows : ∀ row ∈ serializer.validatedData, PlainAttname row
  target : ∀ target, serializer.target = some target → PlainAttname target.row

/-- The hook refuses, with nothing saved, exactly when `P` holds, and else
saves. -/
structure PinsOrRefuses (P : Prop) (save hook : Tx Raised Database Unit) : Prop where
  refused : ∀ db, (∃ message, hook db = (.error (.permissionDenied message), db)) ↔ P
  saved : ¬ P → hook = save

/-- A check refuses when `Q` holds and passes otherwise. -/
structure Decides (Q : Prop) (check : Except Raised Unit) : Prop where
  refuses : Q → ∃ message, check = .error (.permissionDenied message)
  passes : ¬ Q → check = .ok ()

variable {view : View} {tenant : ℤ} {column : OrganizationColumn} {serializer : Serializer}
  {P Q Q' : Prop} {check check' : Except Raised Unit}

/-! ### The checks -/

theorem foreignBody_iff {rows : List Row} :
    ForeignBody column tenant rows ↔
      BodyNames tenant "organization_id" rows ∨ BodyNames tenant column.fieldName rows := by
  simp [ForeignBody, BodyNames, OrganizationColumn.spellings, and_or_left, exists_or]

theorem Decides.ok : Decides False (.ok ()) := ⟨False.elim, fun _ => rfl⟩

theorem Decides.guard (h : Decides Q check) (passes : Bool) (message : String) :
    Decides (¬ passes = true ∨ Q)
      (if passes then check else .error (.permissionDenied message)) := by
  by_cases hpasses : passes = true
  · simpa only [hpasses, not_true_eq_false, false_or, if_true] using h
  · rw [if_neg hpasses]
    exact ⟨fun _ => ⟨message, rfl⟩, fun hnot => absurd (.inl hpasses) hnot⟩

/-- On a plain value the check compares as `NamesOther` says. -/
theorem namesOther_plain_iff {name : String} {row : Row} {json : JsonValue}
    (h : row.get? name = some (.plain json)) :
    NamesOther tenant name row ↔
      ¬ ((Value.plain json).isNone || (Value.plain json).sameTextAsInt tenant) = true := by
  simp [NamesOther, h, Value.NamesOther, Value.sameTextAsInt]

theorem not_namesOther_of_absent {name : String} {row : Row} (h : row.get? name = none) :
    ¬ NamesOther tenant name row := fun ⟨_, hsome, _⟩ => nomatch h.symm.trans hsome

theorem decides_rejectForeignBody (hfield : view.tenantWriteScopeField = "organization_id")
    {rows : List Row} (hrows : ∀ row ∈ rows, PlainAttname row) :
    Decides (BodyNames tenant "organization_id" rows) (view.rejectForeignBody tenant rows) := by
  induction rows with
  | nil => exact ⟨fun ⟨row, hrow, _⟩ => (nomatch hrow), fun _ => rfl⟩
  | cons row rest ih =>
      rw [List.forall_mem_cons] at hrows
      have hcons : BodyNames tenant "organization_id" (row :: rest) ↔
          NamesOther tenant "organization_id" row ∨ BodyNames tenant "organization_id" rest := by
        simp [BodyNames]
      rw [hcons, View.rejectForeignBody, hfield]
      cases hvalue : row.get? "organization_id" with
      | none => simpa only [not_namesOther_of_absent hvalue, false_or] using ih hrows.2
      | some value =>
          obtain ⟨json, rfl⟩ := hrows.1 value hvalue
          rw [namesOther_plain_iff hvalue]
          exact (ih hrows.2).guard _ _

theorem decides_rejectForeignInstance (hfield : view.tenantWriteScopeField = "organization_id")
    (htarget : ∀ target, serializer.target = some target → PlainAttname target.row) :
    Decides (ForeignTarget tenant serializer.target)
      (view.rejectForeignInstance serializer tenant) := by
  rw [View.rejectForeignInstance, hfield]
  cases hserializer : serializer.target with
  | none => exact ⟨fun ⟨target, hsome, _⟩ => (nomatch hsome), fun _ => rfl⟩
  | some target =>
      have hforeign : ForeignTarget tenant (some target) ↔
          NamesOther tenant "organization_id" target.row := by simp [ForeignTarget]
      rw [hforeign, Option.bind_some]
      cases hvalue : target.row.get? "organization_id" with
      | none => exact ⟨fun hnames => absurd hnames (not_namesOther_of_absent hvalue), fun _ => rfl⟩
      | some value =>
          obtain ⟨json, rfl⟩ := htarget target hserializer value hvalue
          rw [namesOther_plain_iff hvalue]
          simpa only [or_false] using Decides.ok.guard
            ((Value.plain json).isNone || (Value.plain json).sameTextAsInt tenant)
            "Tenant identities may only modify their organization's records."

/-- Two checks one after the other. -/
theorem Decides.andThen (h : Decides Q check) (h' : Decides Q' check') :
    Decides (Q ∨ Q') (check >>= fun _ => check') := by
  by_cases hQ : Q
  · obtain ⟨message, hcheck⟩ := h.refuses hQ
    exact ⟨fun _ => ⟨message, by rw [hcheck]; rfl⟩, fun hnot => absurd (.inl hQ) hnot⟩
  · rw [h.passes hQ]
    refine ⟨fun hor => ?_, fun hnot => h'.passes fun hQ' => hnot (.inr hQ')⟩
    exact h'.refuses (hor.resolve_left hQ)

/-! ### A check and then a save -/

/-- A hook that checks and then saves is right about `P`, of which the check
sees `Q`, exactly when it sees all of it. -/
theorem pinsOrRefuses_iff {save : Tx Raised Database Unit} (hcheck : Decides Q check)
    (hsave : Tx.Raises (fun error => ∀ message, error ≠ .permissionDenied message) save)
    (hQP : Q → P) :
    PinsOrRefuses P save (do Tx.ofExcept check; save) ↔ (P → Q) := by
  constructor
  · intro h hP
    by_contra hQ
    obtain ⟨message, hrefused⟩ := (h.refused {}).mpr hP
    rw [hcheck.passes hQ] at hrefused
    exact hsave {} _ (congrArg Prod.fst hrefused) message rfl
  · intro hPQ
    by_cases hQ : Q
    · obtain ⟨message, hrefuses⟩ := hcheck.refuses hQ
      rw [hrefuses]
      exact ⟨fun db => iff_of_true ⟨message, rfl⟩ (hQP hQ), fun hP => absurd (hQP hQ) hP⟩
    · rw [hcheck.passes hQ]
      refine ⟨fun db => iff_of_false ?_ fun hP => hQ (hPQ hP), fun _ => rfl⟩
      rintro ⟨message, hdenied⟩
      exact hsave db _ (congrArg Prod.fst hdenied) message rfl

/-- The save itself denies nothing. -/
theorem raises_save (hcls : serializer.cls.NeverDenies) (kwargs : Row) :
    Tx.Raises (fun error => ∀ message, error ≠ .permissionDenied message)
      (serializer.save kwargs) := by
  refine .each fun attrs _ => ?_
  intro db error herror message hdenied
  subst hdenied
  split at herror
  · rename_i target _
    cases hraised : (serializer.cls.update target (attrs.update kwargs) db).raised with
    | none => simp [Tx.outcome, perform, hraised] at herror
    | some raised =>
        simp only [Tx.outcome, perform, hraised, Except.error.injEq] at herror
        exact hcls.update _ _ db message (herror ▸ hraised)
  · cases hraised : (serializer.cls.create (attrs.update kwargs) db).raised with
    | none => simp [Tx.outcome, perform, hraised] at herror
    | some raised =>
        simp only [Tx.outcome, perform, hraised, Except.error.injEq] at herror
        exact hcls.create _ db message (herror ▸ hraised)

/-! ### The hooks -/

theorem modelHasField_of_in {model : Model} (h : column.In model) :
    modelHasField model "organization_id" = true := by
  obtain ⟨fields, hfields, hmem⟩ := h
  have hname : String.ofList (firstSegment "organization_id".toList) = "organization_id" := by
    decide
  have hforeign : "_id".toList <:+ firstSegment "organization_id".toList ∧
      String.ofList ((firstSegment "organization_id".toList).take
        ((firstSegment "organization_id".toList).length - 3)) = "organization" := by decide
  simp only [modelHasField, hfields, decide_eq_true_eq]
  cases column with
  | plain => exact .inl (hname.symm ▸ hmem)
  | foreignKey => exact .inr ⟨hforeign.1, hforeign.2.symm ▸ hmem⟩

theorem tenantSaveKwargs_of_rejects (h : view.Rejects tenant column serializer) :
    view.tenantSaveKwargs serializer = .ok (some tenant) := by
  obtain ⟨model, hmodel, hcolumn⟩ := h.column
  have htenant : view.tenantOrganizationId = .ok (some tenant) := by
    rw [View.tenantOrganizationId, h.scope, if_neg (by decide), if_neg h.notExempt]
    exact tenantOrganizationId_of_isTenant h.identity
  rw [View.tenantSaveKwargs, htenant, hmodel, h.field]
  simp only [bind, Except.bind, modelHasField_of_in hcolumn, if_true]
  rfl

theorem tenantPerformCreate_eq (h : view.Rejects tenant column serializer) :
    view.tenantPerformCreate serializer = (do
      Tx.ofExcept (view.rejectForeignBody tenant serializer.validatedData)
      serializer.save (View.pinKwargs "organization_id" tenant)) := by
  rw [View.tenantPerformCreate, tenantSaveKwargs_of_rejects h, h.scope, h.field]
  rfl

theorem tenantPerformUpdate_eq (h : view.Rejects tenant column serializer) :
    view.tenantPerformUpdate serializer = (do
      Tx.ofExcept (view.rejectForeignBody tenant serializer.validatedData >>= fun _ =>
        view.rejectForeignInstance serializer tenant)
      serializer.save (View.pinKwargs "organization_id" tenant)) := by
  rw [View.tenantPerformUpdate, tenantSaveKwargs_of_rejects h, h.scope, h.field]
  change (do
    Tx.ofExcept (view.rejectForeignBody tenant serializer.validatedData)
    Tx.ofExcept (view.rejectForeignInstance serializer tenant)
    serializer.save (View.pinKwargs "organization_id" tenant)) = _
  cases view.rejectForeignBody tenant serializer.validatedData <;> rfl

/-- A create refuses the foreign bodies and pins the others exactly when one
named under the foreign key's name is also named under the attname; an update
does exactly when it is, or the target instance is foreign. -/
theorem pin_and_reject_iff (h : view.Rejects tenant column serializer) :
    (PinsOrRefuses (ForeignBody column tenant serializer.validatedData)
          (serializer.save (View.pinKwargs "organization_id" tenant))
          (view.tenantPerformCreate serializer) ↔
        (BodyNames tenant column.fieldName serializer.validatedData →
          BodyNames tenant "organization_id" serializer.validatedData)) ∧
      (PinsOrRefuses
          (ForeignBody column tenant serializer.validatedData ∨
            ForeignTarget tenant serializer.target)
          (serializer.save (View.pinKwargs "organization_id" tenant))
          (view.tenantPerformUpdate serializer) ↔
        (BodyNames tenant column.fieldName serializer.validatedData →
          BodyNames tenant "organization_id" serializer.validatedData ∨
            ForeignTarget tenant serializer.target)) := by
  have hbody := @decides_rejectForeignBody view tenant h.field serializer.validatedData h.rows
  have htarget := @decides_rejectForeignInstance view tenant serializer h.field h.target
  have hsave := raises_save h.neverDenies (View.pinKwargs "organization_id" tenant)
  rw [tenantPerformCreate_eq h, tenantPerformUpdate_eq h]
  constructor
  · rw [pinsOrRefuses_iff hbody hsave fun hnamed => foreignBody_iff.mpr (.inl hnamed),
      foreignBody_iff]
    exact ⟨fun hsees hnamed => hsees (.inr hnamed), fun hsees hforeign => hforeign.elim id hsees⟩
  · rw [pinsOrRefuses_iff (hbody.andThen htarget) hsave
      fun hnamed => hnamed.imp_left fun hnamed => foreignBody_iff.mpr (.inl hnamed),
      foreignBody_iff]
    refine ⟨fun hsees hnamed => hsees (.inl (.inr hnamed)), fun hsees hforeign => ?_⟩
    rcases hforeign with (hnamed | hnamed) | hforeign
    · exact .inl hnamed
    · exact hsees hnamed
    · exact .inr hforeign

/-! ### A foreign key's own name -/

def ownedWidget : Model := { fields := some ["id", "label", "organization"] }

/-- Organization 5 at a model whose organization is a foreign key. -/
def rejectingCreate : View where
  serializerClass := modelSerializer ownedWidget
  model := ownedWidget
  getObject _ _ := .error .http404
  tenantWriteScope := .pinAndReject
  action := "create"
  request := { envoy := .obj [("organization", .int 5)] }

def naming (name : String) (value : Value) : Serializer where
  cls := modelSerializer ownedWidget
  target := none
  validatedData := [Dict.empty.set name value]

theorem rejects_rejectingCreate {name : String} {value : Value}
    (hplain : PlainAttname (Dict.empty.set name value)) :
    rejectingCreate.Rejects 5 .foreignKey (naming name value) where
  identity :=
    { notSuperuser := rfl
      organization := ⟨_, _, rfl, rfl, rfl⟩
      nonzero := by decide }
  scope := rfl
  field := rfl
  notExempt := List.not_mem_nil
  column := ⟨ownedWidget, rfl, _, rfl, by decide⟩
  neverDenies :=
    { create := fun _ _ _ hraised => nomatch hraised
      update := fun _ _ _ _ hraised => nomatch hraised }
  rows := List.forall_mem_singleton.mpr hplain
  target := fun _ hsome => nomatch hsome

/-- Named as a foreign key names it, organization 7 passes, and one row is
saved with the pin over it. -/
theorem foreign_key_passes :
    ForeignBody .foreignKey 5 (naming "organization" (.related 7 "Acme")).validatedData ∧
      (rejectingCreate.tenantPerformCreate
          (naming "organization" (.related 7 "Acme"))).outcome {} = .ok () ∧
        ((rejectingCreate.tenantPerformCreate
            (naming "organization" (.related 7 "Acme"))).after {}).written.length = 1 := by
  refine ⟨⟨_, List.mem_singleton_self _, "organization", by decide, _, rfl, ?_⟩, rfl, by decide⟩
  exact show (7 : ℤ) ≠ 5 by decide

/-- Named under the attname it is refused, and nothing is saved. -/
theorem attname_refused :
    ∃ message, rejectingCreate.tenantPerformCreate
        (naming "organization_id" (.plain (.int 7))) {} =
      (.error (.permissionDenied message), {}) := by
  have hplain : PlainAttname (Dict.empty.set "organization_id" (.plain (.int 7))) :=
    fun value hvalue => ⟨.int 7, (Option.some.inj hvalue).symm⟩
  have hnamed : BodyNames 5 "organization_id"
      (naming "organization_id" (.plain (.int 7))).validatedData :=
    ⟨_, List.mem_singleton_self _, _, rfl, rfl, by decide⟩
  have hpins := (pin_and_reject_iff (rejects_rejectingCreate hplain)).1.mpr fun _ => hnamed
  exact (hpins.refused {}).mpr (foreignBody_iff.mpr (.inl hnamed))

end NetixBackend.Views
