import NetixBackend.Views.AsyncActions

/-!
`?include_deleted` and the rows of `get_queryset`.

The deletion predicate enters a view's queryset at two places,
`_get_queryset_filter` and `_scope_queryset`, each of which hands
`delete_filter` to the envoy filter. `IncludeDeletedMixin` overrides the first
and, where a wider queryset is declared beside the view's own, `get_queryset`.
A view whose `get_queryset` is the one of `EnvoyScopedQuerysetMixin` gets to
the second, which nothing overrides (`rowsRight_iff`).

What the envoy filter makes of an identity is its own affair: the caller's
scope is whatever predicate on rows it comes to.
-/

namespace NetixBackend.Views

open Python

/-! ### Querysets -/

/-- A queryset, by the rows of its model's table that it selects. -/
structure Queryset where
  model : Model
  selects : Instance → Bool

def Queryset.filter (queryset : Queryset) (condition : Instance → Bool) : Queryset :=
  { queryset with selects := fun inst => queryset.selects inst && condition inst }

def Database.instances (db : Database) : List Instance := db.rows.map fun entry => ⟨entry.1, entry.2⟩

def Queryset.rows (queryset : Queryset) (db : Database) : List Instance :=
  db.instances.filter queryset.selects

/-- `is_deleted = false`. -/
def Instance.live (inst : Instance) : Bool :=
  match inst.row.get? "is_deleted" with
  | some (.plain (.bool deleted)) => !deleted
  | _ => false

/-! ### The envoy filter -/

/-- What a call of the filter says about whose rows are asked for. -/
structure Scope where
  request : Request
  sessionCustomerFilter : Bool
  fieldName : String
  includeShared : Option Bool

structure ScopeKwargs extends Scope where
  deleteFilter : Bool

/-- `EnvoyQueryFilter`: both entry points restrict to the caller's scope, and
with `delete_filter` to the rows that are not deleted. -/
structure EnvoyQueryFilter where
  getQueryset : Model → ScopeKwargs → Except Raised Queryset
  filterQueryset : Queryset → ScopeKwargs → Except Raised Queryset
  /-- `_accepts_include_shared` of the two. -/
  getAcceptsIncludeShared : Bool
  filterAcceptsIncludeShared : Bool
  inScope : Scope → Instance → Bool
  getQueryset_selects : ∀ model kwargs queryset, getQueryset model kwargs = .ok queryset →
    ∀ inst, queryset.selects inst =
      (inScope kwargs.toScope inst && (!kwargs.deleteFilter || inst.live))
  filterQueryset_selects : ∀ rows kwargs queryset, filterQueryset rows kwargs = .ok queryset →
    ∀ inst, queryset.selects inst =
      (rows.selects inst && (inScope kwargs.toScope inst && (!kwargs.deleteFilter || inst.live)))

/-- The keyword arguments of a scoping call, `delete_filter` apart. -/
structure FilterArgs where
  fieldName : Option String := none
  includeShared : Option Bool := none
  additionalFilter : Option (Instance → Bool) := none

/-- A call of `_get_queryset_filter` that leaves `delete_filter` alone. -/
structure FilterCall extends FilterArgs where
  model : Model

/-- A view composed of `IncludeDeletedMixin` over `EnvoyScopedQuerysetMixin`. -/
structure ScopedView extends ActionView where
  -- EnvoyScopedQuerysetMixin
  organizationField : String := "organization_id"
  sessionCustomerFilter : Option Bool := none
  modelQueryset : Option Queryset := none
  organizationFieldOptional : Bool := false
  /-- The setting `SESSION_CUSTOMER_FILTER`. -/
  sessionCustomerFilterSetting : Bool := true
  -- IncludeDeletedMixin
  includeDeletedQueryset : Option Queryset := none
  /-- The class's own `get_queryset`, by the call it makes. -/
  ownGetQueryset : Option FilterCall := none
  /-- `queryset`, which the framework's `get_queryset` returns. -/
  queryset : Option Queryset := none

namespace ScopedView

variable (self : ScopedView) (envoy : EnvoyQueryFilter)

/-- `field_name or self.organization_field`. -/
def fieldFor (fieldName : Option String) : String :=
  match fieldName with
  | none | some "" => self.organizationField
  | some name => name

def resolveSessionCustomerFilter (model : Model) (fieldName : String) : Bool :=
  let value := self.sessionCustomerFilter.getD self.sessionCustomerFilterSetting
  if value && self.organizationFieldOptional then modelHasField model (self.fieldFor (some fieldName))
  else value

/-- `_scope_call_kwargs`, `delete_filter` apart. -/
def callScope (acceptsIncludeShared : Bool) (model : Model) (args : FilterArgs) : Scope where
  request := self.request
  sessionCustomerFilter := self.resolveSessionCustomerFilter model (self.fieldFor args.fieldName)
  fieldName := self.fieldFor args.fieldName
  includeShared := if acceptsIncludeShared then args.includeShared else none

def scopeCallKwargs (acceptsIncludeShared : Bool) (model : Model) (args : FilterArgs)
    (deleteFilter : Bool) : ScopeKwargs :=
  { self.callScope acceptsIncludeShared model args with deleteFilter }

def applyAdditional (args : FilterArgs) (queryset : Queryset) : Queryset :=
  match args.additionalFilter with
  | none => queryset
  | some condition => queryset.filter condition

/-- `EnvoyScopedQuerysetMixin._get_queryset_filter`. -/
def envoyGetQuerysetFilter (model : Model) (args : FilterArgs) (deleteFilter : Bool) :
    Except Raised Queryset := do
  let queryset ← envoy.getQueryset model
    (self.scopeCallKwargs envoy.getAcceptsIncludeShared model args deleteFilter)
  return applyAdditional args queryset

def scopeQueryset (queryset : Queryset) (args : FilterArgs) (deleteFilter : Bool) :
    Except Raised Queryset := do
  let restricted ← envoy.filterQueryset queryset
    (self.scopeCallKwargs envoy.filterAcceptsIncludeShared queryset.model args deleteFilter)
  return applyAdditional args restricted

/-- `EnvoyScopedQuerysetMixin.get_queryset`. -/
def envoyGetQueryset : Except Raised Queryset :=
  match self.modelQueryset with
  | some rows => self.scopeQueryset envoy rows {} true
  | none =>
      match self.queryset with
      | some rows => .ok rows
      | none => .error (.other "AssertionError")

/-- `IncludeDeletedMixin._get_queryset_filter`. -/
def getQuerysetFilter (model : Model) (args : FilterArgs) (deleteFilter : Bool) :
    Except Raised Queryset :=
  self.envoyGetQuerysetFilter envoy model args (deleteFilter && !self.includeDeletedRequested)

/-- `IncludeDeletedMixin.get_queryset`. -/
def includeDeletedGetQueryset : Except Raised Queryset :=
  match self.includeDeletedQueryset with
  | none => self.envoyGetQueryset envoy
  | some rows =>
      if !self.includeDeletedRequested then self.envoyGetQueryset envoy
      else self.scopeQueryset envoy rows {} false

/-- `get_queryset`: the class's own, else the first in the mixins' order. -/
def getQueryset : Except Raised Queryset :=
  match self.ownGetQueryset with
  | some call => self.getQuerysetFilter envoy call.model call.toFilterArgs true
  | none => self.includeDeletedGetQueryset envoy

end ScopedView

/-! ### The three declarations -/

/-- How a view declares its rows. The wider queryset of the third is that of
the first over again. -/
inductive RowsDeclaration
  | modelQueryset (rows : Queryset)
  | filterCall (call : FilterCall)
  | includeDeletedQueryset (rows : Queryset)

namespace RowsDeclaration

/-- The view with its rows so declared. -/
def declare (view : ScopedView) : RowsDeclaration → ScopedView
  | .modelQueryset rows =>
      { view with modelQueryset := some rows, includeDeletedQueryset := none, ownGetQueryset := none }
  | .filterCall call => { view with ownGetQueryset := some call }
  | .includeDeletedQueryset rows =>
      { view with
        modelQueryset := some rows
        includeDeletedQueryset := some rows
        ownGetQueryset := none }

/-- The rows of the view's organization scope, deleted ones among them. -/
def scope (envoy : EnvoyQueryFilter) (view : ScopedView) : RowsDeclaration → Instance → Bool
  | .modelQueryset rows | .includeDeletedQueryset rows => fun inst =>
      rows.selects inst &&
        envoy.inScope (view.callScope envoy.filterAcceptsIncludeShared rows.model {}) inst
  | .filterCall call => fun inst =>
      envoy.inScope (view.callScope envoy.getAcceptsIncludeShared call.model call.toFilterArgs) inst &&
        (call.additionalFilter.getD fun _ => true) inst

/-- Nothing but `model_queryset`. -/
def bare : RowsDeclaration → Bool
  | .modelQueryset _ => true
  | .filterCall _ => false
  | .includeDeletedQueryset _ => false

end RowsDeclaration

/-- What `get_queryset` owes: the whole scope when the deleted rows are asked
for, else the live part of it. -/
structure RowsRight (envoy : EnvoyQueryFilter) (view : ScopedView) (declaration : RowsDeclaration)
    (db : Database) (queryset : Queryset) : Prop where
  widened : view.includeDeletedRequested = true →
    queryset.rows db = db.instances.filter (declaration.scope envoy view)
  hidden : view.includeDeletedRequested = false →
    queryset.rows db = db.instances.filter fun inst => declaration.scope envoy view inst && inst.live
  within : ∀ inst ∈ queryset.rows db, declaration.scope envoy view inst = true

variable {envoy : EnvoyQueryFilter} {view : ScopedView} {declaration : RowsDeclaration}
  {db : Database} {queryset : Queryset} {rows : Queryset} {model : Model} {args : FilterArgs}
  {deleteFilter : Bool}

/-! ### The two entry points -/

theorem selects_applyAdditional (args : FilterArgs) (queryset : Queryset) (inst : Instance) :
    (ScopedView.applyAdditional args queryset).selects inst =
      (queryset.selects inst && (args.additionalFilter.getD fun _ => true) inst) := by
  unfold ScopedView.applyAdditional
  cases args.additionalFilter with
  | none => simp
  | some condition => rfl

theorem selects_envoyGetQuerysetFilter
    (h : view.envoyGetQuerysetFilter envoy model args deleteFilter = .ok queryset)
    (inst : Instance) :
    queryset.selects inst =
      ((envoy.inScope (view.callScope envoy.getAcceptsIncludeShared model args) inst &&
        (args.additionalFilter.getD fun _ => true) inst) && (!deleteFilter || inst.live)) := by
  obtain ⟨restricted, hrestricted, hqueryset⟩ := Effects.exists_of_bind_ok h
  rw [← Except.ok.inj hqueryset, selects_applyAdditional,
    envoy.getQueryset_selects _ _ _ hrestricted inst, Bool.and_right_comm]
  rfl

theorem selects_scopeQueryset (h : view.scopeQueryset envoy rows {} deleteFilter = .ok queryset)
    (inst : Instance) :
    queryset.selects inst =
      ((rows.selects inst &&
        envoy.inScope (view.callScope envoy.filterAcceptsIncludeShared rows.model {}) inst) &&
          (!deleteFilter || inst.live)) := by
  obtain ⟨restricted, hrestricted, hqueryset⟩ := Effects.exists_of_bind_ok h
  rw [← Except.ok.inj hqueryset, selects_applyAdditional,
    envoy.filterQueryset_selects _ _ _ hrestricted inst]
  change ((_ && (_ && _)) && true) = _
  rw [Bool.and_true, Bool.and_assoc]
  rfl

/-- What each declaration selects: the scope, and the live rows of it unless
the flag gets through. -/
theorem selects_getQueryset (h : (declaration.declare view).getQueryset envoy = .ok queryset)
    (inst : Instance) :
    queryset.selects inst =
      (declaration.scope envoy view inst &&
        (view.includeDeletedRequested && !declaration.bare || inst.live)) := by
  cases declaration with
  | modelQueryset rows =>
      refine (selects_scopeQueryset h inst).trans ?_
      rw [RowsDeclaration.bare, Bool.not_true, Bool.and_false]
      rfl
  | filterCall call =>
      refine (selects_envoyGetQuerysetFilter h inst).trans ?_
      rw [RowsDeclaration.bare, Bool.not_false, Bool.and_true, Bool.true_and, Bool.not_not]
      rfl
  | includeDeletedQueryset rows =>
      let declared := RowsDeclaration.declare view (.includeDeletedQueryset rows)
      have hpath : declared.getQueryset envoy =
          if !view.includeDeletedRequested then declared.scopeQueryset envoy rows {} true
          else declared.scopeQueryset envoy rows {} false := rfl
      rw [RowsDeclaration.bare, Bool.not_false, Bool.and_true]
      cases hrequested : view.includeDeletedRequested with
      | false =>
          rw [hrequested] at hpath
          exact selects_scopeQueryset (hpath.symm.trans h) inst
      | true =>
          rw [hrequested] at hpath
          exact selects_scopeQueryset (hpath.symm.trans h) inst

/-- The rows of `get_queryset` are right, for every table and identity, exactly
if the deleted rows are not asked for, the view declares more than its
`model_queryset`, or none of its rows is deleted. -/
theorem rowsRight_iff (envoy : EnvoyQueryFilter) (view : ScopedView)
    (declaration : RowsDeclaration) (db : Database) (queryset : Queryset)
    (h : (declaration.declare view).getQueryset envoy = .ok queryset) :
    RowsRight envoy view declaration db queryset ↔
      view.includeDeletedRequested = false ∨ declaration.bare = false ∨
        ∀ inst ∈ db.instances, declaration.scope envoy view inst = true → inst.live = true := by
  have hselects := selects_getQueryset h
  constructor
  · intro hright
    by_contra hnot
    obtain ⟨hrequested, hbare, hdeleted⟩ := by simpa only [not_or, Bool.not_eq_false] using hnot
    refine hdeleted fun inst hmem hscope => ?_
    have hrow : inst ∈ queryset.rows db := by
      rw [hright.widened hrequested]
      exact List.mem_filter.mpr ⟨hmem, hscope⟩
    have hselected := (List.mem_filter.mp hrow).2
    rw [hselects, hbare] at hselected
    simpa [hscope] using hselected
  · intro hcondition
    refine ⟨fun hrequested => ?_, fun hhidden => ?_, fun inst hmem => ?_⟩
    · refine List.filter_congr fun inst hmem => ?_
      rw [hselects, hrequested, Bool.true_and]
      rcases hcondition with hno | hbare | hlive
      · exact absurd (hrequested.symm.trans hno) Bool.noConfusion
      · rw [hbare, Bool.not_false, Bool.true_or, Bool.and_true]
      · cases hscope : declaration.scope envoy view inst with
        | false => rfl
        | true => rw [hlive inst hmem hscope, Bool.or_true, Bool.and_true]
    · refine List.filter_congr fun inst _ => ?_
      rw [hselects, hhidden, Bool.false_and, Bool.false_or]
    · have hselected := (List.mem_filter.mp hmem).2
      rw [hselects, Bool.and_eq_true] at hselected
      exact hselected.1

/-! ### One table, two declarations -/

/-- An organization sees the rows whose column holds it. -/
def columnFilter : EnvoyQueryFilter where
  getQueryset model kwargs :=
    .ok ⟨model, fun inst => owned kwargs.toScope inst && (!kwargs.deleteFilter || inst.live)⟩
  filterQueryset rows kwargs :=
    .ok (rows.filter fun inst => owned kwargs.toScope inst && (!kwargs.deleteFilter || inst.live))
  getAcceptsIncludeShared := false
  filterAcceptsIncludeShared := false
  inScope := owned
  getQueryset_selects := by
    rintro model kwargs queryset h inst
    rw [← Except.ok.inj h]
  filterQueryset_selects := by
    rintro rows kwargs queryset h inst
    rw [← Except.ok.inj h]
    rfl
where
  owned (scope : Scope) (inst : Instance) : Bool :=
    match tenantOrganizationId scope.request, inst.row.get? scope.fieldName with
    | .ok (some organization), some owner => owner.sameTextAsInt organization
    | .ok none, _ => true
    | _, _ => false

def widgetRow (organization : ℤ) (deleted : Bool) : Row :=
  (Dict.empty.set "organization_id" (.plain (.int organization))).set "is_deleted"
    (.plain (.bool deleted))

/-- A live and a deleted row of organization 5, and a row of another. -/
def widgetTable : Database where
  rows := [(1, widgetRow 5 false), (2, widgetRow 5 true), (3, widgetRow 6 false)]

/-- Organization 5 lists with `?include_deleted=true`. -/
def listView : ScopedView where
  toActionView := exemptView.dispatched "list"

theorem rowsRight_filterCall :
    ∃ queryset, ((RowsDeclaration.filterCall { model := {} }).declare listView).getQueryset
        columnFilter = .ok queryset ∧
      RowsRight columnFilter listView (.filterCall { model := {} }) widgetTable queryset :=
  ⟨_, rfl, (rowsRight_iff columnFilter listView _ widgetTable _ rfl).mpr (.inr (.inl rfl))⟩

/-- Declared by `model_queryset` alone, the view shows one row of the two. -/
theorem model_queryset_ignores_flag :
    listView.includeDeletedRequested = true ∧
      ∃ queryset, ((RowsDeclaration.modelQueryset ⟨{}, fun _ => true⟩).declare listView).getQueryset
          columnFilter = .ok queryset ∧
        ¬ RowsRight columnFilter listView (.modelQueryset ⟨{}, fun _ => true⟩) widgetTable
          queryset := by
  refine ⟨by decide, _, rfl, fun hright => ?_⟩
  have hlength := congrArg List.length (hright.widened (by decide))
  exact absurd hlength (by decide)

end NetixBackend.Views
