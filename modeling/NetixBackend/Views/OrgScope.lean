import NetixBackend.Views.Retirement

/-!
`?organization=<id>`: a superuser works in an organization that is not its own.

The parameter is read in two places, by `get_queryset` and by the write hooks,
and gives both the same answer: a target, or the error that refuses the caller.
With a target the queryset is a plain filter on the organization column and
what `superuser_org_extra_filter` adds; unless the extra filter names that very
column, the rows are the target's (`ownedBy_of_selected`).
-/

namespace NetixBackend.Views

open Python Effects

/-- A value of a keyword of `filter()`, for a column of its type. -/
inductive FilterValue
  | int (n : ℤ)
  | bool (b : Bool)
  | str (s : String)
  deriving DecidableEq

/-- The column equals the value; a row without the column is not selected. -/
def FilterValue.holds : FilterValue → Option Value → Bool
  | .int n, some (.plain (.int m)) => n = m
  | .bool b, some (.plain (.bool c)) => b = c
  | .str s, some (.plain (.str t)) => s = t
  | _, _ => false

/-- `filter(**filters)`. -/
def selectsAll (filters : Dict String FilterValue) (inst : Instance) : Bool :=
  filters.items.all fun filter => filter.2.holds (inst.row.get? filter.1)

/-- A view built with `SuperuserOrgScopeMixin` before a scoped base, at the URL
of one row. -/
structure OrgScopeView where
  base : ScopedView
  envoy : EnvoyQueryFilter
  scope : SuperuserOrgScope := {}
  superuserOrgScopeModel : Option Model := none
  superuserOrgExtraFilter : Dict String FilterValue := Dict.empty.set "is_deleted" (.bool false)
  /-- The rows the filter backends keep. -/
  filterBackends : Instance → Bool := fun _ => true
  /-- The key in the URL. -/
  lookup : ℕ := 0
  /-- `check_object_permissions`. -/
  checkObjectPermissions : Instance → Except Raised Unit := fun _ => .ok ()

namespace OrgScopeView

variable (self : OrgScopeView)

/-- `superuser_target_organization_id`. -/
def target : Except Raised (Option ℤ) :=
  self.base.superuserTargetOrganizationId self.scope

/-- `superuser_org_model`: the knob, or what the view declares. -/
def superuserOrgModel : Except Raised Model :=
  match self.superuserOrgScopeModel with
  | some model => .ok model
  | none =>
      match self.base.modelQueryset, self.base.queryset with
      | some rows, _ | none, some rows => .ok rows.model
      | none, none =>
          match self.base.serializerClass.model with
          | some model => .ok model
          | none => .error (.other "RuntimeError")

/-- `{scope_field: organization_id, **extra_filter}`. -/
def superuserOrgFilters (organizationId : ℤ) : Dict String FilterValue :=
  (Dict.empty.set self.scope.scopeField (.int organizationId)).update self.superuserOrgExtraFilter

/-- `self.superuser_org_model() if model is None else model`. -/
def modelOr : Option Model → Except Raised Model
  | some model => .ok model
  | none => self.superuserOrgModel

/-- `superuser_org_queryset`: the target's rows, through the default manager. -/
def superuserOrgQueryset (model : Option Model) (organizationId : ℤ) : Except Raised Queryset := do
  let model ← self.modelOr model
  return ⟨model, selectsAll (self.superuserOrgFilters organizationId)⟩

/-- `get_org_scoped_queryset`, for a view that owns its `get_queryset`. -/
def getOrgScopedQueryset (model : Option Model) (args : FilterArgs) : Except Raised Queryset := do
  match ← self.target with
  | some organizationId => self.superuserOrgQueryset model organizationId
  | none =>
      let resolved ← self.modelOr model
      self.base.getQuerysetFilter self.envoy resolved args true

/-- `get_queryset`: the class's own, by way of the helper, or the mixin's. -/
def getQueryset : Except Raised Queryset :=
  match self.base.ownGetQueryset with
  | some call => self.getOrgScopedQueryset (some call.model) call.toFilterArgs
  | none => do
      match ← self.target with
      | none => self.base.getQueryset self.envoy
      | some organizationId => self.superuserOrgQueryset none organizationId

/-- The framework's `get_object`. -/
def getObject (db : Database) : Except Raised Instance := do
  let queryset ← self.getQueryset
  match (queryset.rows db).find? fun inst => self.filterBackends inst && inst.pk = self.lookup with
  | none => throw .http404
  | some inst =>
      self.checkObjectPermissions inst
      return inst

/-- The view of the handlers: the mixin's hooks, and the lookup above. -/
def view : View :=
  { self.base.toView with
    getObject := fun _ db => self.getObject db
    superuserOrgScope := some self.scope }

/-- The rows of the list action. -/
def list (db : Database) : Except Raised (List Instance) := do
  return (← self.getQueryset).rows db |>.filter self.filterBackends

end OrgScopeView

/-! ### The parameter -/

namespace OrgScopeView

variable {endpoint : OrgScopeView}

/-- The request carries the parameter, and the view does not read it as absent. -/
def Asks (endpoint : OrgScopeView) (raw : String) : Prop :=
  endpoint.base.request.queryParams.get? endpoint.scope.queryParam = some raw ∧
    ¬ (endpoint.scope.blankIsAbsent = true ∧ raw = "")

/-- What a caller who is no superuser gets for it: 400 before 403. -/
def refusal (endpoint : OrgScopeView) (raw : String) : Raised :=
  match intOfString raw with
  | .error _ => .validationError (.obj [(endpoint.scope.queryParam, .str endpoint.scope.invalidMessage)])
  | .ok _ => .permissionDenied endpoint.scope.forbiddenMessage

theorem target_of_asks {raw : String} (h : endpoint.Asks raw) :
    endpoint.target =
      match intOfString raw with
      | .error _ =>
          .error (.validationError (.obj [(endpoint.scope.queryParam, .str endpoint.scope.invalidMessage)]))
      | .ok organizationId =>
          if isSuperuser endpoint.base.request then .ok (some organizationId)
          else .error (.permissionDenied endpoint.scope.forbiddenMessage) := by
  rw [target, View.superuserTargetOrganizationId, h.1]
  dsimp only
  refine (if_neg (by simpa using h.2)).trans ?_
  cases intOfString raw <;> rfl

theorem target_of_not_superuser {raw : String} (h : endpoint.Asks raw)
    (hcaller : isSuperuser endpoint.base.request = false) : endpoint.target = .error (endpoint.refusal raw) := by
  rw [target_of_asks h, refusal]
  cases intOfString raw with
  | error e => rfl
  | ok organizationId => simp [hcaller]

theorem isSuperuser_of_target {organization : ℤ} (h : endpoint.target = .ok (some organization)) :
    isSuperuser endpoint.base.request = true := by
  by_contra hcaller
  rw [Bool.not_eq_true] at hcaller
  rw [target, View.superuserTargetOrganizationId] at h
  split at h
  · simp at h
  · split at h
    · simp at h
    · split at h
      · simp at h
      · simp [hcaller] at h

/-! ### The rows of the target -/

/-- A superuser's request for the organization, to a view whose extra filter
leaves the organization column alone. -/
structure Targets (endpoint : OrgScopeView) (organization : ℤ) : Prop where
  target : endpoint.target = .ok (some organization)
  extraFilter : endpoint.superuserOrgExtraFilter.get? endpoint.scope.scopeField = none

theorem holds_int_iff {n : ℤ} {value : Option Value} :
    (FilterValue.int n).holds value = true ↔ value = some (.plain (.int n)) := by
  unfold FilterValue.holds
  split <;> simp_all [eq_comm]

variable {organization : ℤ} {db : Database}

theorem getQueryset_of_targets (h : endpoint.Targets organization) {queryset : Queryset}
    (hqueryset : endpoint.getQueryset = .ok queryset) :
    queryset.selects = selectsAll (endpoint.superuserOrgFilters organization) := by
  have hselects : ∀ model, endpoint.superuserOrgQueryset model organization = .ok queryset →
      queryset.selects = selectsAll (endpoint.superuserOrgFilters organization) := by
    intro model hrows
    obtain ⟨resolved, -, hrows⟩ := exists_of_bind_ok hrows
    rw [← Except.ok.inj hrows]
  rw [getQueryset] at hqueryset
  split at hqueryset
  · rename_i call _
    rw [getOrgScopedQueryset, h.target] at hqueryset
    exact hselects (some call.model) hqueryset
  · rw [h.target] at hqueryset
    exact hselects none hqueryset

/-- The rows of the queryset are the target's, whatever the extra filter adds. -/
theorem ownedBy_of_selected (h : endpoint.Targets organization) {inst : Instance}
    (hselected : selectsAll (endpoint.superuserOrgFilters organization) inst = true) :
    OwnedBy endpoint.scope.scopeField organization inst.row := by
  have hfilter : (endpoint.superuserOrgFilters organization).get? endpoint.scope.scopeField =
      some (.int organization) := by
    simp [superuserOrgFilters, h.extraFilter]
  have hmem := (Dict.mem_items_iff _ _ _).mpr hfilter
  exact holds_int_iff.mp (List.all_eq_true.mp hselected _ hmem)

theorem getObject_spec (h : endpoint.Targets organization) {inst : Instance}
    (hfound : endpoint.getObject db = .ok inst) :
    inst ∈ db.instances ∧ OwnedBy endpoint.scope.scopeField organization inst.row := by
  obtain ⟨queryset, hqueryset, hfound⟩ := exists_of_bind_ok hfound
  split at hfound
  · exact nomatch hfound
  · rename_i found hfind
    obtain ⟨u, -, hfound⟩ := exists_of_bind_ok hfound
    obtain rfl := Except.ok.inj hfound
    have hrow := List.mem_of_find?_eq_some hfind
    obtain ⟨hmem, hselected⟩ := List.mem_filter.mp hrow
    rw [getQueryset_of_targets h hqueryset] at hselected
    exact ⟨hmem, ownedBy_of_selected h hselected⟩

end OrgScopeView

end NetixBackend.Views
