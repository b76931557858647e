import NetixBackend.Views.Handlers

/-!
The decisions that depend on the name of the action.

Three mixins look the action up in a list of names the view declares: the
write scope, `?include_deleted` and the ownership gate. The sync router binds
the framework's name, the async router its own, and the lists are written in
the framework's. So under the async name every lookup misses, and the two
dispatches of one view agree exactly where a miss decides nothing.
-/

namespace NetixBackend.Views

open Python

/-- The CRUD actions, by the framework's names. -/
inductive CrudAction
  | list
  | retrieve
  | create
  | update
  | partialUpdate
  | destroy
  deriving DecidableEq

namespace CrudAction

def name : CrudAction → String
  | .list => "list"
  | .retrieve => "retrieve"
  | .create => "create"
  | .update => "update"
  | .partialUpdate => "partial_update"
  | .destroy => "destroy"

def asyncName : CrudAction → String
  | .list => "alist"
  | .retrieve => "aretrieve"
  | .create => "acreate"
  | .update => "aupdate"
  | .partialUpdate => "apartial_update"
  | .destroy => "adestroy"

end CrudAction

/-- `ASYNC_ACTION_MAP`. -/
def asyncActionMap : List (String × String) :=
  [("alist", "list"), ("aretrieve", "retrieve"), ("acreate", "create"), ("aupdate", "update"),
    ("apartial_update", "partial_update"), ("adestroy", "destroy")]

theorem asyncActionMap_lookup (action : CrudAction) :
    asyncActionMap.lookup action.asyncName = some action.name := by
  cases action <;> rfl

inductive OwnershipMode
  | library
  | legacyOpen
  | off
  deriving DecidableEq

/-- What decides about an object in `ObjectOrgOwnership`: it is allowed as it
is, or one of the two gates is asked. -/
inductive OwnershipGate
  | allowed
  | legacyOpen
  | library
  deriving DecidableEq

def includeDeletedParam : String := "include_deleted"

/-- `_TRUTHY`. -/
def truthyTexts : List String := ["1", "true", "yes", "on"]

/-- A view with all its action-keyed knobs. -/
structure ActionView extends View where
  -- IncludeDeletedMixin
  includeDeletedActions : List String := ["list", "retrieve", "update", "partial_update"]
  -- EnvoyPermissionMixin
  orgOwnership : OwnershipMode := .library
  orgOwnershipExemptActions : List String := []

def Request.includeDeletedFlag (request : Request) : Bool :=
  match request.queryParams.get? includeDeletedParam with
  | none => false
  | some raw => String.ofList ((strip raw.toList).map Char.toLower) ∈ truthyTexts

namespace ActionView

variable (self : ActionView)

def includeDeletedRequested : Bool :=
  if self.action ∉ self.includeDeletedActions then false else self.request.includeDeletedFlag

/-- `ObjectOrgOwnership.has_object_permission`, up to the gate that it asks. -/
def ownershipGate : OwnershipGate :=
  if self.orgOwnership = .off then .allowed
  else if self.action ∈ self.orgOwnershipExemptActions then .allowed
  else if self.orgOwnership = .legacyOpen then .legacyOpen
  else .library

/-- What the router binds. -/
def dispatched (action : String) : ActionView := { self with action }

end ActionView

/-- The two dispatches pin the same organization or none, answer
`include_deleted_requested` alike and exempt the same action from the ownership
gate. -/
structure SameDecisions (a b : ActionView) : Prop where
  pinned : a.tenantOrganizationId = b.tenantOrganizationId
  includeDeleted : a.includeDeletedRequested = b.includeDeletedRequested
  ownership : a.ownershipGate = b.ownershipGate

/-- The knobs are in the framework's action names. -/
structure ActionView.InSyncNames (view : ActionView) : Prop where
  exempt : ∀ action : CrudAction, action.asyncName ∉ view.tenantWriteExemptActions
  includeDeleted : ∀ action : CrudAction, action.asyncName ∉ view.includeDeletedActions
  ownership : ∀ action : CrudAction, action.asyncName ∉ view.orgOwnershipExemptActions

variable {view : ActionView} {action : CrudAction}

/-! ### One decision at a time -/

theorem pinned_iff (h : view.InSyncNames) :
    (view.dispatched action.asyncName).tenantOrganizationId =
        (view.dispatched action.name).tenantOrganizationId ↔
      view.tenantWriteScope = .off ∨ action.name ∉ view.tenantWriteExemptActions ∨
        tenantOrganizationId view.request = .ok none := by
  have hasync : action.asyncName ∉ view.tenantWriteExemptActions := h.exempt action
  simp only [View.tenantOrganizationId, ActionView.dispatched]
  by_cases hoff : view.tenantWriteScope = .off
  · simp [hoff]
  · by_cases hexempt : action.name ∈ view.tenantWriteExemptActions <;>
      simp [hoff, hasync, hexempt]

theorem includeDeleted_iff (h : view.InSyncNames) :
    (view.dispatched action.asyncName).includeDeletedRequested =
        (view.dispatched action.name).includeDeletedRequested ↔
      action.name ∉ view.includeDeletedActions ∨ view.request.includeDeletedFlag = false := by
  have hasync : action.asyncName ∉ view.includeDeletedActions := h.includeDeleted action
  simp only [ActionView.includeDeletedRequested, ActionView.dispatched]
  by_cases hlisted : action.name ∈ view.includeDeletedActions <;>
    cases view.request.includeDeletedFlag <;> simp [hasync, hlisted]

theorem ownership_iff (h : view.InSyncNames) :
    (view.dispatched action.asyncName).ownershipGate =
        (view.dispatched action.name).ownershipGate ↔
      view.orgOwnership = .off ∨ action.name ∉ view.orgOwnershipExemptActions := by
  have hasync : action.asyncName ∉ view.orgOwnershipExemptActions := h.ownership action
  simp only [ActionView.ownershipGate, ActionView.dispatched]
  by_cases hoff : view.orgOwnership = .off
  · simp [hoff]
  · by_cases hexempt : action.name ∈ view.orgOwnershipExemptActions <;>
      by_cases hlegacy : view.orgOwnership = .legacyOpen <;>
        simp [hoff, hasync, hexempt, hlegacy]

/-- The async dispatch decides as the sync one exactly when no knob that lists
the action would have made a difference. -/
theorem sameDecisions_iff (h : view.InSyncNames) (action : CrudAction) :
    SameDecisions (view.dispatched action.asyncName) (view.dispatched action.name) ↔
      (view.tenantWriteScope = .off ∨ action.name ∉ view.tenantWriteExemptActions ∨
          tenantOrganizationId view.request = .ok none) ∧
        (action.name ∉ view.includeDeletedActions ∨ view.request.includeDeletedFlag = false) ∧
        (view.orgOwnership = .off ∨ action.name ∉ view.orgOwnershipExemptActions) := by
  rw [← pinned_iff h, ← includeDeleted_iff h, ← ownership_iff h]
  exact ⟨fun hsame => ⟨hsame.pinned, hsame.includeDeleted, hsame.ownership⟩,
    fun ⟨hpinned, hdeleted, hownership⟩ => ⟨hpinned, hdeleted, hownership⟩⟩

/-! ### A create that is exempt -/

def acceptAll : SerializerClass where
  validate _ _ _ _ := .ok Dict.empty
  create attrs _ := { writes := [.insert attrs] }
  update target attrs _ := { writes := [.update target.pk attrs] }

/-- Organization 5 at a view that exempts its create from the pin and one of
its reads from the ownership gate. -/
def exemptView : ActionView where
  serializerClass := acceptAll
  model := {}
  getObject _ _ := .error .http404
  tenantWriteExemptActions := ["create"]
  orgOwnershipExemptActions := ["retrieve"]
  action := ""
  request :=
    { envoy := .obj [("organization", .int 5)]
      queryParams := Dict.empty.set "include_deleted" "true" }

theorem inSyncNames_exemptView : exemptView.InSyncNames where
  exempt action := by cases action <;> decide
  includeDeleted action := by cases action <;> decide
  ownership action := by cases action <;> decide

/-- The sync create leaves the body alone, the async one pins organization 5;
the sync list shows deleted rows, the async one hides them; the sync retrieve
is exempt, the async one is not. -/
theorem async_names_decide_otherwise :
    ((exemptView.dispatched "create").tenantOrganizationId = .ok none ∧
        (exemptView.dispatched "acreate").tenantOrganizationId = .ok (some 5)) ∧
      ((exemptView.dispatched "list").includeDeletedRequested = true ∧
        (exemptView.dispatched "alist").includeDeletedRequested = false) ∧
      ((exemptView.dispatched "retrieve").ownershipGate = .allowed ∧
        (exemptView.dispatched "aretrieve").ownershipGate = .library) :=
  ⟨⟨rfl, rfl⟩, by decide, by decide⟩

/-- Nothing lists the destroy: it is decided alike. -/
theorem sameDecisions_destroy :
    SameDecisions (exemptView.dispatched "adestroy") (exemptView.dispatched "destroy") :=
  (sameDecisions_iff inSyncNames_exemptView .destroy).mpr
    ⟨.inr (.inl (by decide)), .inl (by decide), .inr (by decide)⟩

end NetixBackend.Views
