import NetixBackend.Views.Store

/-!
The write handlers of the two base view sets, hook by hook.

A view is the knobs its class sets plus the action and the request `dispatch`
binds. Which mixins it is composed of are knobs too: the optional mixins come
before the base in the class, so their overrides win and their `super()` is
the base's method. Every handler ends in `performCreate` or `performUpdate`
and those in `Serializer.save`; each method below is the source's, under its
name, with the exceptions it raises. The sync handlers are those of both
bases, the coroutine handlers (`acreate` and the rest) those of the async
base.

What `get_object` finds or raises is the queryset's, the filters' and the
permissions' affair, and reads only.
-/

namespace NetixBackend.Views

open Python Effects

inductive ScopeMode
  | off
  | pin
  | pinAndReject
  deriving DecidableEq

/-- The knobs of `SuperuserOrgScopeMixin` that its write hooks read. -/
structure SuperuserOrgScope where
  queryParam : String := "organization"
  scopeField : String := "organization_id"
  blankIsAbsent : Bool := false
  invalidMessage : String := "Must be an integer organization id."
  forbiddenMessage : String := "Only superusers can access another organization's configuration."

/-- A view class: its declarations and the mixins it is built with. -/
structure ViewClass where
  serializerClass : SerializerClass
  /-- The model of the rows `get_object` returns. -/
  model : Model
  getObject : Request → Database → Except Raised Instance
  -- TenantWriteScopeMixin
  tenantWriteScope : ScopeMode := .pin
  tenantWriteScopeField : String := "organization_id"
  tenantWriteExemptActions : List String := []
  tenantWritePinBeforeValidation : Bool := false
  -- SoftDeleteMixin
  softDeleteField : String := "is_deleted"
  softDelete404OnRepeat : Bool := true
  softDeleteValidate : Bool := false
  -- AtomicWriteMixin
  atomicActions : List String := ["create", "update", "partial_update", "destroy"]
  -- the optional mixins
  superuserOrgScope : Option SuperuserOrgScope := none
  createListModel : Bool := false
  updateListModel : Bool := false
  /-- The setting `NETIX_ERRORS_CONSISTENT_ENVELOPE`. -/
  consistentEnvelope : Bool := false

structure View extends ViewClass where
  action : String
  request : Request

/-- A response, by its status. -/
abbrev Response := ℕ

namespace View

variable (self : View)

/-! ### TenantWriteScopeMixin -/

/-- The organization to force onto this write, or `none` to leave the body
alone. -/
def tenantOrganizationId : Except Raised (Option ℤ) :=
  if self.tenantWriteScope = .off then .ok none
  else if self.action ∈ self.tenantWriteExemptActions then .ok none
  else Views.tenantOrganizationId self.request

/-- The organization `save()` is to pin under `tenant_write_scope_field`; `none`
for no keyword arguments. -/
def tenantSaveKwargs (serializer : Serializer) : Except Raised (Option ℤ) := do
  match ← self.tenantOrganizationId with
  | none => return none
  | some organizationId =>
      match serializer.cls.model with
      | none => return none
      | some model =>
          return if modelHasField model self.tenantWriteScopeField then some organizationId else none

def pinKwargs (field : String) (organizationId : ℤ) : Row :=
  Dict.empty.set field (.plain (.int organizationId))

/-- The rows are checked one by one, on the key `tenant_write_scope_field`. -/
def rejectForeignBody (organizationId : ℤ) : List Row → Except Raised Unit
  | [] => .ok ()
  | row :: rest =>
      match row.get? self.tenantWriteScopeField with
      | none => rejectForeignBody organizationId rest
      | some submitted =>
          if submitted.isNone || submitted.sameTextAsInt organizationId then
            rejectForeignBody organizationId rest
          else .error (.permissionDenied "Cannot write records for another organization.")

def rejectForeignInstance (serializer : Serializer) (organizationId : ℤ) : Except Raised Unit :=
  match serializer.target.bind fun target => target.row.get? self.tenantWriteScopeField with
  | none => .ok ()
  | some owner =>
      if owner.isNone || owner.sameTextAsInt organizationId then .ok ()
      else
        .error (.permissionDenied
          "Tenant identities may only modify their organization's records.")

def tenantPerformCreate (serializer : Serializer) : Tx Raised Database Unit := do
  match ← Tx.ofExcept (self.tenantSaveKwargs serializer) with
  | none => serializer.save Dict.empty
  | some organizationId =>
      if self.tenantWriteScope = .pinAndReject then
        Tx.ofExcept (self.rejectForeignBody organizationId serializer.validatedData)
      serializer.save (pinKwargs self.tenantWriteScopeField organizationId)

def tenantPerformUpdate (serializer : Serializer) : Tx Raised Database Unit := do
  match ← Tx.ofExcept (self.tenantSaveKwargs serializer) with
  | none => serializer.save Dict.empty
  | some organizationId =>
      if self.tenantWriteScope = .pinAndReject then
        Tx.ofExcept (self.rejectForeignBody organizationId serializer.validatedData)
        Tx.ofExcept (self.rejectForeignInstance serializer organizationId)
      serializer.save (pinKwargs self.tenantWriteScopeField organizationId)

/-! ### SuperuserOrgScopeMixin -/

/-- The requested cross-organization target, `none` for normal scoping; 400 on
a non-integer, 403 for a tenant. -/
def superuserTargetOrganizationId (scope : SuperuserOrgScope) : Except Raised (Option ℤ) :=
  match self.request.queryParams.get? scope.queryParam with
  | none => .ok none
  | some raw =>
      if scope.blankIsAbsent && raw = "" then .ok none
      else match intOfString raw with
        | .error _ =>
            .error (.validationError (.obj [(scope.queryParam, .str scope.invalidMessage)]))
        | .ok organizationId =>
            if isSuperuser self.request then .ok (some organizationId)
            else .error (.permissionDenied scope.forbiddenMessage)

/-- The override both hooks share: the target wins over the body, else the
hook below. -/
def superuserPerform (scope : SuperuserOrgScope) (super : Serializer → Tx Raised Database Unit)
    (serializer : Serializer) : Tx Raised Database Unit := do
  match ← Tx.ofExcept (self.superuserTargetOrganizationId scope) with
  | none => super serializer
  | some organizationId => serializer.save (pinKwargs scope.scopeField organizationId)

/-! ### The hooks a view resolves to -/

def performCreate (serializer : Serializer) : Tx Raised Database Unit :=
  match self.superuserOrgScope with
  | some scope => self.superuserPerform scope self.tenantPerformCreate serializer
  | none => self.tenantPerformCreate serializer

def performUpdate (serializer : Serializer) : Tx Raised Database Unit :=
  match self.superuserOrgScope with
  | some scope => self.superuserPerform scope self.tenantPerformUpdate serializer
  | none => self.tenantPerformUpdate serializer

/-- `_has_sync_override`: the hook resolves to something other than the base's. -/
def hasSyncOverride : Bool := self.superuserOrgScope.isSome

/-- The coroutine hooks: the sync hook in a thread when it has something to
decide, a native save otherwise. -/
def performAsync (hook : Serializer → Tx Raised Database Unit) (serializer : Serializer) :
    Tx Raised Database Unit := do
  if self.hasSyncOverride then hook serializer
  else match ← Tx.ofExcept (self.tenantSaveKwargs serializer) with
    | some _ => hook serializer
    | none => serializer.save Dict.empty

def performAcreate (serializer : Serializer) : Tx Raised Database Unit :=
  self.performAsync self.performCreate serializer

def performAupdate (serializer : Serializer) : Tx Raised Database Unit :=
  self.performAsync self.performUpdate serializer

/-! ### Building and validating the serializer -/

/-- `_pinned_write_data`: only a dict body of one object is pinned. -/
def pinnedWriteData (data : JsonValue) : Except Raised JsonValue := do
  match ← self.tenantOrganizationId with
  | none => return data
  | some organizationId =>
      match data with
      | .arr _ => return data
      | _ =>
          match self.serializerClass.model with
          | none => return data
          | some model =>
              if modelHasField model self.tenantWriteScopeField then
                match data with
                | .obj entries =>
                    return .obj (setEntries self.tenantWriteScopeField (.int organizationId) entries)
                -- nothing but a dict has a `copy` to assign into
                | _ => throw .attributeError
              else return data

/-- The `data` that `get_serializer` hands on. -/
def serializerData (data : JsonValue) : Except Raised JsonValue :=
  match data with
  | .null => .ok .null
  | data => if self.tenantWritePinBeforeValidation then self.pinnedWriteData data else .ok data

def notAList : Raised :=
  .validationError (.obj [("non_field_errors", .arr [.str "Expected a list of items."])])

/-- `many=True`: the child validates the items one by one. -/
def validateItems (db : Database) : List JsonValue → Except Raised (List Row)
  | [] => .ok []
  | item :: rest => do
      let row ← self.serializerClass.validate false none item db
      let rows ← validateItems db rest
      return row :: rows

/-- `get_serializer(data=data, many=True)`, then `is_valid(raise_exception=True)`. -/
def validList (data : JsonValue) : Tx Raised Database Serializer := Tx.read fun db => do
  match ← self.serializerData data with
  | .arr items =>
      return { cls := self.serializerClass, target := none
               validatedData := ← self.validateItems db items }
  | _ => throw notAList

/-- `get_serializer(instance, data=data, partial=partial)`, then
`is_valid(raise_exception=True)`. -/
def validSingle (isPartial : Bool) (target : Option Instance) (data : JsonValue) :
    Tx Raised Database Serializer := Tx.read fun db => do
  let data ← self.serializerData data
  let row ← self.serializerClass.validate isPartial target data db
  return { cls := self.serializerClass, target, validatedData := [row] }

def bodyIsList : Bool :=
  match self.request.data with
  | .arr _ => true
  | _ => false

/-- `Response(serializer.data, status=...)`. -/
def respond (serializer : Serializer) (status : ℕ) : Tx Raised Database Response :=
  Tx.read fun db => do
    serializer.cls.represent db
    return status

/-! ### The handlers -/

/-- `create`, of `CreateListModelMixin` or of the framework. -/
def create : Tx Raised Database Response := do
  let serializer ←
    if self.createListModel && self.bodyIsList then self.validList self.request.data
    else self.validSingle false none self.request.data
  self.performCreate serializer
  respond serializer 201

/-- `update`, of `UpdateListModelMixin` or of the framework. A list body builds
a serializer with no instance. -/
def update (isPartial : Bool) : Tx Raised Database Response := do
  let serializer ←
    if self.updateListModel && self.bodyIsList then self.validList self.request.data
    else do
      let target ← Tx.read (self.getObject self.request)
      self.validSingle isPartial (some target) self.request.data
  self.performUpdate serializer
  respond serializer 200

def acreate : Tx Raised Database Response := do
  let serializer ← self.validSingle false none self.request.data
  self.performAcreate serializer
  respond serializer 201

def aupdate (isPartial : Bool) : Tx Raised Database Response := do
  let target ← Tx.read (self.getObject self.request)
  let serializer ← self.validSingle isPartial (some target) self.request.data
  self.performAupdate serializer
  respond serializer 200

def attrTruthy (target : Instance) (name : String) : Bool :=
  match target.row.get? name with
  | some (.plain value) => value.truthy
  | some (.related _ _) => true
  | none => false

def softDeleteUpdateFields : List String :=
  if modelHasField self.model "updated_on" then [self.softDeleteField, "updated_on"]
  else [self.softDeleteField]

/-- Retire one row, delegating to the model's own `soft_delete` when it has
one. -/
def softDeleteInstance (target : Instance) : Tx Raised Database Unit := do
  if self.softDelete404OnRepeat && attrTruthy target self.softDeleteField then Tx.raise .http404
  if self.softDeleteValidate then
    match self.model.validateSoftDelete with
    | some validate => perform (validate target)
    | none => pure ()
  match self.model.softDelete with
  | some softDelete => perform (softDelete target)
  | none =>
      let target := { target with row := target.row.set self.softDeleteField (.plain (.bool true)) }
      perform (self.model.save target self.softDeleteUpdateFields)

/-- `except Http404`: a 404 response, unless the consistent envelope is to make
it. -/
def onHttp404 : Raised → Tx Raised Database Response
  | .http404 => if self.consistentEnvelope then Tx.raise .http404 else pure 404
  | error => Tx.raise error

/-- `SoftDeleteMixin.destroy`: the transaction is around the `try`. -/
def destroy : Tx Raised Database Response :=
  Tx.atomic <| Tx.catching (do
    let target ← Tx.read (self.getObject self.request)
    self.softDeleteInstance target
    return 204) self.onHttp404

/-- `AsyncSoftDeleteMixin.adestroy`: the transaction is inside the `try`. -/
def adestroy : Tx Raised Database Response :=
  Tx.catching (do
    let target ← Tx.read (self.getObject self.request)
    Tx.atomic (self.softDeleteInstance target)
    return 204) self.onHttp404

end View

/-- The write actions, by the name the router gives the sync handler. -/
inductive WriteAction
  | create
  | update
  | partialUpdate
  | destroy
  deriving DecidableEq

inductive HandlerKind
  | sync
  | coroutine
  deriving DecidableEq

def View.handler (self : View) : HandlerKind → WriteAction → Tx Raised Database Response
  | .sync, .create => self.create
  | .sync, .update => self.update false
  | .sync, .partialUpdate => self.update true
  | .sync, .destroy => self.destroy
  | .coroutine, .create => self.acreate
  | .coroutine, .update => self.aupdate false
  | .coroutine, .partialUpdate => self.aupdate true
  | .coroutine, .destroy => self.adestroy

end NetixBackend.Views
