import NetixBackend.Python.Integers
import NetixBackend.Python.Dict

/-!
Who is calling: the envoy identity on a request.

The identity is the dict the envoy middleware puts on the request, read with
Python's coercions: a claim may arrive as a string, a number, a boolean or
not at all. `isSuperuser` and `tenantOrganizationId` decide every write scope
below; `IsTenant` is the specification of an ordinary tenant, and
`tenantOrganizationId_of_isTenant` is the only fact about the two that the
rest of the development uses.
-/

namespace NetixBackend.Views

open Python

inductive Raised
  | permissionDenied (message : String)
  | validationError (detail : JsonValue)
  | http404
  | attributeError
  | overflowError
  /-- Anything else: a database error, an error of the adopter's own code. -/
  | other (name : String)

structure User where
  isAuthenticated : Bool
  isSuperuser : Bool

structure Request where
  /-- `getattr(request, "envoy", None)`. -/
  envoy : JsonValue := .null
  user : Option User := none
  queryParams : Dict String String := Dict.empty
  data : JsonValue := .null

/-- `value.strip().lower() == "true"`. -/
def isTrueText (value : String) : Bool := (strip value.toList).map Char.toLower = "true".toList

/-- The envoy flag first, `request.user` second. -/
def isSuperuser (request : Request) : Bool :=
  let ofUser := match request.user with
    | some user => user.isAuthenticated && user.isSuperuser
    | none => false
  match request.envoy with
  | .obj envoy =>
      match envoy.lookup "is_superuser" with
      | none | some .null => ofUser
      | some (.str value) => isTrueText value
      | some value => value.truthy
  | _ => ofUser

/-- `caller in _UNRESOLVED_ORGANIZATIONS`. -/
def isUnresolved : JsonValue → Bool
  | .null => true
  | .str s => s = "" ∨ s = "bogus"
  | _ => false

/-- The organization a caller must write into; `none` for platform, superuser
and unresolved callers. -/
def tenantOrganizationId (request : Request) : Except Raised (Option ℤ) :=
  match request.envoy with
  | .obj envoy =>
      if isSuperuser request then .ok none
      else
        let caller := (envoy.lookup "organization").getD .null
        if isUnresolved caller then .ok none
        else match caller.toInt with
          | .ok organizationId => .ok (if organizationId = 0 then none else some organizationId)
          -- only TypeError and ValueError are caught
          | .error .overflowError => .error .overflowError
          | .error _ => .error (.permissionDenied "The authenticated organization is invalid.")
  | _ => .ok none

/-- A tenant identity: an envoy dict, no superuser, whose organization is a
non-zero integer under `int()`. -/
structure IsTenant (request : Request) (tenant : ℤ) : Prop where
  notSuperuser : isSuperuser request = false
  organization : ∃ envoy caller, request.envoy = .obj envoy ∧
    envoy.lookup "organization" = some caller ∧ caller.toInt = .ok tenant
  nonzero : tenant ≠ 0

/-- What `_UNRESOLVED_ORGANIZATIONS` lists is no integer. -/
theorem toInt_of_isUnresolved {caller : JsonValue} (h : isUnresolved caller = true) (n : ℤ) :
    caller.toInt ≠ .ok n := by
  cases caller with
  | null => exact fun hint => nomatch hint
  | str s =>
      simp only [isUnresolved, decide_eq_true_eq] at h
      rcases h with rfl | rfl
      · exact fun hint => nomatch (show Except.error IntError.valueError = Except.ok n from hint)
      · exact fun hint => nomatch (show Except.error IntError.valueError = Except.ok n from hint)
  | _ => exact fun _ => nomatch (show false = true from h)

theorem tenantOrganizationId_of_isTenant {request : Request} {tenant : ℤ}
    (h : IsTenant request tenant) : tenantOrganizationId request = .ok (some tenant) := by
  obtain ⟨envoy, caller, henvoy, horganization, hint⟩ := h.organization
  have hresolved : isUnresolved caller = false :=
    Bool.eq_false_iff.mpr fun hunresolved => toInt_of_isUnresolved hunresolved tenant hint
  simp [tenantOrganizationId, henvoy, h.notSuperuser, horganization, hresolved, hint, h.nonzero]

end NetixBackend.Views
