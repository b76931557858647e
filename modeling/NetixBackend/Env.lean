import NetixBackend.Python.Floats

/-!
Reading the environment.

Every read goes through `lookup`, which strips the value and takes an empty
one for unset. The readers below take the names to try in order; what they
raise names the variable.
-/

namespace NetixBackend

open Python

/-- `os.environ`. -/
abbrev Environ := String → Option String

/-- A required variable is missing or cannot be parsed. -/
inductive ConfigurationError
  /-- "Missing required environment variable ...", the names joined by " or ". -/
  | missingRequired (names : List String)
  /-- "Missing ... environment variable", the names joined by " or ". -/
  | missing (names : List String)
  /-- "...=... is not an integer". -/
  | notAnInteger (name raw : String)
  /-- "...=... is not a number". -/
  | notANumber (name raw : String)

namespace Environ

variable (environ : Environ)

/-- The stripped value of a variable; an empty or blank one is unset. -/
def lookup (name : String) : Option String :=
  match environ name with
  | none => none
  | some value =>
      let stripped := strip value.toList
      if stripped = [] then none else some (String.ofList stripped)

/-- `env_first(*names)`: the first non-empty value. -/
def first (names : List String) : Option String := names.findSome? (lookup environ)

/-- `env_first(*names, required=True)`. -/
def firstRequired (names : List String) : Except ConfigurationError String :=
  match first environ names with
  | some value => .ok value
  | none => .error (.missingRequired names)

/-- `env_int(name, default)`. -/
def int (name : String) (default : ℤ) : Except ConfigurationError ℤ :=
  match lookup environ name with
  | none => .ok default
  | some raw =>
      match intOfString raw with
      | .ok n => .ok n
      | .error _ => .error (.notAnInteger name raw)

/-- `env_float(name, default)`. -/
def float (name : String) (default : Number) : Except ConfigurationError Number :=
  match lookup environ name with
  | none => .ok default
  | some raw =>
      match floatOfString raw with
      | some x => .ok x
      | none => .error (.notANumber name raw)

/-- `service_authorization(*env_names)`: the pod's own credential, never the
empty one. -/
def serviceAuthorization (names : List String) : Except ConfigurationError String :=
  let names := names ++ ["USER_SVC_AUTH"]
  match first environ names with
  | some value => .ok value
  | none => .error (.missing names)

end Environ

/-- `parse_bool(value)`: an unrecognised spelling is false. -/
def parseBool : Option String → Bool
  | none => false
  | some value =>
      String.ofList ((strip value.toList).map Char.toLower) ∈ ["1", "true", "yes", "on"]

end NetixBackend
