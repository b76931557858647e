import NetixBackend.Effects.Memo
import NetixBackend.Http.Retry
import NetixBackend.Python.Dict

/-!
The factory of generated clients, and the cache in front of it.

`constructClient` turns the environment and the arguments of a call into the
configuration of a client; `cacheKey` is the identity under which the process
keeps it. The cached factory is the memo table on the two. Only the values a
client is configured with are modelled: the eager sync and async clients a
generated class may accept are built from the same ones.
-/

namespace NetixBackend.Http

open Python Effects

structure Limits where
  maxConnections : Option ℕ
  maxKeepaliveConnections : Option ℕ
  keepaliveExpiry : Option Number := some (.finite 5)
  deriving DecidableEq

def defaultLimits : Limits := { maxConnections := some 20, maxKeepaliveConnections := some 10 }

/-- `httpx.Timeout(timeout_seconds, pool=pool_timeout)`. -/
structure Timeout where
  seconds : Number
  pool : Number
  deriving DecidableEq

structure Transport where
  policy : RetryPolicy
  limits : Limits
  verify : Bool
  deriving DecidableEq

/-- The keyword arguments a client class is called with. -/
structure ClientConfig where
  baseUrl : String
  headers : Dict String String
  verifySsl : Bool
  raiseOnUnexpectedStatus : Bool
  timeout : Timeout
  transport : Transport

/-- What the factory reads beside its arguments. -/
structure Process extends RetrySettings where
  /-- `discovered_urls().get`. -/
  registry : String → Option String := fun _ => none

/-- The arguments of `build_client(..., cache=True)`. -/
structure BuildCall where
  /-- `client_cls.__module__` and `client_cls.__qualname__`, joined by a dot. -/
  clientCls : String
  service : String
  registryName : Option String := none
  urlKeys : Option (List String) := none
  acceptKeys : Option (List String) := none
  authKeys : Option (List String) := none
  verifySslKeys : Option (List String) := none
  raiseStatusKeys : Option (List String) := none
  timeoutKeys : Option (List String) := none
  authorization : Bool := true
  extraHeaders : Option (Dict String String) := none
  limits : Limits := defaultLimits
  poolTimeout : Number := .finite 5
  retries : Option ℤ := none

/-- The environment variables a call reads, by part. -/
structure Keys where
  url : List String
  accept : List String
  auth : List String
  verifySsl : List String
  raiseStatus : List String
  timeout : List String
  deriving DecidableEq

/-- `service.upper()`; services have ASCII names. -/
def upper (service : String) : String := String.ofList (service.toList.map upperChar)

/-- `_keys(explicit, service, part)`, by the part's suffix. -/
def keysOr (explicit : Option (List String)) (service suffix : String) : List String :=
  match explicit with
  | none | some [] => [upper service ++ "_SVC_" ++ suffix]
  | some names => names

namespace BuildCall

def keys (call : BuildCall) : Keys where
  url := keysOr call.urlKeys call.service "URL"
  accept := keysOr call.acceptKeys call.service "HEADERS"
  auth := keysOr call.authKeys call.service "AUTH"
  verifySsl := keysOr call.verifySslKeys call.service "VERIFY_SSL"
  raiseStatus := keysOr call.raiseStatusKeys call.service "RAISE_ON_UNEXPECTED_STATUS"
  timeout := keysOr call.timeoutKeys call.service "TIMEOUT"

end BuildCall

def buildHeaders (accept : String) (authorization : Option String)
    (extra : Option (Dict String String)) : Dict String String :=
  let headers := Dict.empty.set "Accept" accept
  let headers := match authorization with
    | none | some "" => headers
    | some authorization => headers.set "Authorization" authorization
  match extra with
  | none => headers
  | some extra => headers.update extra

namespace Process

variable (process : Process)

def requiredFloat (names : List String) : Except ConfigurationError Number := do
  let raw ← process.environ.firstRequired names
  match floatOfString raw with
  | some x => return x
  | none => throw (.notANumber (names.headD "") raw)

/-- The registry URL when there is one, else the required variable. -/
def baseUrl (call : BuildCall) : Except ConfigurationError String :=
  let discovered := match call.registryName with
    | none | some "" => none
    | some name => process.registry name
  match discovered with
  | none | some "" => process.environ.firstRequired call.keys.url
  | some url => .ok url

def accept (keys : Keys) : String := (process.environ.first keys.accept).getD "application/json"

/-- The credential, when one is asked for. -/
def credential (authorization : Bool) (keys : Keys) : Except ConfigurationError (Option String) :=
  if authorization then (process.environ.serviceAuthorization keys.auth).map some else .ok none

def constructClient (call : BuildCall) (baseUrl : String) :
    Except ConfigurationError ClientConfig := do
  let verifySsl := parseBool (process.environ.first call.keys.verifySsl)
  let raiseOnUnexpectedStatus := parseBool (process.environ.first call.keys.raiseStatus)
  let timeoutSeconds ← process.requiredFloat call.keys.timeout
  let auth ← process.credential call.authorization call.keys
  let headers := buildHeaders (process.accept call.keys) auth call.extraHeaders
  let policy ← process.initPolicy call.retries
  return {
    baseUrl, headers, verifySsl, raiseOnUnexpectedStatus
    timeout := { seconds := timeoutSeconds, pool := call.poolTimeout }
    transport := { policy, limits := call.limits, verify := verifySsl } }

end Process

structure CacheKey where
  clientCls : String
  service : String
  authorization : Bool
  keys : Keys
  baseUrl : String
  deriving DecidableEq

namespace Process

variable (process : Process)

/-- `cache_key`. The base URL is resolved first. -/
def cacheKey (call : BuildCall) : Except ConfigurationError CacheKey := do
  let baseUrl ← process.baseUrl call
  return {
    clientCls := call.clientCls, service := upper call.service
    authorization := call.authorization, keys := call.keys, baseUrl }

/-- `build_client(..., cache=False)`: the configuration of a client of its own. -/
def buildClientUncached (call : BuildCall) : Except ConfigurationError ClientConfig := do
  let baseUrl ← process.baseUrl call
  process.constructClient call baseUrl

/-- `build_client(..., cache=True)` against the process-wide cache: a client is
an object with its configuration. -/
def buildClient (cache : Memo CacheKey ClientConfig) (call : BuildCall) :
    Except ConfigurationError (ℕ × ClientConfig) × Memo CacheKey ClientConfig :=
  cache.call process.cacheKey process.buildClientUncached call

/-- A sequence of cached calls. -/
def buildClientsFrom (cache : Memo CacheKey ClientConfig) :
    List BuildCall → List (Except ConfigurationError (ℕ × ClientConfig))
  | [] => []
  | call :: rest =>
      let (client, cache) := process.buildClient cache call
      client :: buildClientsFrom cache rest

/-- A sequence of cached calls, from the empty cache. -/
def buildClients (calls : List BuildCall) : List (Except ConfigurationError (ℕ × ClientConfig)) :=
  process.buildClientsFrom {} calls

end Process

end NetixBackend.Http
