import NetixBackend.Http.Clients

/-!
The static-service helpers: upload, the upload that only wants the link, and
the two downloads.

Upload and download are the same loop around different judgments of a
response: accepted, refused for good, or to be tried again. The loop turns the
transport's transient exceptions into the error type its callers are told to
catch (`attempted`) and lets every other exception through; so does the code
that reads the body of an accepted upload. What escapes is a `Raised`, with
`StaticServiceError` one of its kinds.

A response comes with what httpx makes of its body: the bytes, the text and
the parsed JSON, `none` where `response.json()` raises.
-/

namespace NetixBackend.Http

open Python

structure ServiceResponse where
  statusCode : ℤ
  content : List UInt8 := []
  text : String := ""
  json : Option JsonValue := none

inductive ServiceOutcome
  | response (response : ServiceResponse)
  /-- An exception of `RETRYABLE_EXC`. -/
  | retryableExc (name : String)
  | otherExc (name : String)

/-- `StaticServiceError` by its messages; `expired` is its subclass
`StaticFileExpired`. -/
inductive StaticServiceError
  /-- "static-service {what} could not reach the service: {exc!r}" -/
  | unreachable (what : String) (exc : String)
  /-- "static-service upload response carries no 'link': {payload!r}" -/
  | noLink (payload : Dict String JsonValue)
  /-- "static-service {what} failed: status={status} body={text[:200]!r}" -/
  | failed (what : String) (status : ℤ) (text : String)
  /-- "static-service {what} returned {status} (attempt {attempt}/{attempts})" -/
  | returned (what : String) (status : ℤ) (attempt attempts : ℤ)
  /-- "static-service {what} made no attempts; retries must be >= 0" -/
  | noAttempts (what : String)
  /-- "static-service file not found at {link!r} (likely past retention)" -/
  | expired (link : String)

/-- What a helper can raise. -/
inductive StaticRaised
  | service (error : StaticServiceError)
  | configuration (error : ConfigurationError)
  | httpx (name : String)
  /-- The `ValueError` of `response.json()`. -/
  | jsonDecodeError
  | attributeError
  /-- The sleep after that attempt does not return. -/
  | sleepFailed (attempt : ℕ) (delay : Number)
  /-- The delay after that attempt cannot be computed. -/
  | delayFailed (attempt : ℕ)

/-! ### The client -/

structure StaticClient where
  baseUrl : String
  authorization : String
  timeout : Number

/-- The arguments the helpers share. -/
structure StaticCall where
  timeout : Option Number := none
  retries : Option ℤ := none
  /-- Whether the caller hands in a client, or a transport for one. -/
  hasClient : Bool := false
  hasTransport : Bool := false

namespace Process

variable (process : Process)

def buildStaticClient (call : StaticCall) : Except ConfigurationError StaticClient := do
  let seconds ← match call.timeout with
    | none => process.environ.float "STATIC_SVC_TIMEOUT" (.finite 30)
    | some timeout => .ok timeout
  -- the helpers own the retry loop: the transport under it makes one attempt
  let _ ← if call.hasTransport then .ok none else (process.initPolicy (some 0)).map some
  let baseUrl ← match process.registry "static-service" with
    | none | some "" => process.environ.firstRequired ["STATIC_SVC_URL"]
    | some url => .ok url
  let authorization ← process.environ.serviceAuthorization ["STATIC_SVC_AUTH"]
  return { baseUrl, authorization, timeout := seconds }

/-- `_client_context`: a client that is handed in is used as it is. -/
def clientContext (call : StaticCall) : Except ConfigurationError (Option StaticClient) :=
  if call.hasClient then .ok none else (process.buildStaticClient call).map some

def attempts (call : StaticCall) : Except ConfigurationError ℤ :=
  (process.effectiveRetries call.retries).map (· + 1)

/-- What is read before the first attempt: the attempts, the backoff factor and
the client. -/
def openStatic (call : StaticCall) : Except ConfigurationError (ℤ × Number) := do
  let attempts ← process.attempts call
  let backoff ← process.defaultBackoff
  let _ ← process.clientContext call
  return (attempts, backoff)

end Process

/-! ### The loop -/

/-- `_attempt`: a transient failure becomes the error callers are told to
catch. -/
def attempted (what : String) :
    ServiceOutcome → Except StaticRaised (Option ServiceResponse × Option StaticServiceError)
  | .response response => .ok (some response, none)
  | .retryableExc name => .ok (none, some (.unreachable what name))
  | .otherExc name => .error (.httpx name)

/-- The loop of `static_upload` and of `_fetch`, from an attempt on. `judge` is
what its body makes of a response; `none` is to try again. -/
def staticLoop {α : Type} (what : String) (judge : ServiceResponse → Option (Except StaticRaised α))
    (attempts : ℤ) (backoff : Number) (surroundings : Surroundings)
    (service : ℕ → ServiceOutcome) (attempt : ℕ) (lastError : Option StaticServiceError) :
    Except StaticRaised α :=
  if _h : attempts ≤ attempt then .error (.service (lastError.getD (.noAttempts what)))
  else
    match attempted what (service attempt) with
    | .error error => .error error
    | .ok (response, error) =>
        match response.bind judge with
        | some verdict => verdict
        | none =>
            let lastError := match response with
              | some response => some (.returned what response.statusCode (attempt + 1) attempts)
              | none => error
            if attempt + 1 < attempts then
              match jitteredBackoff backoff attempt (surroundings.draw attempt) with
              | none => .error (.delayFailed attempt)
              | some delay =>
                  if RetryPolicy.timeSleeps delay then
                    staticLoop what judge attempts backoff surroundings service (attempt + 1)
                      lastError
                  else .error (.sleepFailed attempt delay)
            else
              staticLoop what judge attempts backoff surroundings service (attempt + 1) lastError
termination_by (attempts - attempt).toNat

/-- A status that is neither accepted nor to be tried again. -/
def refused {α : Type} (what : String) (response : ServiceResponse) :
    Option (Except StaticRaised α) :=
  if isRetryableStatus response.statusCode then none
  else
    some (.error (.service (.failed what response.statusCode
      (String.ofList (response.text.toList.take 200)))))

/-! ### The helpers -/

/-- `payload.setdefault(key, value)`. -/
def setDefault (payload : Dict String JsonValue) (key : String) (value : JsonValue) :
    Dict String JsonValue :=
  if payload.contains key then payload else payload.set key value

/-- `_upload_payload`: nothing but a dict has a `get`. -/
def uploadPayload (response : ServiceResponse) :
    Except StaticRaised (Dict String JsonValue) :=
  match response.json with
  | none => .error .jsonDecodeError
  | some (.obj entries) =>
      let payload := Dict.ofPairs entries
      match payload.get? "link" with
      | none => .error (.service (.noLink payload))
      | some link =>
          if link.truthy then .ok (setDefault payload "file" link)
          else .error (.service (.noLink payload))
  | some _ => .error .attributeError

/-- 200 is the hit for identical content, 201 a fresh object. -/
def judgeUpload (response : ServiceResponse) :
    Option (Except StaticRaised (Dict String JsonValue)) :=
  if response.statusCode = 200 ∨ response.statusCode = 201 then some (uploadPayload response)
  else refused "upload" response

def judgeDownload (link : String) (response : ServiceResponse) :
    Option (Except StaticRaised ServiceResponse) :=
  if response.statusCode = 200 then some (.ok response)
  else if response.statusCode = 404 then some (.error (.service (.expired link)))
  else refused "download" response

namespace Process

variable (process : Process) (surroundings : Surroundings) (service : ℕ → ServiceOutcome)
  (call : StaticCall)

def staticUpload : Except StaticRaised (Dict String JsonValue) := do
  let (attempts, backoff) ← (process.openStatic call).mapError .configuration
  staticLoop "upload" judgeUpload attempts backoff surroundings service 0 none

/-- `link_or_empty`, given `str()`. -/
def linkOrEmpty (str : JsonValue → String) : Except StaticRaised String :=
  match process.staticUpload surroundings service call with
  | .ok payload => .ok (str ((payload.get? "link").getD .null))
  | .error (.service _) => .ok ""
  | .error error => .error error

def fetch (link : String) : Except StaticRaised ServiceResponse := do
  let (attempts, backoff) ← (process.openStatic call).mapError .configuration
  staticLoop "download" (judgeDownload link) attempts backoff surroundings service 0 none

def staticFetch (link : String) : Except StaticRaised (List UInt8) :=
  (process.fetch surroundings service call link).map ServiceResponse.content

def staticFetchText (link : String) : Except StaticRaised String :=
  (process.fetch surroundings service call link).map ServiceResponse.text

end Process

end NetixBackend.Http
