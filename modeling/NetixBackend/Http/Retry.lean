import NetixBackend.Env

/-!
The shared retry policy of the HTTP transports.

A send has an outcome: a response, an exception of the retryable classes, or
another exception. The loops send, decide by the outcome and the budget
whether to try again, and if so release the response, sleep and go round.
The sync and the async loop are written twice in the source and differ in the
sleep alone, which is what `retryLoop` takes; a run is its trace of sends,
closes and sleeps, and how it ended.

Arithmetic on delays is exact. What is kept of the floating point is what can
make a delay unusable: NaN and the infinities, the factor `2 ** attempt` that
stops converting to a float at attempt 1024, and the longest sleep the
platform takes.
-/

namespace NetixBackend.Http

open Python

/-! ### Methods, statuses and delays -/

/-- `c.upper()`, for the characters whose upper case is an ASCII letter. -/
def upperChar (c : Char) : Char :=
  if c = 'ſ' then 'S' else if c = 'ı' then 'I' else c.toUpper

def isIdempotentMethod (method : String) : Bool :=
  String.ofList (method.toList.map upperChar) ∈ ["GET", "HEAD", "OPTIONS"]

def isRetryableStatus (statusCode : ℤ) : Bool :=
  statusCode = 408 ∨ statusCode = 429 ∨ 500 ≤ statusCode

/-- Status retries are gated on idempotent methods unless the caller opts in. -/
def shouldRetryStatus (method : String) (statusCode : ℤ) (retryNonIdempotent : Bool) : Bool :=
  isRetryableStatus statusCode && (retryNonIdempotent || isIdempotentMethod method)

/-- What the process around a run answers, by attempt: the draws of
`random.random()`, the wall clock, and what `parsedate_to_datetime(value)` and
its `timestamp()` make of a header, `none` when one of them raises. -/
structure Surroundings where
  draw : ℕ → ℚ
  now : ℕ → ℚ
  dateTimestamp : String → Option ℚ

/-- Equal-jitter exponential backoff, `cap/2 + U(0, cap/2)`; `none` when
`2 ** attempt` has no float. -/
def jitteredBackoff (backoffFactor : Number) (attempt : ℕ) (draw : ℚ) : Option Number :=
  if 1024 ≤ attempt then none
  else match backoffFactor with
    | .finite b =>
        let cap := b * 2 ^ attempt
        some (.finite (cap / 2 + draw * (cap / 2)))
    -- an infinite cap times a draw of zero is NaN
    | .inf => some (if draw = 0 then .nan else .inf)
    | .negInf => some (if draw = 0 then .nan else .negInf)
    | .nan => some .nan

/-- A response, as far as the loops look at it. -/
structure Response where
  statusCode : ℤ
  /-- `headers.get("Retry-After")`. -/
  retryAfter : Option String := none

/-- `min(max(delay, 0.0), max_retry_after)`. -/
def clampDelay (delay maxRetryAfter : Number) : Number :=
  Number.min (Number.max delay (.finite 0)) maxRetryAfter

/-- Parse `Retry-After` in either the seconds or the HTTP-date form, clamped to
`max_retry_after`. -/
def parseRetryAfterSeconds (surroundings : Surroundings) (attempt : ℕ) (response : Response)
    (maxRetryAfter : Number) : Option Number :=
  match response.retryAfter with
  | none | some "" => none
  | some value =>
      match floatOfString value with
      | some seconds => some (clampDelay seconds maxRetryAfter)
      | none =>
          match surroundings.dateTimestamp value with
          | none => none
          | some timestamp =>
              some (clampDelay (.finite (timestamp - surroundings.now attempt)) maxRetryAfter)

/-! ### The policy -/

structure RetryPolicy where
  retries : ℤ
  backoffFactor : Number
  retryNonIdempotent : Bool := false
  maxRetryAfter : Number := .finite 30
  deriving DecidableEq

/-- What the defaults are read from: the environment, and the settings bound by
`bind_django_settings`, already through `int()` and `float()`. -/
structure RetrySettings where
  environ : Environ
  boundRetries : ℤ := 2
  boundBackoff : Number := .finite (1 / 2)

/-- Retry count from `NETIX_HTTP_RETRIES`, then any bound setting, else 2. -/
def RetrySettings.defaultRetries (settings : RetrySettings) : Except ConfigurationError ℤ :=
  settings.environ.int "NETIX_HTTP_RETRIES" settings.boundRetries

/-- Backoff factor from `NETIX_HTTP_RETRY_BACKOFF`, then any bound setting, else
0.5. -/
def RetrySettings.defaultBackoff (settings : RetrySettings) : Except ConfigurationError Number :=
  settings.environ.float "NETIX_HTTP_RETRY_BACKOFF" settings.boundBackoff

/-- The retries asked for, or the default; zero is not absent. -/
def RetrySettings.effectiveRetries (settings : RetrySettings) (retries : Option ℤ) :
    Except ConfigurationError ℤ :=
  match retries with
  | none => settings.defaultRetries
  | some retries => .ok retries

/-- `_init_policy`, with the other arguments of the transports at their
defaults. -/
def RetrySettings.initPolicy (settings : RetrySettings) (retries : Option ℤ) :
    Except ConfigurationError RetryPolicy := do
  let retries ← settings.effectiveRetries retries
  let backoffFactor ← settings.defaultBackoff
  return { retries, backoffFactor }

inductive SendOutcome
  | response (response : Response)
  /-- An exception of `RETRYABLE_EXC`. -/
  | retryableExc (name : String)
  | otherExc (name : String)

namespace RetryPolicy

variable (policy : RetryPolicy) (surroundings : Surroundings) (method : String)

def shouldRetry (response : Response) : Bool :=
  shouldRetryStatus method response.statusCode policy.retryNonIdempotent

def statusDelay (response : Response) (attempt : ℕ) : Option Number :=
  match parseRetryAfterSeconds surroundings attempt response policy.maxRetryAfter with
  | some retryAfter => some retryAfter
  | none => jitteredBackoff policy.backoffFactor attempt (surroundings.draw attempt)

/-- `time.sleep(delay)` returns: a number of seconds that is not negative and
whose nanoseconds fit a signed 64-bit integer. -/
def timeSleeps : Number → Bool
  | .finite q => 0 ≤ q ∧ q * 10 ^ 9 < 2 ^ 63
  | _ => false

/-- `asyncio.sleep(delay)` returns: a delay of zero or less is over at once, NaN
raises and an infinite delay never ends. -/
def asyncioSleeps : Number → Bool
  | .finite _ | .negInf => true
  | .inf | .nan => false

/-- What a run does, in order. Sends and closes carry the attempt. -/
inductive Event
  | sent (attempt : ℕ)
  | closed (attempt : ℕ)
  | slept (delay : Number)

inductive Ending
  | returned (attempt : ℕ) (response : Response)
  | raised (attempt : ℕ) (name : String)
  /-- The sleep after that attempt does not return. -/
  | sleepFailed (attempt : ℕ) (delay : Number)
  /-- The delay after that attempt cannot be computed. -/
  | delayFailed (attempt : ℕ)

structure Run where
  trace : List Event
  ending : Ending

def Run.after (events : List Event) (run : Run) : Run :=
  { run with trace := events ++ run.trace }

/-- The loop of `_send_with_retries`, from an attempt on. -/
def retryLoop (sleeps : Number → Bool) (send : ℕ → SendOutcome) (attempt : ℕ) : Run :=
  match send attempt with
  | .otherExc name => ⟨[.sent attempt], .raised attempt name⟩
  | .retryableExc name =>
      if _h : policy.retries ≤ attempt then ⟨[.sent attempt], .raised attempt name⟩
      else match jitteredBackoff policy.backoffFactor attempt (surroundings.draw attempt) with
        | none => ⟨[.sent attempt], .delayFailed attempt⟩
        | some delay =>
            if sleeps delay then
              (retryLoop sleeps send (attempt + 1)).after [.sent attempt, .slept delay]
            else ⟨[.sent attempt], .sleepFailed attempt delay⟩
  | .response response =>
      if policy.shouldRetry method response = false then
        ⟨[.sent attempt], .returned attempt response⟩
      else if _h : policy.retries ≤ attempt then ⟨[.sent attempt], .returned attempt response⟩
      else match policy.statusDelay surroundings response attempt with
        | none => ⟨[.sent attempt], .delayFailed attempt⟩
        | some delay =>
            -- Retry-After is already read, so the connection is released before the sleep
            if sleeps delay then
              (retryLoop sleeps send (attempt + 1)).after
                [.sent attempt, .closed attempt, .slept delay]
            else ⟨[.sent attempt, .closed attempt], .sleepFailed attempt delay⟩
termination_by (policy.retries - attempt).toNat

def sendWithRetries (send : ℕ → SendOutcome) : Run :=
  retryLoop policy surroundings method timeSleeps send 0

def asendWithRetries (send : ℕ → SendOutcome) : Run :=
  retryLoop policy surroundings method asyncioSleeps send 0

end RetryPolicy

end NetixBackend.Http
