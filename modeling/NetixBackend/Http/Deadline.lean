import NetixBackend.Http.RetryLoops

/-!
`request_with_retry`: the one-shot request, with and without a deadline.

Without a deadline the request goes through a retrying transport, whose loop
is `RetryPolicy.sendWithRetries`. With one it goes through a loop of its own,
which reads the clock before each attempt and before each sleep, hands every
attempt a timeout cut down to what is left, and keeps the last response and
the last exception apart to choose between them at the end.

The clock is a parameter: what it reads after an attempt and after a sleep is
any function of what it read before, but for a sleep, which takes its delay at
least. The method reaches the transport in upper case, which makes no
difference to the idempotency test; the body of a response is read by the
client after the transport has returned it, and the reading is taken to
succeed.
-/

namespace NetixBackend.Http

open Python

/-! ### Timeouts -/

/-- An `httpx.Timeout`; a part that is not set is `None`. -/
structure PhaseTimeouts where
  connect : Option ℚ
  read : Option ℚ
  write : Option ℚ
  pool : Option ℚ

/-- What a caller passes as `timeout`. -/
inductive TimeoutArg
  | seconds (seconds : ℚ)
  | phases (timeouts : PhaseTimeouts)

def TimeoutArg.base : TimeoutArg → PhaseTimeouts
  | .seconds s => ⟨some s, some s, some s, some s⟩
  | .phases timeouts => timeouts

/-- The timeout of one attempt: every part is set. -/
structure PhaseLimits where
  connect : ℚ
  read : ℚ
  write : ℚ
  pool : ℚ

def cap (value : Option ℚ) (remaining : ℚ) : ℚ :=
  match value with
  | none => remaining
  | some value => min value remaining

/-- Per-attempt timeout: each part is cut down to the remaining budget. -/
def attemptTimeout (timeout : TimeoutArg) (remaining : ℚ) : PhaseLimits where
  connect := cap timeout.base.connect remaining
  read := cap timeout.base.read remaining
  write := cap timeout.base.write remaining
  pool := cap timeout.base.pool remaining

/-! ### The loop under a deadline -/

/-- What `time.monotonic()` reads once the client is open, after an attempt and
after a sleep, given what it read before. -/
structure Clock where
  opened : ℚ → ℚ
  attempted : ℕ → ℚ → PhaseLimits → ℚ
  slept : ℕ → ℚ → ℚ → ℚ
  slept_ge : ∀ attempt now delay, now + delay ≤ slept attempt now delay

/-- The seconds `time.sleep(delay)` sleeps; `none` when it raises. -/
def sleepSeconds (delay : Number) : Option ℚ :=
  match delay with
  | .finite q => if RetryPolicy.timeSleeps delay then some q else none
  | _ => none

/-- The arguments of `_request_within_deadline` that its loop uses. -/
structure DeadlineCall where
  policy : RetryPolicy
  method : String
  timeout : TimeoutArg
  deadline : ℚ
  /-- What the clock reads when the function is entered. -/
  called : ℚ := 0

/-- `last_response` and `last_exc`, with the attempts they come from. -/
structure Kept where
  lastResponse : Option (ℕ × Response) := none
  lastExc : Option (ℕ × String) := none

inductive CallEnding
  | attempt (ending : RetryPolicy.Ending)
  /-- "... exceeded its ...s deadline before any attempt completed", as an
  `httpx.TimeoutException`. -/
  | exceeded

/-- The end of the function after its loop. -/
def Kept.ending (kept : Kept) : CallEnding :=
  match kept.lastResponse, kept.lastExc with
  | some (attempt, response), _ => .attempt (.returned attempt response)
  | none, some (attempt, name) => .attempt (.raised attempt name)
  | none, none => .exceeded

inductive DeadlineEvent
  | read (clock : ℚ)
  | sent (attempt : ℕ) (clock : ℚ) (limits : PhaseLimits)
  | slept (clock : ℚ) (delay : ℚ)

structure DeadlineRun where
  trace : List DeadlineEvent
  ending : CallEnding
  /-- What the clock reads in the end. -/
  finish : ℚ

def DeadlineRun.after (events : List DeadlineEvent) (run : DeadlineRun) : DeadlineRun :=
  { run with trace := events ++ run.trace }

namespace DeadlineCall

variable (call : DeadlineCall) (clock : Clock) (surroundings : Surroundings)
  (send : ℕ → SendOutcome)

/-- `end`. -/
def finishBy : ℚ := call.called + call.deadline

/-- An outcome ends the function, or is remembered. -/
def receive (kept : Kept) (attempt : ℕ) : SendOutcome → CallEnding ⊕ Kept
  | .otherExc name => .inl (.attempt (.raised attempt name))
  | .retryableExc name => .inr { kept with lastExc := some (attempt, name) }
  | .response response =>
      if call.policy.shouldRetry call.method response then
        .inr { kept with lastResponse := some (attempt, response) }
      else .inl (.attempt (.returned attempt response))

/-- The `for` loop, from an attempt on, with the clock at `now`. -/
def loop (kept : Kept) (attempt : ℕ) (now : ℚ) : DeadlineRun :=
  if call.policy.retries < attempt then ⟨[], kept.ending, now⟩
  else
    let remaining := call.finishBy - now
    if remaining ≤ 0 then ⟨[.read now], kept.ending, now⟩
    else
      let limits := attemptTimeout call.timeout remaining
      let now' := clock.attempted attempt now limits
      match call.receive kept attempt (send attempt) with
      | .inl ending => ⟨[.read now, .sent attempt now limits], ending, now'⟩
      | .inr kept =>
          if _h : call.policy.retries ≤ attempt then
            ⟨[.read now, .sent attempt now limits], kept.ending, now'⟩
          else
            let budget := call.finishBy - now'
            if budget ≤ 0 then
              ⟨[.read now, .sent attempt now limits, .read now'], kept.ending, now'⟩
            else
              match jitteredBackoff call.policy.backoffFactor attempt (surroundings.draw attempt) with
              | none =>
                  ⟨[.read now, .sent attempt now limits, .read now'],
                    .attempt (.delayFailed attempt), now'⟩
              | some jitter =>
                  match sleepSeconds (jitter.min (.finite budget)) with
                  | none =>
                      ⟨[.read now, .sent attempt now limits, .read now'],
                        .attempt (.sleepFailed attempt (jitter.min (.finite budget))), now'⟩
                  | some delay =>
                      (loop kept (attempt + 1) (clock.slept attempt now' delay)).after
                        [.read now, .sent attempt now limits, .read now', .slept now' delay]
termination_by (call.policy.retries - attempt).toNat

/-- `_request_within_deadline`. -/
def requestWithinDeadline : DeadlineRun :=
  call.loop clock surroundings send {} 0 (clock.opened call.called)

end DeadlineCall

/-! ### `request_with_retry` -/

/-- The arguments of `request_with_retry`, a transport being injected. -/
structure RequestCall where
  method : String
  timeout : TimeoutArg
  retries : Option ℤ := none
  backoffFactor : Option Number := none
  retryNonIdempotent : Bool := false
  deadline : Option ℚ := none

def RequestCall.policy (call : RequestCall) (settings : RetrySettings) :
    Except ConfigurationError RetryPolicy := do
  let retries ← settings.effectiveRetries call.retries
  let backoffFactor ← match call.backoffFactor with
    | none => settings.defaultBackoff
    | some backoffFactor => .ok backoffFactor
  return { retries, backoffFactor, retryNonIdempotent := call.retryNonIdempotent }

/-- What is handed to `_request_within_deadline`. -/
def RequestCall.within (call : RequestCall) (policy : RetryPolicy) (deadline called : ℚ) :
    DeadlineCall where
  policy := policy
  method := call.method
  timeout := call.timeout
  deadline := deadline
  called := called

/-- What the caller of a request sees, and how often it was sent. -/
structure CallResult where
  attempts : ℕ
  ending : CallEnding

def RetryPolicy.Event.isSent : RetryPolicy.Event → Bool
  | .sent _ => true
  | _ => false

def DeadlineEvent.isSent : DeadlineEvent → Bool
  | .sent _ _ _ => true
  | _ => false

def RetryPolicy.Run.result (run : RetryPolicy.Run) : CallResult :=
  ⟨run.trace.countP RetryPolicy.Event.isSent, .attempt run.ending⟩

def DeadlineRun.result (run : DeadlineRun) : CallResult :=
  ⟨run.trace.countP DeadlineEvent.isSent, run.ending⟩

/-- `request_with_retry`, entered when the clock reads `called`. -/
def requestWithRetry (settings : RetrySettings) (clock : Clock) (surroundings : Surroundings)
    (send : ℕ → SendOutcome) (called : ℚ) (call : RequestCall) :
    Except ConfigurationError CallResult := do
  let policy ← call.policy settings
  match call.deadline with
  | some deadline =>
      let call := call.within policy deadline called
      return (call.requestWithinDeadline clock surroundings send).result
  -- an injected transport is wrapped in the retry policy, never used bare
  | none => return (policy.sendWithRetries surroundings call.method send).result

end NetixBackend.Http
