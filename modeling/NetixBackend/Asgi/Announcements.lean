import NetixBackend.Asgi.Registration
import NetixBackend.Env
import NetixBackend.Transition.Refinement

/-!
What the registration threads send, and the latch they run under.

The threads of `Registration` are counted by their attempts and enabled
throughout. Here a thread has its delays, reads the environment wherever the
code does, and the environment may change under it, between two reads and within
one: the variables are read one by one, and nothing holds a lock meanwhile. A
thread may then end early, or skip the ladder and start its heartbeat all the
same, or read a configuration that no environment has had as a whole.

As long as the environment stays complete a thread does neither of the first,
and every run is, through `Service.latch`, a run of the latch: what is proved of
the latch holds of these threads. What they send is complete whatever the
environment does, and a ladder sends what it read when it began.
-/

namespace NetixBackend.Registration

open Transition Python

/-! ### The configuration -/

def enabledEnv : String := "SERVICE_REGISTRATION_ENABLED"
def urlEnv : String := "UPDATE_SERVICE_REGISTRATION_URL"
def tokenEnv : String := "SERVICE_REGISTRATION_TOKEN"
def tokenHeader : String := "X-Service-Registration-Token"
def heartbeatEnv : String := "SERVICE_REGISTRATION_HEARTBEAT_SECONDS"
def heartbeatSeconds : Number := .finite 60

/-- `REGISTRATION_FIELDS` -/
def registrationFields : List (String × String) :=
  [("name", "SERVICE_NAME"), ("display_name", "SERVICE_DISPLAY_NAME"),
    ("description", "SERVICE_DESCRIPTION"), ("version", "APP_VERSION"),
    ("environment", "SERVICE_REGISTRATION_ENVIRONMENT"), ("base_url", "SERVICE_PUBLIC_BASE_URL"),
    ("internal_base_url", "SERVICE_INTERNAL_BASE_URL")]

structure Configuration where
  url : String
  token : String
  payload : List (String × String)
  deriving DecidableEq

def registrationEnabled (environ : Environ) : Bool := parseBool (environ.lookup enabledEnv)

/-- `env_str(name, "")` -/
def valueOf (environ : Environ) (name : String) : String := (environ.lookup name).getD ""

/-- The variables that must not be empty. -/
def requiredEnvs : List String := registrationFields.map Prod.snd ++ [urlEnv, tokenEnv]

/-- The variables that the error log names. -/
def missing (environ : Environ) : List String :=
  requiredEnvs.filter fun name => valueOf environ name = ""

def registrationPayload (environ : Environ) : Option Configuration :=
  if registrationEnabled environ then
    if missing environ = [] then
      some
        { url := valueOf environ urlEnv
          token := valueOf environ tokenEnv
          payload := registrationFields.map fun field => (field.1, valueOf environ field.2) }
    else none
  else none

/-- The request of `_put`. -/
structure Put where
  method : String
  fullUrl : String
  headers : List (String × String)
  payload : List (String × String)

def Configuration.put (configuration : Configuration) : Put where
  method := "PUT"
  fullUrl := configuration.url
  headers := [("Content-Type", "application/json"), (tokenHeader, configuration.token)]
  payload := configuration.payload

/-- How a `_put` ends: with a response, or in an exception. -/
inductive Outcome
  | response (status : ℕ)
  | raised
  deriving DecidableEq

/-- Any status outside 200 to 299 is an `OSError`. -/
def Outcome.accepted : Outcome → Bool
  | response status => 200 ≤ status && status < 300
  | raised => false

/-! ### The threads -/

/-- Where a registration thread is, or the heartbeat it has started. One that
reads a payload next has the number of the environment since which it may have
begun to. -/
inductive Task
  | created (since : ℕ) (delays : List ℚ)
  /-- Past its own check, at the top of `register()`. -/
  | entering (since : ℕ) (delays : List ℚ)
  | trying (configuration : Configuration) (delays : List ℚ)
  /-- `register()` has returned. -/
  | tried
  /-- In `start_heartbeat()`, past the check of the interval. -/
  | starting (seconds : Number)
  | holding (stop : ℕ) (seconds : Number)
  | waiting (stop : ℕ) (seconds : Number)
  /-- `stop.wait(seconds)` has timed out. -/
  | woken (since stop : ℕ) (seconds : Number)
  | ended

inductive TaskEvent
  | check
  | enter
  | attempt (outcome : Outcome)
  | exhaust
  | interval
  | lookUp
  | startHeartbeat
  | wake
  /-- `stop.wait` cannot wait so long. -/
  | failWait
  | stop
  | beat (outcome : Outcome)
  deriving DecidableEq

def TaskEvent.isAttempt : TaskEvent → Bool
  | attempt _ => true
  | _ => false

structure Sent where
  task : ℕ
  ladder : Bool
  configuration : Configuration

structure Service where
  environ : Environ
  /-- Every environment the process has had, the one in place last. -/
  environs : List Environ
  started : Bool := false
  event : ℕ := 0
  signalled : Finset ℕ := ∅
  resetting : Option Resetting := none
  called : Finset ℕ := ∅
  /-- The threads, each with the stop event in place when its latch was taken. -/
  tasks : List (ℕ × Task) := []
  sent : List Sent := []

/-- `not seconds <= 0` -/
def positive : Number → Bool
  | .finite q => 0 < q
  | .negInf => false
  | .inf | .nan => true

/-- The longest that a lock can be waited for: 2^63 nanoseconds, in whole
microseconds. -/
def timeoutMax : ℚ := 9223372036854775 / 1000000

/-- A time that `stop.wait` takes. It returns at once for what is not above 0,
and neither `nan` nor minus infinity is. -/
def waitable : Number → Bool
  | .finite q => q ≤ timeoutMax
  | .inf => false
  | .negInf | .nan => true

/-- `seconds = env_float(...)`, and what it leads to. -/
def afterInterval (environ : Environ) : Task :=
  match environ.float heartbeatEnv heartbeatSeconds with
  | .error _ => .ended
  | .ok seconds => if positive seconds then .starting seconds else .ended

/-- The number of the environment in place. -/
def Service.now (s : Service) : ℕ := s.environs.length - 1

/-- The environment that a read finds which began at that number or later: each
variable as it was when it was read, whatever the order. -/
def Service.Seen (s : Service) (since : ℕ) (seen : Environ) : Prop :=
  ∀ name, ∃ environ ∈ s.environs.drop since, seen name = environ name

/-- What a thread does next, and what it sends. -/
inductive TaskTurn (s : Service) : Task → TaskEvent → Task → Option Configuration → Prop
  | skip (since : ℕ) (delays : List ℚ) (seen : Environ) (hseen : s.Seen since seen)
      (hnone : registrationPayload seen = none) :
      TaskTurn s (.created since delays) .check .ended none
  | check (since : ℕ) (delays : List ℚ) (seen : Environ) (hseen : s.Seen since seen)
      (configuration : Configuration) (hsome : registrationPayload seen = some configuration) :
      TaskTurn s (.created since delays) .check (.entering s.now delays) none
  | bail (since : ℕ) (delays : List ℚ) (seen : Environ) (hseen : s.Seen since seen)
      (hnone : registrationPayload seen = none) :
      TaskTurn s (.entering since delays) .enter .tried none
  | enter (since : ℕ) (delays : List ℚ) (seen : Environ) (hseen : s.Seen since seen)
      (configuration : Configuration) (hsome : registrationPayload seen = some configuration) :
      TaskTurn s (.entering since delays) .enter (.trying configuration delays) none
  | accepted (configuration : Configuration) (delay : ℚ) (delays : List ℚ) (outcome : Outcome)
      (haccepted : outcome.accepted = true) :
      TaskTurn s (.trying configuration (delay :: delays)) (.attempt outcome) .tried
        (some configuration)
  | failed (configuration : Configuration) (delay : ℚ) (delays : List ℚ) (outcome : Outcome)
      (hfailed : outcome.accepted = false) :
      TaskTurn s (.trying configuration (delay :: delays)) (.attempt outcome)
        (.trying configuration delays) (some configuration)
  | exhaust (configuration : Configuration) :
      TaskTurn s (.trying configuration []) .exhaust .tried none
  | interval : TaskTurn s .tried .interval (afterInterval s.environ) none
  | lookUp (seconds : Number) :
      TaskTurn s (.starting seconds) .lookUp (.holding s.event seconds) none
  | startHeartbeat (stop : ℕ) (seconds : Number) :
      TaskTurn s (.holding stop seconds) .startHeartbeat (.waiting stop seconds) none
  | wake (stop : ℕ) (seconds : Number) (hwaitable : waitable seconds = true)
      (hunset : stop ∉ s.signalled) :
      TaskTurn s (.waiting stop seconds) .wake (.woken s.now stop seconds) none
  | failWait (stop : ℕ) (seconds : Number) (hwaitable : waitable seconds = false)
      (hunset : stop ∉ s.signalled) :
      TaskTurn s (.waiting stop seconds) .failWait .ended none
  | stop (stop : ℕ) (seconds : Number) (hset : stop ∈ s.signalled) :
      TaskTurn s (.waiting stop seconds) .stop .ended none
  | leave (since stop : ℕ) (seconds : Number) (outcome : Outcome) (seen : Environ)
      (hseen : s.Seen since seen) (hnone : registrationPayload seen = none) :
      TaskTurn s (.woken since stop seconds) (.beat outcome) .ended none
  | beat (since stop : ℕ) (seconds : Number) (outcome : Outcome) (seen : Environ)
      (hseen : s.Seen since seen) (configuration : Configuration)
      (hsome : registrationPayload seen = some configuration) :
      TaskTurn s (.woken since stop seconds) (.beat outcome) (.waiting stop seconds)
        (some configuration)

/-- `trigger_service_registration`, enabled and holding the lock. -/
def Service.trigger (s : Service) (delays : List ℚ) : Service :=
  if s.started then { s with called := insert s.event s.called }
  else
    { s with
      started := true
      called := insert s.event s.called
      tasks := s.tasks ++ [(s.event, .created s.now delays)] }

/-- A thread has taken a turn. -/
def Service.turned (s : Service) (id epoch : ℕ) (event : TaskEvent) (task : Task)
    (sent : Option Configuration) : Service :=
  { s with
    tasks := s.tasks.set id (epoch, task)
    sent := s.sent ++ sent.toList.map fun configuration => ⟨id, event.isAttempt, configuration⟩ }

inductive ServiceEvent
  | setenv (environ : Environ)
  | trigger (delays : List ℚ)
  | task (id : ℕ) (event : TaskEvent)
  | reset
  | signal
  | replace

inductive ServiceStep (s : Service) : ServiceEvent → Service → Prop
  | setenv (environ : Environ) :
      ServiceStep s (.setenv environ)
        { s with environ := environ, environs := s.environs ++ [environ] }
  -- a trigger checks before it waits for the lock, so maybe in an earlier environment
  | disabled (delays : List ℚ) (environ : Environ) (hmem : environ ∈ s.environs)
      (hdisabled : registrationEnabled environ = false) : ServiceStep s (.trigger delays) s
  | trigger (delays : List ℚ) (environ : Environ) (hmem : environ ∈ s.environs)
      (henabled : registrationEnabled environ = true) (hfree : s.resetting = none) :
      ServiceStep s (.trigger delays) (s.trigger delays)
  | task (id : ℕ) (event : TaskEvent) (epoch : ℕ) (task task' : Task) (sent : Option Configuration)
      (hget : s.tasks[id]? = some (epoch, task)) (hturn : TaskTurn s task event task' sent) :
      ServiceStep s (.task id event) (s.turned id epoch event task' sent)
  | reset (hfree : s.resetting = none) :
      ServiceStep s .reset { s with started := false, resetting := some .released }
  | signal (hreset : s.resetting = some .released) :
      ServiceStep s .signal
        { s with signalled := insert s.event s.signalled, resetting := some .signalled }
  | replace (hreset : s.resetting = some .signalled) :
      ServiceStep s .replace { s with event := s.event + 1, resetting := none }

def announcing : System Service ServiceEvent where
  init s := s = { environ := s.environ, environs := [s.environ] }
  step := ServiceStep

/-! ### The latch under the threads -/

/-- What the latch has of a thread: its attempts left and its stop event. -/
def Task.phase : Task → Phase
  | created _ delays => .latched delays.length
  | entering _ delays => .registering delays.length
  | trying _ delays => .registering delays.length
  | tried => .registering 0
  | starting _ => .registering 0
  | holding stop _ => .holding stop
  | waiting stop _ => .beating stop
  | woken _ stop _ => .beating stop
  | ended => .stopped

def Service.latch (s : Service) : Latch where
  started := s.started
  event := s.event
  signalled := s.signalled
  resetting := s.resetting
  called := s.called
  threads := s.tasks.map fun task => ⟨task.1, task.2.phase⟩

/-- The environment is complete, with an interval that can be waited. -/
def Configured (environ : Environ) : Prop :=
  (∃ configuration, registrationPayload environ = some configuration) ∧
    ∃ seconds, environ.float heartbeatEnv heartbeatSeconds = .ok seconds ∧
      positive seconds = true ∧ waitable seconds = true

/-- Every step is taken in a complete environment. -/
def whileConfigured (s : Service) (_ : ServiceEvent) : Prop := Configured s.environ

/-- A thread looks up its stop event before a reset has put a new one in place. -/
def looksUpInTime (s : Service) : ServiceEvent → Prop
  | .task id .lookUp => ∀ task ∈ s.tasks[id]?, task.1 = s.event
  | _ => True

def Task.Waitable : Task → Prop
  | starting seconds => waitable seconds = true
  | holding _ seconds => waitable seconds = true
  | waiting _ seconds => waitable seconds = true
  | woken _ _ seconds => waitable seconds = true
  | _ => True

/-- What a run has behind it whose steps are taken in complete environments. -/
structure Held (s : Service) : Prop where
  waitable : ∀ task ∈ s.tasks, task.2.Waitable
  configured : ∀ environ ∈ s.environs, environ = s.environ ∨ Configured environ

variable {s s' : Service} {task task' : Task} {event : TaskEvent} {sent : Option Configuration}

theorem lookup_congr {environ seen : Environ} {name : String} (h : seen name = environ name) :
    seen.lookup name = environ.lookup name := by
  rw [Environ.lookup, Environ.lookup, h]

/-- There is a payload if registration is enabled and no variable is missing. -/
theorem exists_payload_iff {environ : Environ} :
    (∃ configuration, registrationPayload environ = some configuration) ↔
      registrationEnabled environ = true ∧ ∀ name ∈ requiredEnvs, valueOf environ name ≠ "" := by
  unfold registrationPayload missing
  simp only [List.filter_eq_nil_iff, decide_eq_true_eq]
  split
  · rename_i henabled
    split
    · rename_i hpresent
      exact ⟨fun _ => ⟨henabled, hpresent⟩, fun _ => ⟨_, rfl⟩⟩
    · rename_i hmissing
      exact ⟨fun ⟨_, h⟩ => (nomatch h), fun h => absurd h.2 hmissing⟩
  · rename_i hdisabled
    exact ⟨fun ⟨_, h⟩ => (nomatch h), fun h => absurd h.1 hdisabled⟩

/-- A mix of complete environments is complete. -/
theorem exists_payload_of_seen {since : ℕ} {seen : Environ} (hseen : s.Seen since seen)
    (h : ∀ environ ∈ s.environs, ∃ configuration, registrationPayload environ = some configuration) :
    ∃ configuration, registrationPayload seen = some configuration := by
  have hread : ∀ name, ∃ environ, seen.lookup name = environ.lookup name ∧
      registrationEnabled environ = true ∧ ∀ name ∈ requiredEnvs, valueOf environ name ≠ "" :=
    fun name => by
      obtain ⟨environ, hmem, heq⟩ := hseen name
      exact ⟨environ, lookup_congr heq, exists_payload_iff.mp (h environ (List.mem_of_mem_drop hmem))⟩
  refine exists_payload_iff.mpr ⟨?_, fun name hname => ?_⟩
  · obtain ⟨environ, heq, henabled, -⟩ := hread enabledEnv
    rw [registrationEnabled, heq]
    exact henabled
  · obtain ⟨environ, heq, -, hpresent⟩ := hread name
    rw [valueOf, heq]
    exact hpresent name hname

theorem afterInterval_of_configured {environ : Environ} (h : Configured environ) :
    ∃ seconds, afterInterval environ = .starting seconds ∧ waitable seconds = true := by
  obtain ⟨-, seconds, hread, hpositive, hwaitable⟩ := h
  refine ⟨seconds, ?_, hwaitable⟩
  simp only [afterInterval, hread, hpositive, if_true]

/-- While every environment is complete, a turn is one of the latch's or shows
nothing of itself there. -/
theorem TaskTurn.phase (h : TaskTurn s task event task' sent) (hconfigured : Configured s.environ)
    (hpast : ∀ environ ∈ s.environs, Configured environ) (hwaits : task.Waitable) :
    task'.Waitable ∧
      (task'.phase = task.phase ∨
        ∃ event', Turn s.latch task.phase event' task'.phase ∧ (event' = .lookUp → event = .lookUp)) := by
  have hread : ∀ {since : ℕ} {seen : Environ}, s.Seen since seen →
      registrationPayload seen ≠ none := fun hseen hnone => by
    obtain ⟨configuration, hsome⟩ := exists_payload_of_seen hseen fun environ hmem =>
      (hpast environ hmem).1
    exact nomatch hnone.symm.trans hsome
  cases h with
  | skip since delays seen hseen hnone => exact absurd hnone (hread hseen)
  | check since delays seen hseen configuration hsome =>
      exact ⟨trivial, .inr ⟨.start, .start _, nofun⟩⟩
  | bail since delays seen hseen hnone => exact absurd hnone (hread hseen)
  | enter since delays seen hseen configuration hsome => exact ⟨trivial, .inl rfl⟩
  | accepted configuration delay delays outcome haccepted =>
      exact ⟨trivial, .inr ⟨.attempt true, .accepted _, nofun⟩⟩
  | failed configuration delay delays outcome hfailed =>
      exact ⟨trivial, .inr ⟨.attempt false, .failed _, nofun⟩⟩
  | exhaust configuration => exact ⟨trivial, .inl rfl⟩
  | interval =>
      obtain ⟨seconds, heq, hwaitable⟩ := afterInterval_of_configured hconfigured
      rw [heq]
      exact ⟨hwaitable, .inl rfl⟩
  | lookUp seconds => exact ⟨hwaits, .inr ⟨.lookUp, .lookUp, fun _ => rfl⟩⟩
  | startHeartbeat stop seconds => exact ⟨hwaits, .inr ⟨.startHeartbeat, .startHeartbeat _, nofun⟩⟩
  | wake stop seconds _ hunset => exact ⟨hwaits, .inr ⟨.beat, .beat _ hunset, nofun⟩⟩
  | failWait stop seconds hwaitable hunset =>
      exact absurd (hwaitable.symm.trans hwaits) Bool.noConfusion
  | stop stop seconds hset => exact ⟨trivial, .inr ⟨.stop, .stop _ hset, nofun⟩⟩
  | leave since stop seconds outcome seen hseen hnone => exact absurd hnone (hread hseen)
  | beat since stop seconds outcome seen hseen configuration hsome => exact ⟨hwaits, .inl rfl⟩

theorem latch_turned (id epoch : ℕ) (event : TaskEvent) (task' : Task)
    (sent : Option Configuration) :
    (s.turned id epoch event task' sent).latch =
      { s.latch with threads := s.latch.threads.set id ⟨epoch, task'.phase⟩ } := by
  simp only [Service.latch, Service.turned, List.map_set]

theorem latch_trigger (delays : List ℚ) :
    (s.trigger delays).latch = s.latch.trigger delays.length := by
  unfold Service.trigger Latch.trigger
  change Service.latch (if s.started then _ else _) = if s.started then _ else _
  split
  · rfl
  · simp only [Service.latch, List.map_append, List.map_cons, List.map_nil, Task.phase]

theorem set_of_getElem? {α : Type*} {xs : List α} {i : ℕ} {a : α} (h : xs[i]? = some a) :
    xs.set i a = xs := by
  obtain ⟨hlt, rfl⟩ := List.getElem?_eq_some_iff.mp h
  exact List.set_getElem_self hlt

theorem Held.trigger (h : Held s) (delays : List ℚ) : Held (s.trigger delays) := by
  unfold Service.trigger
  split
  · exact ⟨h.waitable, h.configured⟩
  · refine ⟨fun task htask => ?_, h.configured⟩
    rcases List.mem_append.mp htask with htask | htask
    · exact h.waitable task htask
    · obtain rfl := List.mem_singleton.mp htask
      trivial

theorem Held.turned (h : Held s) {id epoch : ℕ} (hwaits : task'.Waitable) :
    Held (s.turned id epoch event task' sent) := by
  refine ⟨fun other hother => ?_, h.configured⟩
  rcases List.mem_or_eq_of_mem_set hother with hother | rfl
  · exact h.waitable other hother
  · exact hwaits

/-- In a complete environment a step is a step of the latch, or none. -/
theorem latch_step {event : ServiceEvent} (h : ServiceStep s event s')
    (hconfigured : Configured s.environ) (hheld : Held s) :
    Held s' ∧
      (s'.latch = s.latch ∨ ∃ event', Step s.latch event' s'.latch ∧
        (looksUpInTime s event → LooksUpInTime s.latch event')) := by
  have hall : ∀ environ ∈ s.environs, Configured environ := fun environ hmem =>
    (hheld.configured environ hmem).elim (fun heq => heq ▸ hconfigured) id
  cases h with
  | setenv environ =>
      refine ⟨⟨hheld.waitable, fun other hother => ?_⟩, .inl rfl⟩
      rcases List.mem_append.mp hother with hother | hother
      · exact .inr (hall other hother)
      · exact .inl (List.mem_singleton.mp hother)
  | disabled delays environ hmem hdisabled => exact ⟨hheld, .inl rfl⟩
  | trigger delays environ hmem henabled hfree =>
      refine ⟨hheld.trigger delays, .inr ⟨.trigger delays.length, ?_, fun _ => trivial⟩⟩
      rw [latch_trigger]
      exact .trigger _ hfree
  | task id event epoch task task' sent hget hturn =>
      obtain ⟨hwaits, hphase⟩ :=
        hturn.phase hconfigured hall (hheld.waitable _ (List.mem_of_getElem? hget))
      have hthread : s.latch.threads[id]? = some ⟨epoch, task.phase⟩ := by
        simp [Service.latch, hget]
      refine ⟨hheld.turned hwaits, ?_⟩
      rw [latch_turned]
      rcases hphase with hsame | ⟨event', hturn', hlookUp⟩
      · left
        rw [hsame, set_of_getElem? hthread]
      · refine .inr ⟨.thread id event', .thread id event' _ _ hthread hturn', fun htime => ?_⟩
        cases event' with
        | lookUp =>
            obtain rfl := hlookUp rfl
            intro r hr
            obtain rfl := Option.some.inj (hthread.symm.trans hr)
            exact htime (epoch, task) hget
        | _ => trivial
  | reset hfree =>
      exact ⟨⟨hheld.waitable, hheld.configured⟩, .inr ⟨.reset, .reset hfree, fun _ => trivial⟩⟩
  | signal hreset =>
      exact ⟨⟨hheld.waitable, hheld.configured⟩, .inr ⟨.signal, .signal hreset, fun _ => trivial⟩⟩
  | replace hreset =>
      exact ⟨⟨hheld.waitable, hheld.configured⟩, .inr ⟨.replace, .replace hreset, fun _ => trivial⟩⟩

/-- Under any condition that has the environment complete and makes the latch
meet its own, the threads refine the latch. -/
theorem refines_registration {guard : Service → ServiceEvent → Prop} {guard' : Latch → Event → Prop}
    (hconfigured : ∀ s event, guard s event → Configured s.environ)
    (htime : ∀ s event event', guard s event →
      (looksUpInTime s event → LooksUpInTime s.latch event') → guard' s.latch event') :
    System.Refines (announcing.restrict guard) (registration.restrict guard')
      Held Service.latch where
  inv :=
    { init := by
        intro s hinit
        rw [show s = { environ := s.environ, environs := [s.environ] } from hinit]
        exact ⟨fun task hmem => absurd hmem List.not_mem_nil, fun environ hmem =>
          .inl (List.mem_singleton.mp hmem)⟩
      step := fun s event s' hheld hstep =>
        (latch_step hstep.2 (hconfigured s event hstep.1) hheld).1 }
  init := by
    intro s hinit
    rw [show s = { environ := s.environ, environs := [s.environ] } from hinit]
    rfl
  step := by
    intro s event s' hheld hstep
    rcases (latch_step hstep.2 (hconfigured s event hstep.1) hheld).2 with hsame | ⟨event', h, hlook⟩
    · exact .inl hsame
    · exact .inr ⟨event', htime s event event' hstep.1 hlook, h⟩

/-- While the environment stays complete the threads run as the latch has it;
if besides each looks up its stop event in time, there is one live heartbeat at
most, however they and the resets take turns. -/
theorem announcing_refines_latch :
    ((announcing.restrict whileConfigured).Reachable s → registration.Reachable s.latch) ∧
      ((announcing.restrict fun s event => whileConfigured s event ∧ looksUpInTime s event).Reachable s →
        SingleHeartbeat s.latch) := by
  constructor
  · intro h
    have hrefines := @refines_registration whileConfigured (fun _ _ => True) (fun _ _ h => h)
      fun _ _ _ _ _ => trivial
    exact (hrefines.reachable h).of_restrict
  · intro h
    have hrefines := @refines_registration
      (fun s event => whileConfigured s event ∧ looksUpInTime s event) LooksUpInTime
      (fun _ _ hguard => hguard.1) fun _ _ _ hguard hlook => hlook hguard.2
    exact singleHeartbeat_of_looksUpInTime (hrefines.reachable h)

/-! ### What is sent -/

/-- Every field is there, and nothing is empty. -/
structure Configuration.Complete (configuration : Configuration) : Prop where
  url : configuration.url ≠ ""
  token : configuration.token ≠ ""
  fields : configuration.payload.map Prod.fst = registrationFields.map Prod.fst
  values : ∀ field ∈ configuration.payload, field.2 ≠ ""

theorem complete_of_payload {environ : Environ} {configuration : Configuration}
    (h : registrationPayload environ = some configuration) : configuration.Complete := by
  obtain ⟨-, hpresent⟩ := exists_payload_iff.mp ⟨configuration, h⟩
  unfold registrationPayload at h
  split at h
  · split at h
    · obtain rfl := Option.some.inj h
      refine ⟨hpresent urlEnv (by decide), hpresent tokenEnv (by decide), ?_, ?_⟩
      · simp only [List.map_map, Function.comp_def]
      · intro field hfield
        obtain ⟨name, hname, rfl⟩ := List.mem_map.mp hfield
        exact hpresent name.2 (List.mem_append_left _ (List.mem_map_of_mem hname))
    · exact nomatch h
  · exact nomatch h

/-- It was read, each variable in one of the environments so far. -/
def Service.Read (s : Service) (configuration : Configuration) : Prop :=
  ∃ seen, (∀ name, ∃ environ ∈ s.environs, seen name = environ name) ∧
    registrationPayload seen = some configuration

theorem read_of_seen {since : ℕ} {seen : Environ} {configuration : Configuration}
    (hseen : s.Seen since seen) (hsome : registrationPayload seen = some configuration) :
    s.Read configuration := by
  refine ⟨seen, fun name => ?_, hsome⟩
  obtain ⟨environ, hmem, heq⟩ := hseen name
  exact ⟨environ, List.mem_of_mem_drop hmem, heq⟩

theorem Service.Read.setenv {configuration : Configuration} (h : s.Read configuration)
    (environ : Environ) :
    Service.Read { s with environ := environ, environs := s.environs ++ [environ] }
      configuration := by
  obtain ⟨seen, hseen, hpayload⟩ := h
  refine ⟨seen, fun name => ?_, hpayload⟩
  obtain ⟨environ', hmem, heq⟩ := hseen name
  exact ⟨environ', List.mem_append_left _ hmem, heq⟩

/-- The configuration that a task's next attempt sends. -/
def Task.configuration? : Task → Option Configuration
  | trying configuration _ => some configuration
  | _ => none

/-- Nothing of the ladder has been sent. -/
def Task.Early : Task → Prop
  | created _ _ => True
  | entering _ _ => True
  | _ => False

structure Announced (s : Service) : Prop where
  trying : ∀ task ∈ s.tasks, ∀ configuration ∈ task.2.configuration?, s.Read configuration
  sent : ∀ x ∈ s.sent, s.Read x.configuration
  known : ∀ x ∈ s.sent, x.task < s.tasks.length
  early : ∀ (id : ℕ), ∀ task ∈ s.tasks[id]?, task.2.Early →
    ∀ x ∈ s.sent, x.ladder = true → x.task ≠ id
  next : ∀ (id : ℕ), ∀ task ∈ s.tasks[id]?, ∀ configuration ∈ task.2.configuration?,
    ∀ x ∈ s.sent, x.ladder = true → x.task = id → x.configuration = configuration
  alike : ∀ x ∈ s.sent, ∀ y ∈ s.sent, x.ladder = true → y.ladder = true → x.task = y.task →
    x.configuration = y.configuration

/-- What a turn sends, and what it will send next. -/
structure TaskTurn.Sends (s : Service) (task : Task) (event : TaskEvent) (task' : Task)
    (sent : Option Configuration) : Prop where
  attempt : ∀ configuration ∈ sent, event.isAttempt = true →
    configuration ∈ task.configuration?
  beat : ∀ configuration ∈ sent, event.isAttempt = false → s.Read configuration
  early : task'.Early → task.Early ∧ event.isAttempt = false
  next : ∀ configuration ∈ task'.configuration?,
    configuration ∈ task.configuration? ∨
      task.Early ∧ event.isAttempt = false ∧ s.Read configuration

theorem afterInterval_configuration? (environ : Environ) :
    (afterInterval environ).configuration? = none ∧ ¬ (afterInterval environ).Early := by
  unfold afterInterval
  split
  · exact ⟨rfl, id⟩
  · split
    · exact ⟨rfl, id⟩
    · exact ⟨rfl, id⟩

theorem TaskTurn.sends (h : TaskTurn s task event task' sent) :
    TaskTurn.Sends s task event task' sent := by
  cases h with
  | skip | exhaust | lookUp | startHeartbeat | wake | failWait | stop | leave | bail =>
      exact ⟨nofun, nofun, nofun, nofun⟩
  | check => exact ⟨nofun, nofun, fun _ => ⟨trivial, rfl⟩, nofun⟩
  | enter since delays seen hseen configuration hsome =>
      refine ⟨nofun, nofun, nofun, ?_⟩
      rintro _ ⟨⟩
      exact .inr ⟨trivial, rfl, read_of_seen hseen hsome⟩
  | accepted configuration delay delays outcome haccepted =>
      exact ⟨fun _ h _ => h, nofun, nofun, nofun⟩
  | failed configuration delay delays outcome hfailed =>
      exact ⟨fun _ h _ => h, nofun, nofun, fun _ h => .inl h⟩
  | interval =>
      obtain ⟨hnone, hearly⟩ := afterInterval_configuration? s.environ
      refine ⟨nofun, nofun, fun h => absurd h hearly, fun configuration h => ?_⟩
      rw [hnone] at h
      exact nomatch h
  | beat since stop seconds outcome seen hseen configuration hsome =>
      refine ⟨nofun, ?_, nofun, nofun⟩
      rintro _ ⟨⟩ _
      exact read_of_seen hseen hsome

theorem mem_sent_turned {id epoch : ℕ} {x : Sent} (h : x ∈ (s.turned id epoch event task' sent).sent) :
    x ∈ s.sent ∨ ∃ configuration ∈ sent, x = ⟨id, event.isAttempt, configuration⟩ := by
  rcases List.mem_append.mp h with hold | hnew
  · exact .inl hold
  · obtain ⟨configuration, hmem, rfl⟩ := List.mem_map.mp hnew
    exact .inr ⟨configuration, Option.mem_toList.mp hmem, rfl⟩

/-- A thread after a turn of one: that one, or another as it was. -/
theorem mem_tasks_turned {id epoch other : ℕ} {t : ℕ × Task}
    (h : t ∈ (s.turned id epoch event task' sent).tasks[other]?) :
    (other = id ∧ t = (epoch, task')) ∨ other ≠ id ∧ t ∈ s.tasks[other]? := by
  change (s.tasks.set id (epoch, task'))[other]? = some t at h
  by_cases hother : other = id
  · subst hother
    rw [List.getElem?_set_self'] at h
    obtain ⟨_, _, rfl⟩ := Option.map_eq_some_iff.mp h
    exact .inl ⟨rfl, rfl⟩
  · rw [List.getElem?_set_ne (Ne.symm hother)] at h
    exact .inr ⟨hother, h⟩

theorem Announced.turned (h : Announced s) {id epoch : ℕ} (hget : s.tasks[id]? = some (epoch, task))
    (hturn : TaskTurn s task event task' sent) :
    Announced (s.turned id epoch event task' sent) := by
  have hsends := hturn.sends
  have hmem := List.mem_of_getElem? hget
  -- what the ladder sends next is what it has sent
  have hnext : ∀ configuration ∈ sent, event.isAttempt = true → ∀ x ∈ s.sent, x.ladder = true →
      x.task = id → x.configuration = configuration := fun configuration hsent hattempt =>
    h.next id _ hget configuration (hsends.attempt configuration hsent hattempt)
  refine ⟨fun t ht configuration hconfiguration => ?_, fun x hx => ?_, fun x hx => ?_,
    fun other t ht hearly x hx hladder => ?_, fun other t ht configuration hconfiguration x hx hladder
      htask => ?_, fun x hx y hy hxl hyl heq => ?_⟩
  · rcases List.mem_or_eq_of_mem_set ht with ht | rfl
    · exact h.trying t ht configuration hconfiguration
    · rcases hsends.next configuration hconfiguration with hold | ⟨-, -, hread⟩
      · exact h.trying _ hmem configuration hold
      · exact hread
  · rcases mem_sent_turned hx with hx | ⟨configuration, hsent, rfl⟩
    · exact h.sent x hx
    · cases hattempt : event.isAttempt with
      | true => exact h.trying _ hmem configuration (hsends.attempt configuration hsent hattempt)
      | false => exact hsends.beat configuration hsent hattempt
  · have hlength : (s.turned id epoch event task' sent).tasks.length = s.tasks.length :=
      List.length_set
    rw [hlength]
    rcases mem_sent_turned hx with hx | ⟨configuration, -, rfl⟩
    · exact h.known x hx
    · exact (List.getElem?_eq_some_iff.mp hget).1
  · rcases mem_tasks_turned ht with ⟨rfl, rfl⟩ | ⟨hother, ht⟩
    · obtain ⟨hwas, hattempt⟩ := hsends.early hearly
      rcases mem_sent_turned hx with hx | ⟨configuration, -, rfl⟩
      · exact h.early other _ hget hwas x hx hladder
      · exact absurd (hladder.symm.trans hattempt) Bool.noConfusion
    · rcases mem_sent_turned hx with hx | ⟨configuration, -, rfl⟩
      · exact h.early other t ht hearly x hx hladder
      · exact Ne.symm hother
  · rcases mem_tasks_turned ht with ⟨rfl, rfl⟩ | ⟨hother, ht⟩
    · rcases hsends.next configuration hconfiguration with hold | ⟨hwas, hattempt, -⟩
      · rcases mem_sent_turned hx with hx | ⟨configuration', hsent, rfl⟩
        · exact h.next other _ hget configuration hold x hx hladder htask
        · exact Option.some.inj ((hsends.attempt configuration' hsent hladder).symm.trans hold)
      · rcases mem_sent_turned hx with hx | ⟨configuration', -, rfl⟩
        · exact absurd htask (h.early other _ hget hwas x hx hladder)
        · exact absurd (hladder.symm.trans hattempt) Bool.noConfusion
    · rcases mem_sent_turned hx with hx | ⟨configuration', -, rfl⟩
      · exact h.next other t ht configuration hconfiguration x hx hladder htask
      · exact absurd htask.symm hother
  · rcases mem_sent_turned hx with hx | ⟨configuration, hsent, rfl⟩
    · rcases mem_sent_turned hy with hy | ⟨configuration', hsent', rfl⟩
      · exact h.alike x hx y hy hxl hyl heq
      · exact hnext configuration' hsent' hyl x hx hxl heq
    · rcases mem_sent_turned hy with hy | ⟨configuration', hsent', rfl⟩
      · exact (hnext configuration hsent hxl y hy hyl heq.symm).symm
      · exact Option.some.inj (hsent.symm.trans hsent')

theorem Announced.trigger (h : Announced s) (delays : List ℚ) : Announced (s.trigger delays) := by
  unfold Service.trigger
  split
  · exact ⟨h.trying, h.sent, h.known, h.early, h.next, h.alike⟩
  have hnew : ∀ {id : ℕ} {t : ℕ × Task},
      (s.tasks ++ [(s.event, Task.created s.now delays)])[id]? = some t →
        s.tasks[id]? = some t ∨ id = s.tasks.length ∧ t = (s.event, .created s.now delays) := by
    intro id t ht
    rw [List.getElem?_append] at ht
    split at ht
    · exact .inl ht
    · obtain ⟨hlt, rfl⟩ := List.getElem?_eq_some_iff.mp ht
      have hid : id - s.tasks.length = 0 := by simpa using hlt
      exact .inr ⟨by omega, by simp [hid]⟩
  refine ⟨fun t ht configuration hconfiguration => ?_, h.sent, fun x hx => ?_,
    fun id t ht hearly x hx hladder => ?_, fun id t ht configuration hconfiguration => ?_, h.alike⟩
  · rcases List.mem_append.mp ht with ht | ht
    · exact h.trying t ht configuration hconfiguration
    · obtain rfl := List.mem_singleton.mp ht
      exact nomatch hconfiguration
  · rw [List.length_append]
    exact Nat.lt_add_right _ (h.known x hx)
  · rcases hnew ht with ht | ⟨rfl, -⟩
    · exact h.early id t ht hearly x hx hladder
    · exact (h.known x hx).ne
  · rcases hnew ht with ht | ⟨-, rfl⟩
    · exact h.next id t ht configuration hconfiguration
    · exact nomatch hconfiguration

theorem announced_inductive : announcing.Inductive Announced where
  init := by
    intro s hinit
    rw [show s = { environ := s.environ, environs := [s.environ] } from hinit]
    refine ⟨?_, ?_, ?_, ?_, ?_, ?_⟩
    · exact fun t ht => absurd ht List.not_mem_nil
    · exact fun x hx => absurd hx List.not_mem_nil
    · exact fun x hx => absurd hx List.not_mem_nil
    · exact fun id t ht => absurd ht (by simp)
    · exact fun id t ht => absurd ht (by simp)
    · exact fun x hx => absurd hx List.not_mem_nil
  step := by
    intro s event s' h hstep
    cases hstep with
    | setenv environ =>
        exact ⟨fun t ht configuration hconfiguration =>
            (h.trying t ht configuration hconfiguration).setenv environ,
          fun x hx => (h.sent x hx).setenv environ, h.known, h.early, h.next, h.alike⟩
    | disabled => exact h
    | trigger delays => exact h.trigger delays
    | task id event epoch task task' sent hget hturn => exact h.turned hget hturn
    | reset | signal | replace =>
        exact ⟨h.trying, h.sent, h.known, h.early, h.next, h.alike⟩

/-- However the environment changes under the threads, and within their reads:
what is sent is complete, each variable as some environment had it, and one
ladder sends one configuration from first to last. -/
theorem sent_complete (h : announcing.Reachable s) :
    (∀ x ∈ s.sent, x.configuration.Complete ∧ s.Read x.configuration) ∧
      ∀ x ∈ s.sent, ∀ y ∈ s.sent, x.ladder = true → y.ladder = true → x.task = y.task →
        x.configuration = y.configuration := by
  have hannounced := announced_inductive.reachable h
  refine ⟨fun x hx => ?_, hannounced.alike⟩
  obtain ⟨seen, hseen, hpayload⟩ := hannounced.sent x hx
  exact ⟨complete_of_payload hpayload, seen, hseen, hpayload⟩

/-! ### update-service is down for one attempt -/

def exampleEnviron : Environ := fun name =>
  if name = enabledEnv then some "TRUE" else if name = heartbeatEnv then some "60" else some "example"

def exampleConfiguration : Configuration where
  url := "example"
  token := "example"
  payload := registrationFields.map fun field => (field.1, "example")

theorem payload_exampleEnviron : registrationPayload exampleEnviron = some exampleConfiguration := by
  decide +kernel

theorem configured_exampleEnviron : Configured exampleEnviron :=
  ⟨⟨exampleConfiguration, payload_exampleEnviron⟩, .finite 60, by rfl, by decide, by decide +kernel⟩

def latchedExample : Service :=
  Service.trigger { environ := exampleEnviron, environs := [exampleEnviron] } [0, 1]

def checkedExample : Service := latchedExample.turned 0 0 .check (.entering 0 [0, 1]) none

def acceptedSecond : Service :=
  ((checkedExample.turned 0 0 .enter (.trying exampleConfiguration [0, 1]) none).turned 0 0
    (.attempt .raised) (.trying exampleConfiguration [1]) (some exampleConfiguration)).turned 0 0
      (.attempt (.response 200)) .tried (some exampleConfiguration)

/-- The run up to `register()`, under any condition that its steps meet. -/
theorem reachable_checkedExample {guard : Service → ServiceEvent → Prop}
    (hguard : ∀ s event, s.environ = exampleEnviron → looksUpInTime s event → guard s event) :
    (announcing.restrict guard).Reachable checkedExample := by
  let S := announcing.restrict guard
  have h₀ : S.Reachable { environ := exampleEnviron, environs := [exampleEnviron] } := .of_init rfl
  have h₁ := h₀.next (show S.step _ (.trigger [0, 1]) latchedExample from
    ⟨hguard _ _ rfl trivial, .trigger [0, 1] exampleEnviron (List.mem_singleton_self _)
      (exists_payload_iff.mp ⟨_, payload_exampleEnviron⟩).1 rfl⟩)
  exact h₁.next (show S.step _ (.task 0 .check) _ from
    ⟨hguard _ _ rfl trivial, .task 0 .check 0 _ _ _ rfl
      (.check 0 _ exampleEnviron (fun _ => ⟨_, List.mem_singleton_self _, rfl⟩) _
        payload_exampleEnviron)⟩)

theorem reachable_acceptedSecond {guard : Service → ServiceEvent → Prop}
    (hguard : ∀ s event, s.environ = exampleEnviron → looksUpInTime s event → guard s event) :
    (announcing.restrict guard).Reachable acceptedSecond := by
  let S := announcing.restrict guard
  have h₁ := (reachable_checkedExample hguard).next (show S.step _ (.task 0 .enter) _ from
    ⟨hguard _ _ rfl trivial, .task 0 .enter 0 _ _ _ rfl
      (.enter 0 _ exampleEnviron (fun _ => ⟨_, List.mem_singleton_self _, rfl⟩) _
        payload_exampleEnviron)⟩)
  have h₂ := h₁.next (show S.step _ (.task 0 (.attempt .raised)) _ from
    ⟨hguard _ _ rfl trivial, .task 0 _ 0 _ _ _ rfl (.failed _ 0 _ .raised rfl)⟩)
  exact h₂.next (show S.step _ (.task 0 (.attempt (.response 200))) _ from
    ⟨hguard _ _ rfl trivial, .task 0 _ 0 _ _ _ rfl (.accepted _ 1 _ (.response 200) (by decide))⟩)

theorem announcing_refines_latch_acceptedSecond :
    registration.Reachable acceptedSecond.latch ∧ SingleHeartbeat acceptedSecond.latch := by
  have hconfigured : ∀ s : Service, s.environ = exampleEnviron → Configured s.environ :=
    fun s hs => hs ▸ configured_exampleEnviron
  exact ⟨announcing_refines_latch.1 (reachable_acceptedSecond fun s _ hs _ => hconfigured s hs),
    announcing_refines_latch.2 (reachable_acceptedSecond fun s _ hs htime =>
      ⟨hconfigured s hs, htime⟩)⟩

/-! ### The service moves while its configuration is read -/

def movedEnviron : Environ := fun name =>
  if name = enabledEnv then some "TRUE" else some "moved"

/-- The fields before the move, the URL and the token after it. -/
def mixedEnviron : Environ := fun name =>
  if name = urlEnv ∨ name = tokenEnv then movedEnviron name else exampleEnviron name

def mixedConfiguration : Configuration :=
  { exampleConfiguration with url := "moved", token := "moved" }

def movedExample : Service :=
  { checkedExample with environ := movedEnviron, environs := [exampleEnviron, movedEnviron] }

def sentMixed : Service :=
  (movedExample.turned 0 0 .enter (.trying mixedConfiguration [0, 1]) none).turned 0 0
    (.attempt (.response 200)) .tried (some mixedConfiguration)

theorem sentMixed_reachable : announcing.Reachable sentMixed := by
  have h₀ : announcing.Reachable checkedExample :=
    (@reachable_checkedExample (fun _ _ => True) fun _ _ _ _ => trivial).of_restrict
  have h₁ := h₀.next (show announcing.step _ (.setenv movedEnviron) movedExample from
    .setenv movedEnviron)
  have hseen : movedExample.Seen 0 mixedEnviron := fun name => by
    change ∃ environ ∈ [exampleEnviron, movedEnviron], _
    unfold mixedEnviron
    split
    · exact ⟨movedEnviron, by simp, rfl⟩
    · exact ⟨exampleEnviron, by simp, rfl⟩
  have h₂ := h₁.next (show announcing.step _ (.task 0 .enter) _ from
    .task 0 .enter 0 _ _ _ rfl (.enter 0 _ mixedEnviron hseen mixedConfiguration
      (by decide +kernel)))
  exact h₂.next (show announcing.step _ (.task 0 (.attempt (.response 200))) _ from
    .task 0 _ 0 _ _ _ rfl (.accepted _ 0 _ (.response 200) (by decide)))

/-- It is sent complete, though no environment has had it. -/
theorem sent_complete_sentMixed :
    (∀ x ∈ sentMixed.sent, x.configuration.Complete ∧ sentMixed.Read x.configuration) ∧
      ∀ x ∈ sentMixed.sent, ∀ environ ∈ sentMixed.environs,
        registrationPayload environ ≠ some x.configuration :=
  ⟨(sent_complete sentMixed_reachable).1, by decide +kernel⟩

end NetixBackend.Registration
