import NetixBackend.Effects.Transaction
import NetixBackend.Transition.System
import NetixBackend.Http.Retry
import Mathlib.Data.List.Nodup

/-!
The OpenTelemetry bootstrap of a process.

`configure()` is called from both entrypoints, so its first business is the
latch: it is set before anything is instrumented and never released, and what
raises after that leaves tracing as far as it got. What a call may change is
narrow, and the same wherever it stops (`Framed`): the service name of a
process that has none, a tracer provider where there is none, and the
instrumentors, each at most once in the life of the process.

What the packages beside the code do is a parameter of each call: whether they
are installed, what they raise, and what instrumenting Django makes of
`settings.MIDDLEWARE`.
-/

namespace NetixBackend.Observability

open Python Effects Transition

/-! ### The middleware entry -/

def upstreamMiddleware : String :=
  "opentelemetry.instrumentation.django.middleware.otel_middleware._DjangoMiddleware"

def asyncMiddleware : String :=
  "netix_backend.observability.otel_middleware.AsyncDjangoMiddleware"

/-- What `use_async_middleware` writes to `settings.MIDDLEWARE`. -/
def swapMiddleware (middleware : List String) : List String :=
  middleware.map fun entry => if entry = upstreamMiddleware then asyncMiddleware else entry

theorem upstream_notMem_swapMiddleware (middleware : List String) :
    upstreamMiddleware ∉ swapMiddleware middleware := by
  intro hmem
  obtain ⟨entry, -, hentry⟩ := List.mem_map.mp hmem
  split at hentry
  · exact absurd hentry (by decide)
  · rename_i hne
    exact hne hentry

/-- A second swap finds nothing to do. -/
theorem swapMiddleware_swapMiddleware (middleware : List String) :
    swapMiddleware (swapMiddleware middleware) = swapMiddleware middleware := by
  have hkept : ∀ entry ∈ swapMiddleware middleware,
      (if entry = upstreamMiddleware then asyncMiddleware else entry) = entry := by
    intro entry hentry
    refine if_neg fun heq => upstream_notMem_swapMiddleware middleware ?_
    rwa [heq] at hentry
  exact (List.map_congr_left hkept).trans (List.map_id' _)

/-! ### The process -/

/-- Whose tracer provider is installed. -/
inductive TracerProvider
  /-- One of this module, with a console exporter or an OTLP one. -/
  | ours (console : Bool)
  | foreign
  deriving DecidableEq, Repr

structure Process where
  /-- `_configured`. -/
  configured : Bool := false
  environ : Environ
  /-- The SDK provider, if one is installed. -/
  provider : Option TracerProvider := none
  /-- `settings.MIDDLEWARE`, of settings that are configured. -/
  middleware : Option (List String) := none
  /-- The instrumentors whose `instrument()` this module has called, in order. -/
  instrumented : List String := []

/-- What becomes of an optional instrumentor. -/
inductive Optional
  | missing
  /-- `instrument()` raises: logged, and the boot goes on. -/
  | broken
  | works

/-- What a call of `configure` finds installed. -/
structure Installation where
  /-- The Django and logging instrumentations can be imported. -/
  hasInstrumentation : Bool := true
  /-- What building the provider and its exporter raises. -/
  sdkError : Option String := none
  /-- What instrumenting Django makes of the middleware. -/
  djangoMiddleware : List String → List String := fun middleware => upstreamMiddleware :: middleware
  djangoError : Option String := none
  optional : String → Optional := fun _ => .works
  loggingError : Option String := none

namespace Process

/-- `os.environ.get(name, default).strip().lower()`. -/
def lowered (p : Process) (name default : String) : String :=
  String.ofList ((strip ((p.environ name).getD default).toList).map Char.toLower)

/-- `_enabled`. -/
def enabled (p : Process) : Bool :=
  p.lowered "OTEL_SDK_DISABLED" "false" ∉ ["true", "1", "yes"]

/-- `_truthy`. -/
def truthy (p : Process) (name : String) : Bool :=
  String.ofList ((strip ((p.environ name).getD "TRUE").toList).map Http.upperChar) ∈
    ["TRUE", "1", "YES"]

def exporter (p : Process) : String := p.lowered "OTEL_TRACES_EXPORTER" "otlp"

/-- `os.environ.get(name)` is not empty. -/
def isSet (p : Process) (name : String) : Bool := (p.environ name).getD "" ≠ ""

/-- The variable of the ConfigMap wins over the name in the code. -/
def nameService (serviceName : Option String) (p : Process) : Process :=
  if serviceName.getD "" ≠ "" ∧ p.isSet "OTEL_SERVICE_NAME" = false then
    { p with environ := fun name => if name = "OTEL_SERVICE_NAME" then serviceName else p.environ name }
  else p

def instrument (p : Process) (instrumentor : String) : Process :=
  { p with instrumented := p.instrumented ++ [instrumentor] }

end Process

/-! ### The bootstrap -/

/-- A program of the bootstrap; an exception is given by its type. -/
abbrev Boot := Tx String Process

def raiseIf : Option String → Boot Unit
  | none => pure ()
  | some error => Tx.raise error

/-- `_init_sdk`. -/
def initSdk (inst : Installation) (exporter : String) : Boot Bool := do
  let p ← Tx.read .ok
  if p.provider.isSome then return false
  if exporter = "none" then return false
  raiseIf inst.sdkError
  Tx.write fun p => { p with provider := some (.ours (exporter = "console")) }
  return true

/-- `DjangoInstrumentor().instrument()`. -/
def instrumentDjango (inst : Installation) : Boot Unit := do
  Tx.write fun p => p.instrument "DjangoInstrumentor"
  raiseIf inst.djangoError
  Tx.write fun p => { p with middleware := p.middleware.map inst.djangoMiddleware }

def useAsyncMiddleware : Boot Unit :=
  Tx.write fun p => { p with middleware := p.middleware.map swapMiddleware }

/-- `_instrument_optional`. -/
def instrumentOptional (inst : Installation) (instrumentor : String) : Boot Unit :=
  match inst.optional instrumentor with
  | .missing => pure ()
  | .broken | .works => Tx.write fun p => p.instrument instrumentor

def instrumentLogging (inst : Installation) : Boot Unit := do
  Tx.write fun p => p.instrument "LoggingInstrumentor"
  raiseIf inst.loggingError

def instrumentDatabase (inst : Installation) : Boot Unit := do
  let p ← Tx.read .ok
  if p.truthy "NETIX_OTEL_DB" then instrumentOptional inst "PsycopgInstrumentor" else pure ()

/-- `configure`, from the database on. -/
def instrumentRest (inst : Installation) : Boot Unit := do
  instrumentDatabase inst
  instrumentOptional inst "RedisInstrumentor"
  instrumentOptional inst "HTTPXClientInstrumentor"
  instrumentLogging inst

/-- `configure`, from where the latch is set. -/
def install (inst : Installation) (exporter : String) : Boot Unit := do
  Tx.write fun p => { p with configured := true }
  let _ ← initSdk inst exporter
  instrumentDjango inst
  useAsyncMiddleware
  instrumentRest inst

def configure (inst : Installation) (serviceName : Option String) : Boot Bool := do
  let p ← Tx.read .ok
  if p.configured then return false
  if !p.enabled then return false
  if p.exporter = "otlp" ∧ p.isSet "OTEL_EXPORTER_OTLP_ENDPOINT" = false then return false
  Tx.write (Process.nameService serviceName)
  if !inst.hasInstrumentation then return false
  install inst p.exporter
  return true

/-- In the order of `configure`. -/
def instrumentors : List String :=
  ["DjangoInstrumentor", "PsycopgInstrumentor", "RedisInstrumentor", "HTTPXClientInstrumentor",
    "LoggingInstrumentor"]

/-! ### What a program of the bootstrap may change -/

/-- No variable but an unset service name, no provider that is installed, and
the latch only to set it. -/
structure Framed (p p' : Process) : Prop where
  environ : ∀ name ≠ "OTEL_SERVICE_NAME", p'.environ name = p.environ name
  named : p.isSet "OTEL_SERVICE_NAME" = true →
    p'.environ "OTEL_SERVICE_NAME" = p.environ "OTEL_SERVICE_NAME"
  provider : p.provider.isSome = true → p'.provider = p.provider
  latched : p.configured = true → p'.configured = true

variable {p p' p'' : Process} {inst : Installation} {serviceName : Option String}

theorem Framed.of_same (henviron : p'.environ = p.environ) (hprovider : p'.provider = p.provider)
    (hlatched : p.configured = true → p'.configured = true) : Framed p p' :=
  ⟨fun _ _ => congrFun henviron _, fun _ => congrFun henviron _, fun _ => hprovider, hlatched⟩

instance : Std.Refl Framed := ⟨fun _ => .of_same rfl rfl id⟩

instance : IsTrans Process Framed where
  trans a b c hab hbc := by
    refine ⟨fun name hname => (hbc.environ name hname).trans (hab.environ name hname),
      fun hset => ?_, fun hsome => ?_, fun hlatched => hbc.latched (hab.latched hlatched)⟩
    · have hname := hab.named hset
      refine (hbc.named ?_).trans hname
      rw [Process.isSet, hname]
      exact hset
    · have hprovider := hab.provider hsome
      exact (hbc.provider (hprovider ▸ hsome)).trans hprovider

theorem framed_nameService (p : Process) : Framed p (p.nameService serviceName) := by
  unfold Process.nameService
  split
  · rename_i hcase
    refine ⟨fun name hname => if_neg hname, fun hset => ?_, fun _ => rfl, id⟩
    exact absurd (hset.symm.trans hcase.2) Bool.noConfusion
  · exact Std.Refl.refl p

/-- Of the instrumentors of a list, some were called, in order. -/
def Appends (instrumentors : List String) (p p' : Process) : Prop :=
  ∃ added : List String, added.Sublist instrumentors ∧ p'.instrumented = p.instrumented ++ added

theorem Appends.none (names : List String) (h : p'.instrumented = p.instrumented) :
    Appends names p p' := ⟨[], List.nil_sublist names, by simp [h]⟩

/-- A program within the frame that calls instrumentors of a list. -/
structure Boots (names : List String) {α : Type} (m : Boot α) : Prop where
  framed : Tx.Within Framed m
  appends : Tx.Within (Appends names) m

theorem Boots.bind {α β : Type} {names names' : List String} {m : Boot α} {f : α → Boot β}
    (hm : Boots names m) (hf : ∀ a, Boots names' (f a)) : Boots (names ++ names') (m >>= f) := by
  refine ⟨Tx.Within.bind hm.framed fun a _ => (hf a).framed, fun p => ?_⟩
  obtain ⟨added, hsub, hadded⟩ := hm.appends p
  cases hresult : Tx.outcome m p with
  | ok a =>
      obtain ⟨added', hsub', hadded'⟩ := (hf a).appends (Tx.after m p)
      rw [Tx.after_bind_of_ok hresult]
      refine ⟨added ++ added', hsub.append hsub', ?_⟩
      rw [hadded', hadded, List.append_assoc]
  | error e =>
      rw [Tx.after_bind_of_error hresult]
      exact ⟨added, hsub.trans (List.sublist_append_left _ _), hadded⟩

theorem Boots.of_after {α : Type} {m : Boot α} (h : ∀ p, Tx.after m p = p) : Boots [] m :=
  ⟨.of_after h, fun p => .none [] (by rw [h p])⟩

theorem Boots.write (names : List String) {f : Process → Process}
    (henviron : ∀ p, (f p).environ = p.environ) (hprovider : ∀ p, (f p).provider = p.provider)
    (hlatched : ∀ p, p.configured = true → (f p).configured = true)
    (happends : ∀ p, Appends names p (f p)) : Boots names (Tx.write f : Boot Unit) :=
  ⟨fun p => .of_same (henviron p) (hprovider p) (hlatched p), happends⟩

theorem boots_instrument (instrumentor : String) :
    Boots [instrumentor] (Tx.write fun p => p.instrument instrumentor : Boot Unit) :=
  .write _ (fun _ => rfl) (fun _ => rfl) (fun _ => id) fun _ => ⟨_, List.Sublist.refl _, rfl⟩

theorem boots_raiseIf (error : Option String) : Boots [] (raiseIf error) := by
  cases error <;> exact .of_after fun _ => rfl

theorem Boots.mono {α : Type} {names names' : List String} {m : Boot α} (h : Boots names m)
    (hsub : names.Sublist names') : Boots names' m :=
  ⟨h.framed, fun p => by
    obtain ⟨added, hadded, heq⟩ := h.appends p
    exact ⟨added, hadded.trans hsub, heq⟩⟩

/-- The provider is installed where there is none, and nothing else is written. -/
theorem initSdk_cases (inst : Installation) (exporter : String) (p : Process) :
    Tx.after (initSdk inst exporter) p = p ∨
      p.provider = none ∧ ∃ console,
        Tx.after (initSdk inst exporter) p = { p with provider := some (.ours console) } := by
  unfold initSdk
  simp only [bind, Tx.andThen, Tx.read, Tx.after]
  cases hprovider : p.provider with
  | some provider => exact .inl rfl
  | none =>
      by_cases hexporter : exporter = "none"
      · left
        simp [hexporter]
        rfl
      · cases herror : inst.sdkError with
        | some error =>
            left
            simp [hexporter]
            rfl
        | none =>
            refine .inr ⟨rfl, decide (exporter = "console"), ?_⟩
            simp [hexporter]
            rfl

theorem boots_initSdk (inst : Installation) (exporter : String) :
    Boots [] (initSdk inst exporter) := by
  refine ⟨fun p => ?_, fun p => ?_⟩
  · rcases initSdk_cases inst exporter p with hsame | ⟨hnone, console, hafter⟩
    · rw [hsame]
      exact Std.Refl.refl p
    · rw [hafter]
      exact ⟨fun _ _ => rfl, fun _ => rfl, fun hsome => by simp [hnone] at hsome, id⟩
  · rcases initSdk_cases inst exporter p with hsame | ⟨-, console, hafter⟩
    · exact .none [] (by rw [hsame])
    · exact .none [] (by rw [hafter])

theorem boots_instrumentDjango (inst : Installation) :
    Boots ["DjangoInstrumentor"] (instrumentDjango inst) :=
  (boots_instrument "DjangoInstrumentor").bind fun _ => (boots_raiseIf _).bind fun _ =>
    .write [] (fun _ => rfl) (fun _ => rfl) (fun _ => id) fun _ => .none [] rfl

theorem boots_instrumentOptional (inst : Installation) (instrumentor : String) :
    Boots [instrumentor] (instrumentOptional inst instrumentor) := by
  unfold instrumentOptional
  cases inst.optional instrumentor with
  | missing => exact (Boots.of_after fun _ => rfl).mono (List.nil_sublist _)
  | broken | works => exact boots_instrument instrumentor

theorem boots_instrumentDatabase (inst : Installation) :
    Boots ["PsycopgInstrumentor"] (instrumentDatabase inst) := by
  have hread : Boots [] (Tx.read .ok : Boot Process) := .of_after fun _ => rfl
  refine hread.bind fun p => ?_
  split
  · exact boots_instrumentOptional inst "PsycopgInstrumentor"
  · exact (Boots.of_after fun _ => rfl).mono (List.nil_sublist _)

theorem boots_instrumentRest (inst : Installation) :
    Boots ["PsycopgInstrumentor", "RedisInstrumentor", "HTTPXClientInstrumentor",
      "LoggingInstrumentor"] (instrumentRest inst) :=
  (boots_instrumentDatabase inst).bind fun _ =>
    (boots_instrumentOptional inst "RedisInstrumentor").bind fun _ =>
      (boots_instrumentOptional inst "HTTPXClientInstrumentor").bind fun _ =>
        (boots_instrument "LoggingInstrumentor").bind fun _ => boots_raiseIf _

theorem boots_useAsyncMiddleware : Boots [] useAsyncMiddleware :=
  .write [] (fun _ => rfl) (fun _ => rfl) (fun _ => id) fun _ => .none [] rfl

/-- Past the latch, in the order of the source. -/
theorem boots_install (inst : Installation) (exporter : String) :
    Boots instrumentors (install inst exporter) := by
  have hlatch : Boots [] (Tx.write fun p : Process => { p with configured := true } : Boot Unit) :=
    .write [] (fun _ => rfl) (fun _ => rfl) (fun _ _ => rfl) fun _ => .none [] rfl
  exact hlatch.bind fun _ => (boots_initSdk inst exporter).bind fun _ =>
    (boots_instrumentDjango inst).bind fun _ => boots_useAsyncMiddleware.bind fun _ =>
      boots_instrumentRest inst

/-- `settings.MIDDLEWARE` is as it was. -/
def SameMiddleware (p p' : Process) : Prop := p'.middleware = p.middleware

instance : Std.Refl SameMiddleware := ⟨fun _ => rfl⟩

instance : IsTrans Process SameMiddleware := ⟨fun _ _ _ hab hbc => hbc.trans hab⟩

theorem sameMiddleware_optional (inst : Installation) (instrumentor : String) :
    Tx.Within SameMiddleware (instrumentOptional inst instrumentor) := by
  unfold instrumentOptional
  cases inst.optional instrumentor with
  | missing => exact .pure
  | broken | works => exact fun _ => rfl

theorem sameMiddleware_rest (inst : Installation) :
    Tx.Within SameMiddleware (instrumentRest inst) := by
  have hdatabase : Tx.Within SameMiddleware (instrumentDatabase inst) := by
    refine .bind (.read _) fun p _ => ?_
    split
    · exact sameMiddleware_optional inst "PsycopgInstrumentor"
    · exact .pure
  have hlogging : Tx.Within SameMiddleware (instrumentLogging inst) := by
    refine .bind (fun _ => rfl) fun _ _ => ?_
    cases inst.loggingError with
    | none => exact .pure
    | some error => exact .raise
  exact hdatabase.bind fun _ _ => (sameMiddleware_optional inst "RedisInstrumentor").bind fun _ _ =>
    (sameMiddleware_optional inst "HTTPXClientInstrumentor").bind fun _ _ => hlogging

/-- Once the Django instrumentation has been replaced, nothing puts it back. -/
theorem upstream_notMem_of_install {exporter : String}
    (hok : Tx.outcome (install inst exporter) p = .ok ()) :
    ∀ middleware ∈ (Tx.after (install inst exporter) p).middleware,
      upstreamMiddleware ∉ middleware := by
  obtain ⟨_, -, h₁, hafter₁⟩ := Tx.outcome_bind_ok hok
  obtain ⟨_, -, h₂, hafter₂⟩ := Tx.outcome_bind_ok h₁
  obtain ⟨_, -, h₃, hafter₃⟩ := Tx.outcome_bind_ok h₂
  obtain ⟨_, -, h₄, hafter₄⟩ := Tx.outcome_bind_ok h₃
  intro middleware hmem
  rw [install, hafter₁, hafter₂, hafter₃, hafter₄, sameMiddleware_rest inst _] at hmem
  obtain ⟨before, -, rfl⟩ := Option.mem_map.mp hmem
  exact upstream_notMem_swapMiddleware before

/-! ### One call -/

theorem andThen_pure (m : Boot Unit) (result : Bool) (p : Process) :
    Tx.andThen m (fun _ => pure result) p = ((Tx.outcome m p).map fun _ => result, Tx.after m p) := by
  unfold Tx.andThen Tx.outcome Tx.after
  rcases m p with ⟨_ | _, after⟩ <;> rfl

/-- A call finds the latch set and does nothing; or stops before it, having
named the service at most; or sets it and installs. -/
theorem configure_cases (inst : Installation) (serviceName : Option String) (p : Process) :
    (p.configured = true ∧ configure inst serviceName p = (.ok false, p)) ∨
      p.configured = false ∧
        ((∃ p', (p' = p ∨ p' = p.nameService serviceName) ∧
            configure inst serviceName p = (.ok false, p')) ∨
          configure inst serviceName p =
            ((Tx.outcome (install inst p.exporter) (p.nameService serviceName)).map fun _ => true,
              Tx.after (install inst p.exporter) (p.nameService serviceName))) := by
  unfold configure
  simp only [bind, Tx.andThen, Tx.read]
  cases hconfigured : p.configured with
  | true => exact .inl ⟨rfl, rfl⟩
  | false =>
      refine .inr ⟨rfl, ?_⟩
      cases henabled : p.enabled with
      | false => exact .inl ⟨p, .inl rfl, by simp; rfl⟩
      | true =>
          by_cases hendpoint : p.exporter = "otlp" ∧ p.isSet "OTEL_EXPORTER_OTLP_ENDPOINT" = false
          · exact .inl ⟨p, .inl rfl, by simp [hendpoint]; rfl⟩
          · simp only [Bool.false_eq_true, if_false, Bool.not_true, if_neg hendpoint]
            cases hinst : inst.hasInstrumentation with
            | false => exact .inl ⟨_, .inr rfl, rfl⟩
            | true =>
                right
                simp only [Bool.not_true, Bool.false_eq_true, if_false]
                exact andThen_pure (install inst p.exporter) true (p.nameService serviceName)

theorem framed_configure (inst : Installation) (serviceName : Option String) :
    Tx.Within Framed (configure inst serviceName) := by
  intro p
  have hnamed : Framed p (p.nameService serviceName) := framed_nameService p
  rcases configure_cases inst serviceName p with ⟨-, hrun⟩ | ⟨-, ⟨p', hp', hrun⟩ | hrun⟩
  · rw [Tx.after, hrun]
    exact Std.Refl.refl p
  · rw [Tx.after, hrun]
    rcases hp' with rfl | rfl
    · exact Std.Refl.refl _
    · exact hnamed
  · rw [Tx.after, hrun]
    exact IsTrans.trans _ _ _ hnamed ((boots_install inst p.exporter).framed _)

theorem configured_install (inst : Installation) (exporter : String) (p : Process) :
    (Tx.after (install inst exporter) p).configured = true := by
  have hrest : Tx.Within Framed (do
      let _ ← initSdk inst exporter
      instrumentDjango inst
      useAsyncMiddleware
      instrumentRest inst : Boot Unit) :=
    ((boots_initSdk inst exporter).bind fun _ => (boots_instrumentDjango inst).bind fun _ =>
      boots_useAsyncMiddleware.bind fun _ => boots_instrumentRest inst).framed
  exact (hrest { p with configured := true }).latched rfl

/-! ### The life of a process -/

inductive BootEvent
  /-- A call of `configure`, and what came of it. -/
  | configure (inst : Installation) (serviceName : Option String) (result : Except String Bool)
  /-- Anything else in the process. -/
  | others (environ : Environ) (provider : Option TracerProvider) (middleware : Option (List String))

/-- The call got past the latch: it returned True or raised. -/
def BootEvent.installs : BootEvent → Bool
  | .configure _ _ (.ok false) => false
  | .configure .. => true
  | .others .. => false

inductive BootStep (p : Process) : BootEvent → Process → Prop
  | configure (inst : Installation) (serviceName : Option String) :
      BootStep p (.configure inst serviceName (Tx.outcome (configure inst serviceName) p))
        (Tx.after (configure inst serviceName) p)
  | others (environ : Environ) (provider : Option TracerProvider)
      (middleware : Option (List String)) :
      BootStep p (.others environ provider middleware)
        { p with environ := environ, provider := provider, middleware := middleware }

def bootstrapping : System Process BootEvent where
  init p := p.configured = false ∧ p.instrumented = []
  step := BootStep

/-- What the latch is worth after those events. -/
structure BootedOnce (p : Process) (events : List BootEvent) : Prop where
  /-- Each instrumentor was called once at most, in order. -/
  instrumented : p.instrumented.Sublist instrumentors
  installs : events.countP BootEvent.installs ≤ 1
  latched : p.configured = false → p.instrumented = [] ∧ events.countP BootEvent.installs = 0

variable {events : List BootEvent}

theorem BootedOnce.configure (h : BootedOnce p events) (inst : Installation)
    (serviceName : Option String) :
    BootedOnce (Tx.after (Observability.configure inst serviceName) p)
      (events ++ [.configure inst serviceName
        (Tx.outcome (Observability.configure inst serviceName) p)]) := by
  have hquiet : ∀ p', p'.instrumented = p.instrumented → p'.configured = p.configured →
      Observability.configure inst serviceName p = (.ok false, p') →
      BootedOnce (Tx.after (Observability.configure inst serviceName) p)
        (events ++ [.configure inst serviceName
          (Tx.outcome (Observability.configure inst serviceName) p)]) := by
    intro p' hinstrumented hconfigured hrun
    rw [Tx.after, Tx.outcome, hrun]
    have hcount : (events ++ [BootEvent.configure inst serviceName (.ok false)]).countP BootEvent.installs =
        events.countP BootEvent.installs := by simp [BootEvent.installs]
    exact ⟨hinstrumented ▸ h.instrumented, hcount ▸ h.installs,
      fun hopen => by rw [hinstrumented, hcount]; exact h.latched (hconfigured ▸ hopen)⟩
  rcases configure_cases inst serviceName p with ⟨-, hrun⟩ | ⟨hopen, ⟨p', hp', hrun⟩ | hrun⟩
  · exact hquiet p rfl rfl hrun
  · rcases hp' with rfl | rfl
    · exact hquiet p' rfl rfl hrun
    · refine hquiet _ ?_ ?_ hrun
      · unfold Process.nameService
        split <;> rfl
      · unfold Process.nameService
        split <;> rfl
  · obtain ⟨hnone, hzero⟩ := h.latched hopen
    have hnamed : (p.nameService serviceName).instrumented = [] := by
      unfold Process.nameService
      split <;> exact hnone
    obtain ⟨added, hsub, hadded⟩ :=
      (boots_install inst p.exporter).appends (p.nameService serviceName)
    rw [Tx.after, hrun]
    refine ⟨?_, ?_, fun hstill => ?_⟩
    · rw [hadded, hnamed]
      exact hsub
    · rw [List.countP_append, hzero, Nat.zero_add]
      exact List.countP_le_length
    · exact absurd (hstill.symm.trans (configured_install inst p.exporter _)) Bool.noConfusion

theorem bootedOnce_inductive :
    bootstrapping.traced.Inductive fun state => BootedOnce state.1 state.2 where
  init := by
    rintro ⟨p, events⟩ ⟨⟨-, hnone⟩, rfl⟩
    have hnone : p.instrumented = [] := hnone
    exact ⟨by simp [hnone], by simp, fun _ => ⟨hnone, rfl⟩⟩
  step := by
    rintro ⟨p, events⟩ event ⟨p', events'⟩ h ⟨hstep, rfl⟩
    cases hstep with
    | configure inst serviceName => exact h.configure inst serviceName
    | others environ provider middleware =>
        have hcount : (events ++ [BootEvent.others environ provider middleware]).countP BootEvent.installs =
            events.countP BootEvent.installs := by simp [BootEvent.installs]
        exact ⟨h.instrumented, hcount ▸ h.installs, fun hopen => hcount ▸ h.latched hopen⟩

/-- Over the life of a process, however often `configure` is called, whatever
fails and whatever else happens in between: one call at most gets past the
latch and every later one does nothing, no instrumentor is called twice, and what
any call may change is framed; one that returns True leaves no synchronous
OpenTelemetry middleware behind. -/
theorem configure_once (h : bootstrapping.traced.Reachable (p, events)) (inst : Installation)
    (serviceName : Option String) :
    BootedOnce p events ∧ Framed p (Tx.after (configure inst serviceName) p) ∧
      (p.configured = true → configure inst serviceName p = (.ok false, p)) ∧
      (Tx.outcome (configure inst serviceName) p = .ok true →
        ∀ middleware ∈ (Tx.after (configure inst serviceName) p).middleware,
          upstreamMiddleware ∉ middleware) := by
  refine ⟨bootedOnce_inductive.reachable h, framed_configure inst serviceName p, fun hset => ?_,
    fun hok => ?_⟩
  · rcases configure_cases inst serviceName p with ⟨-, hrun⟩ | ⟨hopen, -⟩
    · exact hrun
    · exact absurd (hset.symm.trans hopen) Bool.noConfusion
  rcases configure_cases inst serviceName p with ⟨-, hrun⟩ | ⟨-, ⟨p', -, hrun⟩ | hrun⟩
  · rw [Tx.outcome, hrun] at hok
    exact absurd (Except.ok.inj hok) Bool.noConfusion
  · rw [Tx.outcome, hrun] at hok
    exact absurd (Except.ok.inj hok) Bool.noConfusion
  · rw [Tx.outcome, hrun] at hok
    rw [Tx.after, hrun]
    refine upstream_notMem_of_install ?_
    cases hinstall : Tx.outcome (install inst p.exporter) (p.nameService serviceName) with
    | ok _ => rfl
    | error error =>
        rw [hinstall] at hok
        exact absurd hok (by simp [Except.map])

/-! ### Both entrypoints -/

def freshProcess : Process where
  environ name := if name = "OTEL_TRACES_EXPORTER" then some "none" else none
  middleware := some ["django.middleware.common.CommonMiddleware"]

/-- The process after the call in one entrypoint, before that in the other. -/
def bootedProcess : Process := Tx.after (configure {} (some "svc")) freshProcess

def bootCall : BootEvent :=
  .configure {} (some "svc") (Tx.outcome (configure {} (some "svc")) freshProcess)

theorem configure_once_bootedProcess :
    BootedOnce bootedProcess [bootCall] ∧
      Framed bootedProcess (Tx.after (configure {} none) bootedProcess) ∧
      (bootedProcess.configured = true → configure {} none bootedProcess = (.ok false, bootedProcess)) ∧
      (Tx.outcome (configure {} none) bootedProcess = .ok true →
        ∀ middleware ∈ (Tx.after (configure {} none) bootedProcess).middleware,
          upstreamMiddleware ∉ middleware) := by
  have hinit : bootstrapping.traced.Reachable (freshProcess, []) := .of_init ⟨⟨rfl, rfl⟩, rfl⟩
  have hstep : bootstrapping.traced.step (freshProcess, []) bootCall (bootedProcess, [bootCall]) :=
    ⟨.configure {} (some "svc"), rfl⟩
  exact configure_once (hinit.next hstep) {} none

example : bootedProcess.middleware =
    some [asyncMiddleware, "django.middleware.common.CommonMiddleware"] := by decide +kernel

end NetixBackend.Observability
