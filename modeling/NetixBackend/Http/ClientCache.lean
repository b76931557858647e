import NetixBackend.Effects.Transaction
import NetixBackend.Http.Clients

/-!
When the client cache is transparent.

The configuration of a client is a function of the cache key and of four
arguments the key leaves out: the extra headers, the limits, the pool timeout
and the retries. Two calls with one key are built alike exactly when they agree
on those four (`agree_iff`), headers by what is sent and retries by the number
in effect. The general facts about memo tables then give the whole claim, and
its limit: the cache answers every call of a sequence as an uncached call would
if and only if each call agrees with the earlier ones of its key.
-/

namespace NetixBackend.Http

open Python Effects

/-- One configuration: headers are compared as a mapping. -/
structure SameConfig (a b : ClientConfig) : Prop where
  baseUrl : a.baseUrl = b.baseUrl
  headers : ∀ name, a.headers.get? name = b.headers.get? name
  verifySsl : a.verifySsl = b.verifySsl
  raiseOnUnexpectedStatus : a.raiseOnUnexpectedStatus = b.raiseOnUnexpectedStatus
  timeout : a.timeout = b.timeout
  transport : a.transport = b.transport

instance : IsEquiv ClientConfig SameConfig where
  refl _ := ⟨rfl, fun _ => rfl, rfl, rfl, rfl, rfl⟩
  symm _ _ h := ⟨h.baseUrl.symm, fun name => (h.headers name).symm, h.verifySsl.symm,
    h.raiseOnUnexpectedStatus.symm, h.timeout.symm, h.transport.symm⟩
  trans _ _ _ h h' := ⟨h.baseUrl.trans h'.baseUrl,
    fun name => (h.headers name).trans (h'.headers name), h.verifySsl.trans h'.verifySsl,
    h.raiseOnUnexpectedStatus.trans h'.raiseOnUnexpectedStatus, h.timeout.trans h'.timeout,
    h.transport.trans h'.transport⟩

namespace Process

variable (process : Process)

/-- The value a call sends for a header: an extra header, or the one read from
the environment. -/
def sentHeader (call : BuildCall) (name : String) : Option String :=
  let own := buildHeaders (process.accept call.keys)
    (process.credential call.authorization call.keys).toOption.join none
  ((call.extraHeaders.getD Dict.empty).get? name).or (own.get? name)

/-- Two calls agree on what the cache key leaves out. -/
structure SameUnkeyed (a b : BuildCall) : Prop where
  headers : ∀ name, process.sentHeader a name = process.sentHeader b name
  limits : a.limits = b.limits
  poolTimeout : a.poolTimeout = b.poolTimeout
  retries : process.effectiveRetries a.retries = process.effectiveRetries b.retries

variable {process}

theorem get?_buildHeaders (accept : String) (authorization : Option String)
    (extra : Option (Dict String String)) (name : String) :
    (buildHeaders accept authorization extra).get? name =
      ((extra.getD Dict.empty).get? name).or
        ((buildHeaders accept authorization none).get? name) := by
  cases extra with
  | none => simp [buildHeaders]
  | some extra => simp [buildHeaders]

/-! ### What a build reads -/

def configOf (process : Process) (call : BuildCall) (baseUrl : String) (seconds : Number)
    (auth : Option String) (policy : RetryPolicy) : ClientConfig where
  baseUrl := baseUrl
  headers := buildHeaders (process.accept call.keys) auth call.extraHeaders
  verifySsl := parseBool (process.environ.first call.keys.verifySsl)
  raiseOnUnexpectedStatus := parseBool (process.environ.first call.keys.raiseStatus)
  timeout := { seconds, pool := call.poolTimeout }
  transport :=
    { policy, limits := call.limits
      verify := parseBool (process.environ.first call.keys.verifySsl) }

/-- The reads a build succeeds by. -/
structure Reads (process : Process) (call : BuildCall) (baseUrl : String) (seconds : Number)
    (auth : Option String) (policy : RetryPolicy) : Prop where
  baseUrl : process.baseUrl call = .ok baseUrl
  seconds : process.requiredFloat call.keys.timeout = .ok seconds
  auth : process.credential call.authorization call.keys = .ok auth
  policy : process.initPolicy call.retries = .ok policy

variable {call a b : BuildCall} {config : ClientConfig} {baseUrl : String} {seconds : Number}
  {auth : Option String} {policy : RetryPolicy}

theorem buildClientUncached_of_reads (h : process.Reads call baseUrl seconds auth policy) :
    process.buildClientUncached call =
      .ok (process.configOf call baseUrl seconds auth policy) := by
  simp only [buildClientUncached, constructClient, h.baseUrl, h.seconds, h.auth, h.policy, bind,
    Except.bind]
  rfl

theorem reads_of_buildClientUncached (h : process.buildClientUncached call = .ok config) :
    ∃ baseUrl seconds auth policy, process.Reads call baseUrl seconds auth policy ∧
      config = process.configOf call baseUrl seconds auth policy := by
  obtain ⟨baseUrl, hbaseUrl, h⟩ := exists_of_bind_ok h
  obtain ⟨seconds, hseconds, h⟩ := exists_of_bind_ok h
  obtain ⟨auth, hauth, h⟩ := exists_of_bind_ok h
  obtain ⟨policy, hpolicy, h⟩ := exists_of_bind_ok h
  exact ⟨baseUrl, seconds, auth, policy, ⟨hbaseUrl, hseconds, hauth, hpolicy⟩,
    (Except.ok.inj h).symm⟩

/-- The headers of a configuration are the ones the call sends. -/
theorem get?_configOf (h : process.Reads call baseUrl seconds auth policy) (name : String) :
    (process.configOf call baseUrl seconds auth policy).headers.get? name =
      process.sentHeader call name := by
  rw [configOf, get?_buildHeaders, sentHeader, h.auth]
  rfl

structure SameKey (process : Process) (a b : BuildCall) : Prop where
  keys : a.keys = b.keys
  authorization : a.authorization = b.authorization
  baseUrl : process.baseUrl a = process.baseUrl b

theorem sameKey_of_cacheKey {key : CacheKey} (ha : process.cacheKey a = .ok key)
    (hb : process.cacheKey b = .ok key) : process.SameKey a b := by
  obtain ⟨urlA, hurlA, ha⟩ := exists_of_bind_ok ha
  obtain ⟨urlB, hurlB, hb⟩ := exists_of_bind_ok hb
  have hkey := (Except.ok.inj ha).trans (Except.ok.inj hb).symm
  have hurl : urlA = urlB := congrArg CacheKey.baseUrl hkey
  exact ⟨congrArg CacheKey.keys hkey, congrArg CacheKey.authorization hkey,
    by rw [hurlA, hurlB, hurl]⟩

theorem retries_of_initPolicy {retries : Option ℤ} (h : process.initPolicy retries = .ok policy) :
    process.effectiveRetries retries = .ok policy.retries := by
  obtain ⟨n, hn, h⟩ := exists_of_bind_ok h
  obtain ⟨backoffFactor, -, h⟩ := exists_of_bind_ok h
  rw [hn, ← Except.ok.inj h]

theorem initPolicy_congr {retries retries' : Option ℤ}
    (h : process.effectiveRetries retries = process.effectiveRetries retries') :
    process.initPolicy retries = process.initPolicy retries' := by
  rw [RetrySettings.initPolicy, h, RetrySettings.initPolicy]

/-- Of two calls with one key, the second can be read like the first, retries
apart. -/
theorem Reads.of_sameKey (h : process.Reads a baseUrl seconds auth policy)
    (hkey : process.SameKey a b)
    (hretries : process.effectiveRetries a.retries = process.effectiveRetries b.retries) :
    process.Reads b baseUrl seconds auth policy where
  baseUrl := hkey.baseUrl ▸ h.baseUrl
  seconds := hkey.keys ▸ h.seconds
  auth := hkey.keys ▸ hkey.authorization ▸ h.auth
  policy := initPolicy_congr hretries ▸ h.policy

/-- Calls of one key are built alike exactly when they agree on the rest. -/
theorem agree_iff :
    Memo.Agree process.cacheKey process.buildClientUncached SameConfig a b ↔
      ∀ key, process.cacheKey a = .ok key → process.cacheKey b = .ok key →
        (∃ config, process.buildClientUncached a = .ok config) → process.SameUnkeyed a b := by
  constructor
  · rintro hagree key hkeyA hkeyB ⟨config, hbuild⟩
    obtain ⟨config', hbuild', hsame⟩ := hagree key config hkeyA hkeyB hbuild
    obtain ⟨url, seconds, auth, policy, hreads, rfl⟩ := reads_of_buildClientUncached hbuild
    obtain ⟨url', seconds', auth', policy', hreads', rfl⟩ := reads_of_buildClientUncached hbuild'
    have hpolicy : policy = policy' := congrArg Transport.policy hsame.transport
    refine ⟨fun name => ?_, congrArg Transport.limits hsame.transport,
      congrArg Timeout.pool hsame.timeout, ?_⟩
    · rw [← get?_configOf hreads, ← get?_configOf hreads', hsame.headers]
    · rw [retries_of_initPolicy hreads.policy, retries_of_initPolicy hreads'.policy, hpolicy]
  · intro hagree key config hkeyA hkeyB hbuild
    have hunkeyed := hagree key hkeyA hkeyB ⟨config, hbuild⟩
    have hkey := sameKey_of_cacheKey hkeyA hkeyB
    obtain ⟨url, seconds, auth, policy, hreads, rfl⟩ := reads_of_buildClientUncached hbuild
    have hreads' := hreads.of_sameKey hkey hunkeyed.retries
    refine ⟨_, buildClientUncached_of_reads hreads', rfl, fun name => ?_, ?_, ?_, ?_, ?_⟩
    · rw [get?_configOf hreads, get?_configOf hreads', hunkeyed.headers]
    · simp [configOf, hkey.keys]
    · simp [configOf, hkey.keys]
    · simp [configOf, hunkeyed.poolTimeout]
    · simp [configOf, hkey.keys, hunkeyed.limits]

/-! ### Transparency -/

/-- Every call of the sequence answers what an uncached call would, and equal
calls return one object. -/
structure Transparent (process : Process) (calls : List BuildCall) : Prop where
  config : List.Forall₂ (Memo.Matches SameConfig) (process.buildClients calls)
    (calls.map process.buildClientUncached)
  object : (calls.zip (process.buildClients calls)).Pairwise fun earlier later =>
    earlier.1 = later.1 → ∀ object, earlier.2 = .ok object → later.2 = .ok object

theorem uncached_eq (call : BuildCall) :
    Memo.uncached process.cacheKey process.buildClientUncached call =
      process.buildClientUncached call := by
  unfold Memo.uncached
  cases hurl : process.baseUrl call with
  | error e => simp [cacheKey, buildClientUncached, hurl, bind, Except.bind]
  | ok url => simp [cacheKey, hurl, bind, Except.bind, pure, Except.pure]

/-- The cached calls are a run of the memo table. -/
theorem buildClientsFrom_eq (cache : Memo CacheKey ClientConfig) (calls : List BuildCall) :
    process.buildClientsFrom cache calls =
      (Memo.run process.cacheKey process.buildClientUncached cache calls).1 := by
  induction calls generalizing cache with
  | nil => rfl
  | cons call rest ih =>
      rw [buildClientsFrom, Memo.run]
      dsimp only
      rw [ih, buildClient]

theorem transparent_of_agree_iff (calls : List BuildCall) :
    process.Transparent calls ↔
      calls.Pairwise (Memo.Agree process.cacheKey process.buildClientUncached SameConfig) := by
  have hrun : process.buildClients calls =
      (Memo.run process.cacheKey process.buildClientUncached {} calls).1 :=
    buildClientsFrom_eq {} calls
  rw [← Memo.transparent_iff, funext uncached_eq, ← hrun]
  exact ⟨fun h => h.config, fun h => ⟨h, hrun ▸ Memo.same_object {} calls⟩⟩

/-- The cache is transparent on a sequence of calls exactly when each call whose
client can be built agrees with every later call of its key on the headers sent,
the limits, the pool timeout and the retries in effect. -/
theorem cache_transparent_iff (process : Process) (calls : List BuildCall) :
    process.Transparent calls ↔
      calls.Pairwise fun a b => ∀ key, process.cacheKey a = .ok key →
        process.cacheKey b = .ok key → (∃ config, process.buildClientUncached a = .ok config) →
          process.SameUnkeyed a b := by
  rw [transparent_of_agree_iff]
  exact List.Pairwise.iff fun _ _ => agree_iff

/-! ### An extra header that is not sent -/

def assetEnviron : Environ := fun name =>
  [("ASSET_SVC_URL", "https://asset.internal"), ("ASSET_SVC_AUTH", "asset-token"),
    ("ASSET_SVC_TIMEOUT", "12")].lookup name

def assetProcess : Process := { environ := assetEnviron }

def plainCall : BuildCall := { clientCls := "assets.Client", service := "asset" }

/-- The same client with a header of its own. -/
def headerCall : BuildCall :=
  { plainCall with extraHeaders := some (Dict.empty.set "X-Netix" "1") }

/-- The second call gets the first call's client, without the header that the
client of an uncached call has. -/
theorem extra_header_dropped :
    ((assetProcess.buildClients [plainCall, headerCall])[1]?.map fun answer =>
        answer.toOption.map fun client => client.2.headers.get? "X-Netix") = some (some none) ∧
      ((assetProcess.buildClientUncached headerCall).toOption.map fun config =>
        config.headers.get? "X-Netix") = some (some "1") ∧
      ¬ assetProcess.Transparent [plainCall, headerCall] := by
  refine ⟨by rfl, by rfl, fun h => ?_⟩
  have hagree := (transparent_of_agree_iff _).mp h
  rw [List.pairwise_pair] at hagree
  have hunkeyed := agree_iff.mp hagree _ rfl rfl ⟨_, rfl⟩
  exact absurd (hunkeyed.headers "X-Netix") (by decide)

end Process

end NetixBackend.Http
