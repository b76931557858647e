import NetixBackend.Effects.Rotation
import NetixBackend.Http.ClientCache

/-!
The client cache of a process whose environment and registry change.

A call reads the environment and the registry as they are when it is made, so
the state of the process is an argument of the call. What the cache key holds
is never stale: a client is for the base URL that the call itself resolved.
Everything else that is read, the credential, the timeouts, the flags, is as
old as the client, and nothing but a reset of the cache renews it.
-/

namespace NetixBackend.Http

open Python Effects

/-- A call of `build_client`, and the process as it is then. -/
abbrev LiveCall := Process × BuildCall

def LiveCall.key (call : LiveCall) : Except ConfigurationError CacheKey := call.1.cacheKey call.2

def LiveCall.build (call : LiveCall) : Except ConfigurationError ClientConfig :=
  call.1.buildClientUncached call.2

/-- The cached calls and the resets of a process, from the empty cache on. -/
def liveClients (events : List (MemoEvent LiveCall)) :
    List (Served LiveCall ConfigurationError ClientConfig) :=
  (Memo.serveAll LiveCall.key LiveCall.build {} events).log

variable {call : LiveCall} {key : CacheKey} {config : ClientConfig}

/-! ### What the key settles -/

theorem baseUrl_of_build (hkey : call.key = .ok key) (hbuild : call.build = .ok config) :
    config.baseUrl = key.baseUrl := by
  obtain ⟨baseUrl, hurl, hkey⟩ := exists_of_bind_ok hkey
  obtain ⟨baseUrl', seconds, auth, policy, hreads, rfl⟩ :=
    Process.reads_of_buildClientUncached hbuild
  rw [← Except.ok.inj hkey]
  exact Except.ok.inj (hreads.baseUrl.symm.trans hurl)

theorem baseUrl_of_key (hkey : call.key = .ok key) : call.1.baseUrl call.2 = .ok key.baseUrl := by
  obtain ⟨baseUrl, hurl, hkey⟩ := exists_of_bind_ok hkey
  rw [hurl, ← Except.ok.inj hkey]

/-- What is built first for a key was built by one of its calls. -/
theorem exists_of_firstBuilt {log : List (Served LiveCall ConfigurationError ClientConfig)}
    {epoch : ℕ} (h : Memo.firstBuilt LiveCall.key LiveCall.build log epoch key = some config) :
    ∃ x ∈ log, x.epoch = epoch ∧ x.args.key = .ok key ∧ x.args.build = .ok config := by
  obtain ⟨x, hx, hoffer⟩ := List.exists_of_findSome?_eq_some h
  unfold Memo.offer at hoffer
  split at hoffer
  · rename_i hcase
    refine ⟨x, hx, hcase.1, ?_, ?_⟩
    · cases hkey : x.args.key with
      | ok key' => simpa [hkey, Except.toOption] using hcase.2
      | error e => simp [hkey, Except.toOption] at hcase
    · cases hbuild : x.args.build with
      | ok config' => simpa [hbuild, Except.toOption] using hoffer
      | error e => simp [hbuild, Except.toOption] at hoffer
  · exact absurd hoffer (by simp)

/-! ### Runs -/

/-- However the environment, the registry and the calls change, and whenever
the cache is reset: a client that is handed out is for the base URL that its own
call resolves; it is the one that the first call of its key since the last
reset built, under the environment of that call; a call that fails would fail
uncached; and two calls get one client exactly when they are of one key with no
reset between them. -/
theorem clients_since_reset (events : List (MemoEvent LiveCall)) :
    (∀ x ∈ liveClients events, ∀ id config, x.answer = .ok (id, config) →
      x.args.1.baseUrl x.args.2 = .ok config.baseUrl ∧
        ∃ key, x.args.key = .ok key ∧
          Memo.firstBuilt LiveCall.key LiveCall.build (liveClients events) x.epoch key =
            some config) ∧
      (∀ x ∈ liveClients events, ∀ e, x.answer = .error e →
        x.args.1.buildClientUncached x.args.2 = .error e) ∧
      (liveClients events).Pairwise (Memo.SameObject LiveCall.key) := by
  have hanswers : Memo.Answers LiveCall.key LiveCall.build (liveClients events) :=
    Memo.answers_serveAll events
  refine ⟨fun x hx id config hanswer => ?_, fun x hx e hanswer => ?_, hanswers.objects⟩
  · obtain ⟨key, hkey, hfirst⟩ := hanswers.built x hx (id, config) hanswer
    refine ⟨?_, key, hkey, hfirst⟩
    obtain ⟨y, -, -, hkey', hbuild⟩ := exists_of_firstBuilt hfirst
    rw [baseUrl_of_key hkey, baseUrl_of_build hkey' hbuild]
  · have huncached : Memo.uncached x.args.1.cacheKey x.args.1.buildClientUncached x.args.2 =
        .error e := hanswers.failed x hx e hanswer
    rw [← huncached, Process.uncached_eq]

/-! ### A new token -/

/-- The credential in the environment has been renewed. -/
def renewedProcess : Process where
  environ name := if name = "ASSET_SVC_AUTH" then some "renewed" else Process.assetEnviron name

/-- The old token is sent until the cache is reset. -/
example : ((liveClients [.call (Process.assetProcess, Process.plainCall),
      .call (renewedProcess, Process.plainCall), .clear,
      .call (renewedProcess, Process.plainCall)]).map fun served =>
    served.answer.toOption.bind fun client => client.2.headers.get? "Authorization") =
      [some "asset-token", some "asset-token", some "renewed"] := by rfl

end NetixBackend.Http
