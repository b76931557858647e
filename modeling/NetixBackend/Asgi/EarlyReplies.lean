import NetixBackend.Asgi.WireSafety
import NetixBackend.Transition.Ranking

/-!
Who may read the replies of the request ceiling.

A reply that the middleware sends itself never passes the project's CORS
middleware, so `cors_headers` writes the headers that one would have added.
What they are for is a check in the browser (`corsCheck`): a page may read the
response if its own origin is allowed, and, where the request carried
credentials, if those are allowed too. Whatever else goes on in the worker,
that check comes out as the settings say, for the origin of the very request
that is answered. The one exception is a project that allows all origins: its
replies carry the wildcard, which no request with credentials may be answered
by. The older plain-text replies carry no such headers, and no page may read
them.
-/

namespace NetixBackend.Asgi

open Python Transition

variable {cfg : Config} {settings : Settings} {scope : Scope} {r r' : Request} {w : Worker}

/-! ### The headers of one reply -/

/-- A response that is started early is that of a reply to this request. -/
structure OwnReply (cfg : Config) (r : Request) : Prop where
  shed : r.app = .notInvoked → ∀ message ∈ r.wire ++ r.left, message ∈ cfg.shedReply r.scope
  timedOut : r.abandoned = true → ∀ message ∈ r.wire ++ r.left, message.isStart = true →
    message ∈ cfg.timeoutReply r.scope
  direct : r.phase = .direct → r.abandoned = false
  unstarted : r.phase = .waiting → r.started = false →
    ∀ message ∈ r.wire, message.isStart = false

theorem OwnReply.call (cfg : Config) (abandoned : ℕ) (scope : Scope) :
    OwnReply cfg (cfg.call abandoned scope) := by
  unfold Config.call
  split
  · exact ⟨by simp, by simp, fun _ => rfl, by simp⟩
  · split
    · exact ⟨fun _ message hmem => by simpa [Request.left] using hmem, by simp, by simp, by simp⟩
    · exact ⟨by simp, by simp, by simp, by simp⟩

theorem OwnReply.step {event : RequestEvent} (h : OwnReply cfg r)
    (hstep : r.step cfg event = some r') : OwnReply cfg r' := by
  cases Request.turn_of_step hstep with
  | sendDirect message hrunning hallows hphase =>
      have hlive := h.direct hphase
      exact ⟨by simp [hrunning], by simp [hlive], fun _ => hlive, by simp [hphase]⟩
  | sendMuted message hrunning hallows hphase hmuted =>
      exact ⟨h.shed, h.timedOut, h.direct, h.unstarted⟩
  | relay message hrunning hallows hphase hlive =>
      refine ⟨by simp [hrunning], by simp [hlive], fun hdirect => absurd hdirect hphase, ?_⟩
      intro hwaiting hstarted m hm
      obtain ⟨hbefore, hstart⟩ := Bool.or_eq_false_iff.mp hstarted
      rcases List.mem_append.mp hm with hm | hm
      · exact h.unstarted hwaiting hbefore m hm
      · exact List.mem_singleton.mp hm ▸ hstart
  | finishDirect outcome hrunning hphase =>
      have hlive := h.direct hphase
      exact ⟨by simp, by simp [hlive], by simp, by simp⟩
  | finishApart outcome hrunning hphase => exact ⟨by simp, h.timedOut, h.direct, h.unstarted⟩
  | seeDone outcome hphase happ =>
      refine ⟨by simp [happ], fun hmuted message hmem => ?_, by simp, by simp⟩
      exact h.timedOut hmuted message (List.mem_append_left _ (by simpa [Request.left] using hmem))
  | seeStarted hphase hrunning hstarted =>
      refine ⟨by simp [hrunning], fun hmuted message hmem => ?_, by simp, by simp⟩
      exact h.timedOut hmuted message (List.mem_append_left _ (by simpa [Request.left] using hmem))
  | abandon hphase hrunning hstarted =>
      -- nothing has started, so what starts now is the reply
      refine ⟨by simp [hrunning], fun _ message hmem hstart => ?_, by simp, by simp⟩
      rcases List.mem_append.mp hmem with hmem | hmem
      · have hquiet := h.unstarted hphase hstarted message hmem
        exact absurd (hstart.symm.trans hquiet) Bool.noConfusion
      · exact hmem
  | reply message left hphase =>
      have hsame : ∀ m ∈ r.wire ++ [message] ++ Request.left { r with
          wire := r.wire ++ [message]
          phase := if left.isEmpty then .ended .returned else .replying left },
          m ∈ r.wire ++ r.left := by
        cases left <;> simp [Request.left, hphase]
      refine ⟨fun hnot m hmem => h.shed hnot m (hsame m hmem),
        fun hmuted m hmem => h.timedOut hmuted m (hsame m hmem), ?_, ?_⟩
      · cases left <;> simp
      · cases left <;> simp
  | cancel hphase =>
      have hsame : ∀ m ∈ r.wire ++ Request.left { r with phase := .ended .cancelled },
          m ∈ r.wire ++ r.left := fun m hmem =>
        List.mem_append_left _ (by simpa [Request.left] using hmem)
      exact ⟨fun hnot m hmem => h.shed hnot m (hsame m hmem),
        fun hmuted m hmem => h.timedOut hmuted m (hsame m hmem), by simp, by simp⟩

end NetixBackend.Asgi
