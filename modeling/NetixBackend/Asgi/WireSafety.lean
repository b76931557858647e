import NetixBackend.Asgi.Timeout

/-!
What the server receives for one request.

Three cases exclude each other by whether the app was invoked and whether it
was abandoned (`Answered`): the app's own messages, the app's messages up to
its abandonment followed by the 504 pair, or the 503 pair alone. `Tracked` is
the invariant of one request behind it: besides the case it relates the
channel's flags and the phase of the call to what the app has sent and to how
it ended. The argument about the race is in one place, `Tracked.wake`: the
call looks at the app task and at `started` and mutes the channel without
giving way, so a response that has not started by then never will.
-/

namespace NetixBackend.Asgi

open Python Transition

variable {cfg : Config} {r r' : Request}

def Request.left (r : Request) : List Message :=
  match r.phase with
  | .replying left => left
  | _ => []

/-- What has reached the server, and what `_reply` will add to it. -/
inductive Answered (cfg : Config) (r : Request) : Prop
  /-- All of the app's messages in order, and nothing else. -/
  | relayed (invoked : r.app ≠ .notInvoked) (live : r.abandoned = false)
      (wire : r.wire = r.appSent) (left : r.left = [])
  /-- The app's messages before any start, then one 504 pair. -/
  | timedOut (before late : List Message) (capped : cfg.caps r.scope = true)
      (invoked : r.app ≠ .notInvoked) (muted : r.abandoned = true)
      (sent : r.appSent = before ++ late)
      (unstarted : ∀ message ∈ before, message.isStart = false ∧ message.isBody = false)
      (wire : r.wire ++ r.left = before ++ cfg.timeoutReply r.scope)
  /-- One 503 pair; the app is not invoked. -/
  | shed (capped : cfg.caps r.scope = true) (uninvoked : r.app = .notInvoked)
      (sent : r.appSent = []) (wire : r.wire ++ r.left = cfg.shedReply r.scope)

/-- The app kept to the protocol so far. -/
structure Protocol (sent : List Message) : Prop where
  starts : sent.countP Message.isStart ≤ 1
  bodies : ∀ message ∈ sent, message.isBody = true → sent.any Message.isStart = true

structure Tracked (cfg : Config) (r : Request) : Prop where
  answered : Answered cfg r
  protocol : Protocol r.appSent
  /-- Only a call outside the ceiling is inside the app. -/
  direct : r.phase = .direct → cfg.caps r.scope = false ∧ r.app = .running
  watched : r.phase = .waiting ∨ r.phase = .awaiting →
    cfg.caps r.scope = true ∧ r.abandoned = false
  replying : ∀ left, r.phase = .replying left → r.abandoned = true ∨ r.app = .notInvoked
  /-- The channel saw every start, until it was muted. -/
  started : cfg.caps r.scope = true → r.abandoned = false →
    r.started = r.appSent.any Message.isStart
  ended : ∀ outcome, r.phase = .ended outcome → r.abandoned = false → r.app ≠ .notInvoked →
    r.app = .done outcome

/-! ### One step of one request -/

theorem Protocol.send (h : Protocol r.appSent) {message : Message}
    (hallows : r.allows message = true) : Protocol (r.appSent ++ [message]) := by
  unfold Request.allows at hallows
  have hstarts := h.starts
  refine ⟨?_, fun m hm hbody => ?_⟩
  · rw [List.countP_append, List.countP_singleton]
    cases hstart : message.isStart with
    | false => simpa using hstarts
    | true =>
        have hnone : r.appSent.countP Message.isStart = 0 := by
          rw [List.countP_eq_zero]
          simpa [hstart] using hallows
        simp [hnone]
  · rw [List.any_append]
    rcases List.mem_append.mp hm with hm | hm
    · rw [h.bodies m hm hbody, Bool.true_or]
    · obtain rfl := List.mem_singleton.mp hm
      have hnot : m.isStart = false := by cases m <;> simp_all [Message.isStart, Message.isBody]
      rw [hnot, hbody] at hallows
      rw [if_neg Bool.false_ne_true, if_pos rfl] at hallows
      rw [hallows, Bool.true_or]

/-- A call whose app runs unmuted relays. -/
theorem Tracked.relays (h : Tracked cfg r) (hinvoked : r.app ≠ .notInvoked)
    (hlive : r.abandoned = false) : r.wire = r.appSent ∧ r.left = [] := by
  rcases h.answered with ⟨-, -, hwire, hleft⟩ | ⟨before, late, -, -, hmuted, -⟩ | ⟨-, hnot, -⟩
  · exact ⟨hwire, hleft⟩
  · rw [hlive] at hmuted
    exact absurd hmuted Bool.false_ne_true
  · exact absurd hnot hinvoked

/-- A call whose app is not invoked has nothing from it. -/
theorem Tracked.unsent (h : Tracked cfg r) (hnot : r.app = .notInvoked) : r.appSent = [] := by
  rcases h.answered with ⟨hinvoked, -⟩ | ⟨before, late, -, hinvoked, -⟩ | ⟨-, -, hsent, -⟩
  · exact absurd hnot hinvoked
  · exact absurd hnot hinvoked
  · exact hsent

theorem Tracked.call (cfg : Config) (abandoned : ℕ) (scope : Scope) :
    Tracked cfg (cfg.call abandoned scope) := by
  have hprotocol : Protocol [] := ⟨by simp, by simp⟩
  unfold Config.call
  split
  · rename_i hcaps
    refine ⟨.relayed (by simp) rfl rfl rfl, hprotocol, fun _ => ⟨by simpa using hcaps, rfl⟩, ?_, ?_,
      fun _ _ => rfl, ?_⟩ <;> simp
  · rename_i hcaps
    have hcapped : cfg.caps scope = true := by simpa using hcaps
    split
    · refine ⟨.shed hcapped rfl rfl rfl, hprotocol, ?_, ?_, fun _ _ => .inr rfl, fun _ _ => rfl, ?_⟩ <;>
        simp
    · refine ⟨.relayed (by simp) rfl rfl rfl, hprotocol, ?_, fun _ => ⟨hcapped, rfl⟩, ?_,
        fun _ _ => rfl, ?_⟩ <;> simp

/-- Outside the ceiling the app's messages are relayed. -/
theorem Answered.of_uncapped (h : Answered cfg r) (huncapped : cfg.caps r.scope = false) :
    r.wire = r.appSent ∧ r.app ≠ .notInvoked ∧ r.abandoned = false := by
  rcases h with ⟨hinvoked, hlive, hwire, -⟩ | ⟨before, late, hcapped, -⟩ | ⟨hcapped, -⟩
  · exact ⟨hwire, hinvoked, hlive⟩
  · exact absurd (hcapped.symm.trans huncapped) Bool.noConfusion
  · exact absurd (hcapped.symm.trans huncapped) Bool.noConfusion

theorem Tracked.send {message : Message} (h : Tracked cfg r)
    (hturn : r.Turn cfg (.send message) r') : Tracked cfg r' := by
  cases hturn with
  | sendDirect _ hrunning hallows hphase =>
      obtain ⟨huncapped, -⟩ := h.direct hphase
      obtain ⟨-, hinvoked, hlive⟩ := h.answered.of_uncapped huncapped
      obtain ⟨hwire, hleft⟩ := h.relays hinvoked hlive
      exact ⟨.relayed hinvoked hlive (by rw [hwire]) hleft, h.protocol.send hallows, h.direct,
        h.watched, h.replying,
        fun hcapped => absurd (hcapped.symm.trans huncapped) Bool.noConfusion, h.ended⟩
  | sendMuted _ hrunning hallows hphase hmuted =>
      have hinvoked : r.app ≠ .notInvoked := by simp [hrunning]
      rcases h.answered with ⟨-, hlive, -⟩ | ⟨before, late, hcapped, -, -, hsent, hquiet, hwire⟩ |
        ⟨-, hnot, -⟩
      · exact absurd (hmuted.symm.trans hlive) Bool.noConfusion
      · refine ⟨.timedOut before (late ++ [message]) hcapped hinvoked hmuted ?_ hquiet hwire,
          h.protocol.send hallows, h.direct, h.watched, h.replying, ?_, h.ended⟩
        · rw [hsent, List.append_assoc]
        · exact fun _ hlive => absurd (hmuted.symm.trans hlive) Bool.noConfusion
      · exact absurd hnot hinvoked
  | relay _ hrunning hallows hphase hlive =>
      have hinvoked : r.app ≠ .notInvoked := by simp [hrunning]
      obtain ⟨hwire, hleft⟩ := h.relays hinvoked hlive
      refine ⟨.relayed hinvoked hlive (by rw [hwire]) hleft, h.protocol.send hallows, h.direct,
        h.watched, h.replying, fun hcapped _ => ?_, h.ended⟩
      simp [h.started hcapped hlive]

/-- The case a request is in does not change when its app finishes. -/
theorem Answered.finish {outcome : Outcome} {phase : Phase} (h : Answered cfg r)
    (hrunning : r.app = .running)
    (hphase : phase = r.phase ∨ (r.phase = .direct ∧ phase = .ended outcome)) :
    Answered cfg { r with app := .done outcome, phase := phase } := by
  have hleft : Request.left { r with app := .done outcome, phase := phase } = r.left := by
    rcases hphase with rfl | ⟨hdirect, rfl⟩
    · rfl
    · simp [Request.left, hdirect]
  rcases h with ⟨-, hlive, hwire, hnone⟩ |
    ⟨before, late, hcapped, -, hmuted, hsent, hquiet, hwire⟩ | ⟨-, hnot, -⟩
  · exact .relayed (by simp) hlive hwire (hleft.trans hnone)
  · exact .timedOut before late hcapped (by simp) hmuted hsent hquiet (by rw [hleft]; exact hwire)
  · exact absurd (hrunning.symm.trans hnot) App.noConfusion

theorem Tracked.finish {outcome : Outcome} (h : Tracked cfg r)
    (hturn : r.Turn cfg (.finish outcome) r') : Tracked cfg r' := by
  cases hturn with
  | finishDirect _ hrunning hphase =>
      refine ⟨h.answered.finish hrunning (.inr ⟨hphase, rfl⟩), h.protocol, ?_, ?_, ?_, h.started, ?_⟩
      · simp
      · simp
      · simp
      · intro outcome' hended _ _
        rw [Phase.ended.inj hended]
  | finishApart _ hrunning hphase =>
      have hinvoked : r.app ≠ .notInvoked := by simp [hrunning]
      refine ⟨h.answered.finish hrunning (.inl rfl), h.protocol,
        fun hdirect => absurd hdirect hphase, h.watched, fun left hleft => ?_, h.started,
        fun outcome' hended hlive _ => ?_⟩
      · exact .inl ((h.replying left hleft).resolve_right hinvoked)
      · have hdone := h.ended outcome' hended hlive hinvoked
        simp [hrunning] at hdone

/-- The call resumes: it sees the app done, or started, or mutes it before
anything else can happen. -/
theorem Tracked.wake (h : Tracked cfg r) (hturn : r.Turn cfg .wake r') : Tracked cfg r' := by
  cases hturn with
  | seeDone outcome hphase happ =>
      obtain ⟨hcapped, hlive⟩ := h.watched hphase
      obtain ⟨hwire, -⟩ := h.relays (by simp [happ]) hlive
      refine ⟨.relayed (by simp [happ]) hlive hwire rfl, h.protocol, ?_, ?_, ?_, h.started, ?_⟩
      · simp
      · simp
      · simp
      · intro outcome' hended _ _
        rw [happ, Phase.ended.inj hended]
  | seeStarted hphase hrunning hstarted =>
      obtain ⟨hcapped, hlive⟩ := h.watched (.inl hphase)
      obtain ⟨hwire, -⟩ := h.relays (by simp [hrunning]) hlive
      refine ⟨.relayed (by simp [hrunning]) hlive hwire rfl, h.protocol, ?_,
        fun _ => ⟨hcapped, hlive⟩, ?_, h.started, ?_⟩ <;> simp
  | abandon hphase hrunning hstarted =>
      obtain ⟨hcapped, hlive⟩ := h.watched (.inl hphase)
      obtain ⟨hwire, -⟩ := h.relays (by simp [hrunning]) hlive
      have hunstarted : r.appSent.any Message.isStart = false :=
        (h.started hcapped hlive).symm.trans hstarted
      refine ⟨.timedOut r.appSent [] hcapped (by simp [hrunning]) rfl (by simp) (fun m hm => ?_) ?_,
        h.protocol, ?_, ?_, fun _ _ => .inl rfl, ?_, ?_⟩
      · refine ⟨by simpa using List.any_eq_false.mp hunstarted m hm, ?_⟩
        cases hbody : m.isBody with
        | false => rfl
        | true => exact absurd ((h.protocol.bodies m hm hbody).symm.trans hunstarted) Bool.noConfusion
      · rw [hwire]
        rfl
      · simp
      · simp
      · simp
      · simp

/-- A reply moves a message from what is left to the wire. -/
theorem Request.wire_reply {message : Message} {left : List Message}
    (hphase : r.phase = .replying (message :: left)) :
    (r.wire ++ [message]) ++ Request.left
        { r with
          wire := r.wire ++ [message]
          phase := if left.isEmpty then .ended .returned else .replying left } =
      r.wire ++ r.left := by
  have hleft : r.left = message :: left := by simp [Request.left, hphase]
  rw [hleft]
  cases left <;> simp [Request.left]

theorem Tracked.reply (h : Tracked cfg r) (hturn : r.Turn cfg .reply r') : Tracked cfg r' := by
  cases hturn with
  | reply message left hphase =>
      have hleft : r.left = message :: left := by simp [Request.left, hphase]
      have hwire := Request.wire_reply hphase
      have hmuted := h.replying _ hphase
      refine ⟨?_, h.protocol, ?_, ?_, fun _ _ => hmuted, h.started, ?_⟩
      · rcases h.answered with ⟨-, -, -, hnone⟩ |
          ⟨before, late, hcapped, hinvoked, hmuted, hsent, hquiet, hsame⟩ |
          ⟨hcapped, hnot, hsent, hsame⟩
        · rw [hleft] at hnone
          exact absurd hnone (List.cons_ne_nil _ _)
        · exact .timedOut before late hcapped hinvoked hmuted hsent hquiet (hwire.trans hsame)
        · exact .shed hcapped hnot hsent (hwire.trans hsame)
      · cases left <;> simp
      · cases left <;> simp
      · intro outcome _ hlive hinvoked
        rcases hmuted with hmuted | hnot
        · exact absurd (hmuted.symm.trans hlive) Bool.noConfusion
        · exact absurd hnot hinvoked

/-! ### One response at most -/

theorem countP_reply (renderer : ErrorRenderer) (status : ℤ) (message : String) (scope : Scope)
    (retryAfter : Option ℤ) :
    (pairList (renderer.render status message scope retryAfter)).countP Message.isStart = 1 := by
  obtain ⟨headers, hstart⟩ := renderer.start status message scope retryAfter
  obtain ⟨text, hbody⟩ := renderer.body status message scope retryAfter
  rw [pairList, hstart, hbody]
  rfl

theorem Answered.single (h : Answered cfg r) (hprotocol : Protocol r.appSent) :
    r.wire.countP Message.isStart ≤ 1 := by
  rcases h with ⟨-, -, hwire, -⟩ | ⟨before, late, -, -, -, -, hquiet, hwire⟩ | ⟨-, -, -, hwire⟩
  · rw [hwire]
    exact hprotocol.starts
  · have hbefore : before.countP Message.isStart = 0 :=
      List.countP_eq_zero.mpr fun m hm => by simp [(hquiet m hm).1]
    have htotal := congrArg (List.countP Message.isStart) hwire
    rw [List.countP_append, List.countP_append, hbefore, Config.timeoutReply, countP_reply] at htotal
    omega
  · have htotal := congrArg (List.countP Message.isStart) hwire
    rw [List.countP_append, Config.shedReply, countP_reply] at htotal
    omega

/-! ### Any step -/

/-- App sends, app completion and failure, and timer expiry; no call is
cancelled by the server. -/
def uncancelled (_ : Worker) : Event → Prop
  | .request _ .cancel => False
  | _ => True

theorem Tracked.step {event : RequestEvent} {id : ℕ} {w : Worker}
    (hguard : uncancelled w (.request id event)) (h : Tracked cfg r)
    (hstep : r.step cfg event = some r') : Tracked cfg r' := by
  have hturn := Request.turn_of_step hstep
  cases event with
  | send message => exact h.send hturn
  | finish outcome => exact h.finish hturn
  | wake => exact h.wake hturn
  | reply => exact h.reply hturn
  | cancel => exact hguard.elim

end NetixBackend.Asgi
