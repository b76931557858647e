import NetixBackend.Asgi.WireSafety
import Mathlib.Data.List.TakeWhile

/-!
The wire of a request by its history.

The state of a request does not tell what was in time, its history does. Up to
the first `wake` the app runs under the ceiling (`untilWoken`), and what it has
done by then settles the case: a request is abandoned exactly when it is woken
with its app still running and its response not started (`Expired`). `Recalled`
relates a request to its history event by event, and the cases of `Answered`
are then read off the history alone.
-/

namespace NetixBackend.Asgi

open Transition

variable {cfg : Config} {past : List RequestEvent} {r r' : Request}

def RequestEvent.isWake : RequestEvent → Bool
  | .wake => true
  | _ => false

/-- The app goes on running, and its response is not started by this. -/
def RequestEvent.IsQuiet : RequestEvent → Prop
  | .send message => message.isStart = false
  | .finish _ => False
  | _ => True

/-- What the app sent. -/
def sends (past : List RequestEvent) : List Message :=
  past.filterMap fun
    | .send message => some message
    | _ => none

/-- The events before the call is woken from `asyncio.wait`. -/
def untilWoken (past : List RequestEvent) : List RequestEvent := past.takeWhile (!·.isWake)

/-- The call was woken with the app running and its response not started. -/
def Expired (past : List RequestEvent) : Prop :=
  .wake ∈ past ∧ ∀ event ∈ untilWoken past, event.IsQuiet

/-- What has reached the server, and what `_reply` will add to it, by the
history of the request. -/
inductive Received (cfg : Config) (past : List RequestEvent) (r : Request) : Prop
  /-- All of the app's messages in order, and nothing else. -/
  | relayed (invoked : r.app ≠ .notInvoked) (unexpired : ¬Expired past)
      (wire : r.wire = sends past) (left : r.left = [])
  /-- What the app sent before it was abandoned, then one 504 pair. -/
  | timedOut (capped : cfg.caps r.scope = true) (invoked : r.app ≠ .notInvoked)
      (expired : Expired past)
      (unstarted : ∀ message ∈ sends (untilWoken past),
        message.isStart = false ∧ message.isBody = false)
      (wire : r.wire ++ r.left = sends (untilWoken past) ++ cfg.timeoutReply r.scope)
  /-- One 503 pair; the app is not invoked. -/
  | shed (capped : cfg.caps r.scope = true) (uninvoked : r.app = .notInvoked)
      (sent : sends past = []) (wire : r.wire ++ r.left = cfg.shedReply r.scope)

/-- What is promised of a request at any time. -/
structure RequestSafe (cfg : Config) (past : List RequestEvent) (r : Request) : Prop where
  received : Received cfg past r
  /-- At most one response is ever started. -/
  single : r.wire.countP Message.isStart ≤ 1
  /-- Outside the ceiling the middleware answers nothing itself. -/
  uncapped : cfg.caps r.scope = false →
    r.wire = sends past ∧ r.app ≠ .notInvoked ∧ ¬Expired past
  /-- The app finished in time: its messages are relayed, and the call ends as
  the app did, at once or as soon as it is woken. -/
  inTime : ∀ outcome, .finish outcome ∈ untilWoken past →
    r.wire = sends past ∧ r.left = [] ∧ (r.phase = .ended outcome ∨
      .wake ∉ past ∧ r.step cfg .wake = some { r with phase := .ended outcome })
  /-- The app had started its response in time: it is relayed to its end. -/
  started : ∀ message, .send message ∈ untilWoken past → message.isStart = true →
    r.wire = sends past ∧ r.left = []
  abandoned : r.abandoned = true ↔ Expired past
  /-- A call that was not cut short ends as its app did: an error the app
  raised is raised to the server. -/
  ended : ∀ outcome, r.phase = .ended outcome → r.app ≠ .notInvoked → ¬Expired past →
    .finish outcome ∈ past

/-! ### A history grows -/

theorem untilWoken_of_not_woken (h : .wake ∉ past) : untilWoken past = past := by
  refine List.takeWhile_eq_self_iff.mpr fun event hmem => ?_
  cases event with
  | wake => exact absurd hmem h
  | _ => rfl

theorem untilWoken_concat_of_woken (h : .wake ∈ past) (event : RequestEvent) :
    untilWoken (past ++ [event]) = untilWoken past := by
  induction past with
  | nil => simp at h
  | cons first past ih =>
      cases hfirst : first.isWake with
      | true => simp [untilWoken, hfirst]
      | false =>
          have hmem : .wake ∈ past := by
            rcases List.mem_cons.mp h with rfl | hmem
            · exact absurd hfirst (by simp [RequestEvent.isWake])
            · exact hmem
          have hrest := ih hmem
          simp only [untilWoken] at hrest
          simp [untilWoken, hfirst, hrest]

theorem untilWoken_concat_wake (past : List RequestEvent) :
    untilWoken (past ++ [.wake]) = untilWoken past := by
  by_cases h : .wake ∈ past
  · exact untilWoken_concat_of_woken h _
  · have hall : ∀ event ∈ past, (!event.isWake) = true :=
      List.takeWhile_eq_self_iff.mp (untilWoken_of_not_woken h)
    rw [untilWoken, List.takeWhile_append_of_pos hall]
    simp [RequestEvent.isWake, untilWoken_of_not_woken h]

theorem mem_of_mem_untilWoken {event : RequestEvent} (h : event ∈ untilWoken past) :
    event ∈ past := List.takeWhile_subset _ h

theorem Expired.untilWoken_concat (h : Expired past) (event : RequestEvent) :
    untilWoken (past ++ [event]) = untilWoken past := untilWoken_concat_of_woken h.1 event

/-- Only waking makes a request expire. -/
theorem expired_concat_iff {event : RequestEvent} (hne : event ≠ .wake) :
    Expired (past ++ [event]) ↔ Expired past := by
  have hmem : .wake ∈ past ++ [event] ↔ .wake ∈ past := by simp [hne.symm]
  rw [Expired, Expired, hmem]
  refine and_congr_right fun hwoken => ?_
  rw [untilWoken_concat_of_woken hwoken]

theorem sends_concat_send (past : List RequestEvent) (message : Message) :
    sends (past ++ [.send message]) = sends past ++ [message] := by
  simp [sends]

theorem mem_sends {message : Message} : message ∈ sends past ↔ .send message ∈ past := by
  rw [sends, List.mem_filterMap]
  constructor
  · rintro ⟨event, hmem, hsome⟩
    cases event <;> simp_all
  · exact fun h => ⟨_, h, rfl⟩

/-! ### A request and its history -/

/-- What the state of a request keeps of its history. -/
structure Recalled (cfg : Config) (past : List RequestEvent) (r : Request) : Prop where
  sent : r.appSent = sends past
  done : ∀ outcome, .finish outcome ∈ past ↔ r.app = .done outcome
  unwoken : .wake ∉ past → r.phase ≠ .awaiting
  woken : .wake ∈ past → r.phase ≠ .waiting ∧ r.phase ≠ .direct
  abandoned : r.abandoned = true ↔ Expired past
  wire : Expired past → r.wire ++ r.left = sends (untilWoken past) ++ cfg.timeoutReply r.scope
  inTime : ∀ outcome, .finish outcome ∈ untilWoken past →
    r.phase = .ended outcome ∨ r.phase = .waiting

theorem Recalled.unfinished (h : Recalled cfg past r) (hrunning : r.app = .running)
    (outcome : Outcome) : .finish outcome ∉ past := by
  rw [h.done, hrunning]
  exact App.noConfusion

theorem Recalled.live (h : Recalled cfg past r) (hunexpired : ¬Expired past) :
    r.abandoned = false :=
  Bool.eq_false_of_not_eq_true fun hmuted => hunexpired (h.abandoned.mp hmuted)

theorem Recalled.unexpired (h : Recalled cfg past r) (hlive : r.abandoned = false) :
    ¬Expired past := fun hexpired =>
  Bool.false_ne_true (hlive.symm.trans (h.abandoned.mpr hexpired))

/-- A call that has not been woken is still waiting for its running app. -/
theorem Recalled.waiting (htracked : Tracked cfg r) (h : Recalled cfg past r)
    (hrunning : r.app = .running) (hphase : r.phase ≠ .direct) (hunwoken : .wake ∉ past) :
    r.phase = .waiting := by
  have hlive := h.live fun hexpired => hunwoken hexpired.1
  cases hcase : r.phase with
  | direct => exact absurd hcase hphase
  | waiting => rfl
  | awaiting => exact absurd hcase (h.unwoken hunwoken)
  | replying left =>
      rcases htracked.replying left hcase with hmuted | hnot
      · exact absurd (hmuted.symm.trans hlive) Bool.noConfusion
      · exact absurd (hrunning.symm.trans hnot) App.noConfusion
  | ended outcome =>
      have happ := htracked.ended outcome hcase hlive (by simp [hrunning])
      exact absurd (hrunning.symm.trans happ) App.noConfusion

theorem Recalled.call (cfg : Config) (abandoned : ℕ) (scope : Scope) :
    Recalled cfg [] (cfg.call abandoned scope) := by
  have hexpired : ¬Expired [] := fun h => absurd h.1 (by simp)
  unfold Config.call
  split
  · exact ⟨rfl, by simp, by simp, by simp, by simp [hexpired], fun h => absurd h hexpired,
      by simp [untilWoken]⟩
  · split
    · exact ⟨rfl, by simp, by simp, by simp, by simp [hexpired], fun h => absurd h hexpired,
        by simp [untilWoken]⟩
    · exact ⟨rfl, by simp, by simp, by simp, by simp [hexpired], fun h => absurd h hexpired,
        by simp [untilWoken]⟩

theorem Recalled.send {message : Message} (htracked : Tracked cfg r) (h : Recalled cfg past r)
    (hturn : r.Turn cfg (.send message) r') : Recalled cfg (past ++ [.send message]) r' := by
  have hexpired := @expired_concat_iff past (.send message) (by simp)
  have hsent : r.appSent ++ [message] = sends (past ++ [.send message]) := by
    rw [sends_concat_send, h.sent]
  have hlate : ∀ outcome, r.app = .running → .finish outcome ∉ untilWoken (past ++ [.send message]) := by
    intro outcome hrunning hmem
    have hpast := mem_of_mem_untilWoken hmem
    simp only [List.mem_append, List.mem_singleton, reduceCtorEq, or_false] at hpast
    exact h.unfinished hrunning outcome hpast
  -- who is muted has expired, and nobody else
  cases hturn with
  | sendDirect _ hrunning hallows hphase =>
      obtain ⟨-, -, hlive⟩ := htracked.answered.of_uncapped (htracked.direct hphase).1
      exact ⟨hsent, by simpa using h.done, by simpa using h.unwoken, by simpa using h.woken,
        h.abandoned.trans hexpired.symm, fun hexp => absurd (hexpired.mp hexp) (h.unexpired hlive),
        fun o ho => absurd ho (hlate o hrunning)⟩
  | sendMuted _ hrunning hallows hphase hmuted =>
      refine ⟨hsent, by simpa using h.done, by simpa using h.unwoken, by simpa using h.woken,
        h.abandoned.trans hexpired.symm, fun hexp => ?_, fun o ho => absurd ho (hlate o hrunning)⟩
      rw [(hexpired.mp hexp).untilWoken_concat]
      exact h.wire (hexpired.mp hexp)
  | relay _ hrunning hallows hphase hlive =>
      exact ⟨hsent, by simpa using h.done, by simpa using h.unwoken, by simpa using h.woken,
        h.abandoned.trans hexpired.symm, fun hexp => absurd (hexpired.mp hexp) (h.unexpired hlive),
        fun o ho => absurd ho (hlate o hrunning)⟩

theorem Recalled.finish {outcome : Outcome} (htracked : Tracked cfg r) (h : Recalled cfg past r)
    (hturn : r.Turn cfg (.finish outcome) r') : Recalled cfg (past ++ [.finish outcome]) r' := by
  have hexpired := @expired_concat_iff past (.finish outcome) (by simp)
  have hsends : sends (past ++ [.finish outcome]) = sends past := by simp [sends]
  have hdone : r.app = .running → ∀ o, .finish o ∈ past ++ [.finish outcome] ↔
      App.done outcome = .done o := by
    intro hrunning o
    have hnone := h.unfinished hrunning o
    simp [hnone, eq_comm]
  -- an app that finishes is running, so it finishes for the first time
  have htimely : r.app = .running → ∀ o, .finish o ∈ untilWoken (past ++ [.finish outcome]) →
      o = outcome ∧ .wake ∉ past := by
    intro hrunning o hmem
    refine ⟨(App.done.inj ((hdone hrunning o).mp (mem_of_mem_untilWoken hmem))).symm,
      fun hwoken => ?_⟩
    rw [untilWoken_concat_of_woken hwoken] at hmem
    exact h.unfinished hrunning o (mem_of_mem_untilWoken hmem)
  cases hturn with
  | finishDirect _ hrunning hphase =>
      have hunwoken : .wake ∉ past := fun hwoken => (h.woken hwoken).2 hphase
      refine ⟨h.sent.trans hsends.symm, hdone hrunning, by simp, by simp,
        h.abandoned.trans hexpired.symm, fun hexp => absurd (hexpired.mp hexp).1 hunwoken,
        fun o hmem => ?_⟩
      rw [(htimely hrunning o hmem).1]
      exact .inl rfl
  | finishApart _ hrunning hphase =>
      refine ⟨h.sent.trans hsends.symm, hdone hrunning, by simpa using h.unwoken,
        by simpa using h.woken, h.abandoned.trans hexpired.symm, fun hexp => ?_, fun o hmem => ?_⟩
      · rw [(hexpired.mp hexp).untilWoken_concat]
        exact h.wire (hexpired.mp hexp)
      · have hwaiting := h.waiting htracked hrunning hphase (htimely hrunning o hmem).2
        exact .inr hwaiting

/-- The call resumes: it is abandoned exactly if nothing has happened that
would settle it otherwise. -/
theorem Recalled.wake (htracked : Tracked cfg r) (h : Recalled cfg past r)
    (hturn : r.Turn cfg .wake r') : Recalled cfg (past ++ [.wake]) r' := by
  have huntil := untilWoken_concat_wake past
  have hsends : sends (past ++ [.wake]) = sends past := by simp [sends]
  have hdone : ∀ o, .finish o ∈ past ++ [.wake] ↔ r.app = .done o := by simpa using h.done
  -- a call that is resumed and not muted has not expired
  have hkeeps : r.phase = .waiting ∨ r.phase = .awaiting → ∀ event ∈ past, ¬event.IsQuiet →
      ¬Expired (past ++ [.wake]) := by
    intro hphase event hmem hloud hexpired
    have hquiet := hexpired.2
    rw [huntil] at hquiet
    by_cases hwoken : .wake ∈ past
    · exact h.unexpired (htracked.watched hphase).2 ⟨hwoken, hquiet⟩
    · rw [untilWoken_of_not_woken hwoken] at hquiet
      exact hloud (hquiet event hmem)
  cases hturn with
  | seeDone outcome hphase happ =>
      have hfinish : .finish outcome ∈ past := (h.done outcome).mpr happ
      have hunexpired := hkeeps hphase _ hfinish (by simp [RequestEvent.IsQuiet])
      refine ⟨h.sent.trans hsends.symm, hdone, by simp, by simp,
        iff_of_false (by simp [(htracked.watched hphase).2]) hunexpired,
        fun hexpired => absurd hexpired hunexpired, fun o hmem => ?_⟩
      have hsame := ((hdone o).mp (mem_of_mem_untilWoken hmem)).symm.trans happ
      exact .inl (congrArg Phase.ended (App.done.inj hsame).symm)
  | seeStarted hphase hrunning hstarted =>
      obtain ⟨hcapped, hlive⟩ := htracked.watched (.inl hphase)
      have hany := (htracked.started hcapped hlive).symm.trans hstarted
      obtain ⟨message, hmem, hstart⟩ := List.any_eq_true.mp hany
      rw [h.sent, mem_sends] at hmem
      have hunexpired := hkeeps (.inl hphase) _ hmem (by simp [RequestEvent.IsQuiet, hstart])
      refine ⟨h.sent.trans hsends.symm, hdone, by simp, by simp,
        iff_of_false (by simp [hlive]) hunexpired, fun hexpired => absurd hexpired hunexpired,
        fun o hmem => ?_⟩
      have happ := (hdone o).mp (mem_of_mem_untilWoken hmem)
      exact absurd (hrunning.symm.trans happ) App.noConfusion
  | abandon hphase hrunning hstarted =>
      obtain ⟨hcapped, hlive⟩ := htracked.watched (.inl hphase)
      have hunwoken : .wake ∉ past := fun hwoken => (h.woken hwoken).1 hphase
      have hwhole : untilWoken (past ++ [.wake]) = past :=
        huntil.trans (untilWoken_of_not_woken hunwoken)
      have hnone := (htracked.started hcapped hlive).symm.trans hstarted
      have hexpired : Expired (past ++ [.wake]) := by
        refine ⟨by simp, fun event hmem => ?_⟩
        rw [hwhole] at hmem
        cases event with
        | send message =>
            rw [← mem_sends, ← h.sent] at hmem
            exact Bool.eq_false_of_not_eq_true (List.any_eq_false.mp hnone message hmem)
        | finish outcome => exact h.unfinished hrunning outcome hmem
        | _ => trivial
      refine ⟨h.sent.trans hsends.symm, hdone, by simp, by simp, iff_of_true rfl hexpired,
        fun _ => ?_, fun o hmem => ?_⟩
      · rw [hwhole, (htracked.relays (by simp [hrunning]) hlive).1, h.sent]
        rfl
      · have happ := (hdone o).mp (mem_of_mem_untilWoken hmem)
        exact absurd (hrunning.symm.trans happ) App.noConfusion

theorem Recalled.reply (h : Recalled cfg past r) (hturn : r.Turn cfg .reply r') :
    Recalled cfg (past ++ [.reply]) r' := by
  have hexpired := @expired_concat_iff past (.reply) (by simp)
  cases hturn with
  | reply message left hphase =>
      have hwire := Request.wire_reply hphase
      refine ⟨h.sent.trans (by simp [sends]), by simpa using h.done, fun _ => ?_, fun _ => ?_,
        h.abandoned.trans hexpired.symm, fun hexp => ?_, fun o hmem => ?_⟩
      · cases left <;> simp
      · cases left <;> simp
      · rw [(hexpired.mp hexp).untilWoken_concat, hwire]
        exact h.wire (hexpired.mp hexp)
      · have hpast : .finish o ∈ untilWoken past := by
          by_cases hwoken : .wake ∈ past
          · rwa [untilWoken_concat_of_woken hwoken] at hmem
          · have hold := mem_of_mem_untilWoken hmem
            rw [untilWoken_of_not_woken hwoken]
            simpa using hold
        rcases h.inTime o hpast with hended | hwaiting
        · exact absurd (hphase.symm.trans hended) Phase.noConfusion
        · exact absurd (hphase.symm.trans hwaiting) Phase.noConfusion

theorem Recalled.step {event : RequestEvent} {id : ℕ} {w : Worker}
    (hguard : uncancelled w (.request id event)) (htracked : Tracked cfg r)
    (h : Recalled cfg past r) (hstep : r.step cfg event = some r') :
    Recalled cfg (past ++ [event]) r' := by
  have hturn := Request.turn_of_step hstep
  cases event with
  | send message => exact h.send htracked hturn
  | finish outcome => exact h.finish htracked hturn
  | wake => exact h.wake htracked hturn
  | reply => exact h.reply hturn
  | cancel => exact hguard.elim

/-! ### Runs -/

theorem Recalled.relayed (htracked : Tracked cfg r) (h : Recalled cfg past r)
    (hinvoked : r.app ≠ .notInvoked) (hunexpired : ¬Expired past) :
    r.wire = sends past ∧ r.left = [] := by
  obtain ⟨hwire, hleft⟩ := htracked.relays hinvoked (h.live hunexpired)
  exact ⟨hwire.trans h.sent, hleft⟩

theorem Recalled.received (htracked : Tracked cfg r) (h : Recalled cfg past r) :
    Received cfg past r := by
  rcases htracked.answered with ⟨hinvoked, hlive, -, -⟩ |
    ⟨before, late, hcapped, hinvoked, hmuted, -, hquiet, hwire⟩ | ⟨hcapped, hnot, hsent, hwire⟩
  · have hunexpired := h.unexpired hlive
    obtain ⟨hwire, hleft⟩ := h.relayed htracked hinvoked hunexpired
    exact .relayed hinvoked hunexpired hwire hleft
  · have hexpired := h.abandoned.mp hmuted
    have hsame := h.wire hexpired
    -- both cuts end where the 504 pair begins
    have hbefore : before = sends (untilWoken past) :=
      List.append_cancel_right (hwire.symm.trans hsame)
    exact .timedOut hcapped hinvoked hexpired (hbefore ▸ hquiet) hsame
  · exact .shed hcapped hnot (h.sent ▸ hsent) hwire

theorem Recalled.safe (htracked : Tracked cfg r) (h : Recalled cfg past r) :
    RequestSafe cfg past r where
  received := h.received htracked
  single := htracked.answered.single htracked.protocol
  uncapped huncapped := by
    obtain ⟨hwire, hinvoked, hlive⟩ := htracked.answered.of_uncapped huncapped
    exact ⟨hwire.trans h.sent, hinvoked, h.unexpired hlive⟩
  inTime outcome hmem := by
    have happ := (h.done outcome).mp (mem_of_mem_untilWoken hmem)
    have hunexpired : ¬Expired past := fun hexpired => hexpired.2 _ hmem
    obtain ⟨hwire, hleft⟩ := h.relayed htracked (by simp [happ]) hunexpired
    refine ⟨hwire, hleft, (h.inTime outcome hmem).imp_right fun hwaiting => ⟨fun hwoken => ?_, ?_⟩⟩
    · exact (h.woken hwoken).1 hwaiting
    · change r.wake cfg = _
      rw [Request.wake, hwaiting, happ]
  started message hmem hstart := by
    have hloud : ¬(RequestEvent.send message).IsQuiet := by simp [RequestEvent.IsQuiet, hstart]
    refine h.relayed htracked (fun hnot => ?_) fun hexpired => hloud (hexpired.2 _ hmem)
    have hsent : message ∈ r.appSent := by
      rw [h.sent, mem_sends]
      exact mem_of_mem_untilWoken hmem
    rw [htracked.unsent hnot] at hsent
    exact absurd hsent (by simp)
  abandoned := h.abandoned
  ended outcome hended hinvoked hunexpired :=
    (h.done outcome).mpr (htracked.ended outcome hended (h.live hunexpired) hinvoked)

/-- Wire safety of every request in every interleaving. -/
theorem requestSafe_of_reachable {w : Worker} {events : List Event}
    (hw : ((ceiling cfg).restrict uncancelled).traced.Reachable (w, events)) :
    ∀ id r, w.requests[id]? = some r → RequestSafe cfg (history id events) r := by
  intro id r hr
  obtain ⟨htracked, hrecalled⟩ := forall_histories_of_reachable
    (P := fun past r => Tracked cfg r ∧ Recalled cfg past r)
    (fun abandoned scope => ⟨.call cfg abandoned scope, .call cfg abandoned scope⟩)
    (fun _ _ _ _ _ _ hguard h hstep => ⟨h.1.step hguard hstep, h.2.step hguard h.1 hstep⟩) hw id r hr
  exact hrecalled.safe htracked

/-- A `GET` that sends a hint, is timed out, and starts its response between
the two messages of the 504. -/
def overtakenRequest : Request where
  scope := { type := "http", method := some "GET" }
  phase := .ended .returned
  app := .done .returned
  abandoned := true
  appSent := [.other "http.response.early_hint", .start 200 [], .body "ok" false]
  wire := [.other "http.response.early_hint",
    .start 504 [("content-type", "text/plain; charset=utf-8")], .body "too late" false]

def overtakenEvents : List Event :=
  [.arrive { type := "http", method := some "GET" },
    .request 0 (.send (.other "http.response.early_hint")), .request 0 .wake, .request 0 .reply,
    .request 0 (.send (.start 200 [])), .request 0 .reply, .request 0 (.send (.body "ok" false)),
    .request 0 (.finish .returned)]

theorem requestSafe_overtakenRequest :
    RequestSafe { errorBody := textMessages, timeoutMessage := "too late" }
      (history 0 overtakenEvents) overtakenRequest := by
  let cfg : Config := { errorBody := textMessages, timeoutMessage := "too late" }
  have hrun : Worker.run cfg {} overtakenEvents = some ⟨[overtakenRequest], {0}⟩ := rfl
  have hinit : ((ceiling cfg).restrict uncancelled).traced.Reachable ({}, []) :=
    .of_init ⟨rfl, rfl⟩
  refine requestSafe_of_reachable (traced_run hinit ?_ hrun) 0 overtakenRequest rfl
  intro w event hevent
  simp only [overtakenEvents, List.mem_cons, List.not_mem_nil, or_false] at hevent
  rcases hevent with rfl | rfl | rfl | rfl | rfl | rfl | rfl | rfl <;> trivial

end NetixBackend.Asgi
