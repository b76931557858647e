import NetixBackend.Asgi.AbandonedPool
import NetixBackend.Asgi.WireSafety

/-!
Whose work is still running.

When a middleware call ends its app task is done, or it runs on as an
abandoned one: muted, and in `_abandoned` until its completion callback takes
it out (`Accounted`). `Kept` is what makes it so for one request, `Counted`
for the worker and the events so far. One exit breaks it. A call that the
server cancels in `asyncio.wait` leaves its app task running behind it, not
muted and in no set; every other cancellation keeps the account.
-/

namespace NetixBackend.Asgi

open Python Transition

/-- The 504 of an abandoned request: on the wire after the app's own messages,
none of them a start, as far as the call has come with sending it; what is left
of it is lost only if the call is cancelled then. -/
def TimedOut (cfg : Config) (r : Request) : Prop :=
  ∃ before sent, r.wire = before ++ sent ∧ (∀ message ∈ before, message.isStart = false) ∧
    sent <+: cfg.timeoutReply r.scope ∧
    (r.phase ≠ .ended .cancelled → sent ++ r.left = cfg.timeoutReply r.scope)

/-- The account of a worker after those events. -/
structure Accounted (cfg : Config) (w : Worker) (events : List Event) : Prop where
  /-- An app task that outlives its call is abandoned and muted. -/
  running : ∀ id r, w.requests[id]? = some r → r.app = .running →
    ∀ outcome, r.phase = .ended outcome → id ∈ w.abandoned ∧ r.abandoned = true
  /-- What is in the set was answered 504, and its callback has not run. -/
  answered : ∀ id ∈ w.abandoned,
    .callback id ∉ events ∧ ∃ r, w.requests[id]? = some r ∧ TimedOut cfg r
  drained : (∀ id r, w.requests[id]? = some r →
    r.app ≠ .running ∧ (r.abandoned = true → .callback id ∈ events)) → w.abandoned = ∅

/-- The condition on a step: the server cancels no call that is in
`asyncio.wait` with its app running. -/
def watchesOn (w : Worker) : Event → Prop
  | .request id .cancel => ∀ r, w.requests[id]? = some r → r.phase = .waiting → r.app ≠ .running
  | _ => True

structure Kept (cfg : Config) (r : Request) : Prop where
  /-- Only a call that has given up mutes the channel. -/
  live : r.phase = .direct ∨ r.phase = .waiting ∨ r.phase = .awaiting → r.abandoned = false
  unstarted : r.phase = .waiting → r.started = false →
    ∀ message ∈ r.wire, message.isStart = false
  /-- Past its await, a call whose app still runs has abandoned it. -/
  past : r.app = .running →
    (∃ left, r.phase = .replying left) ∨ (∃ outcome, r.phase = .ended outcome) →
      r.abandoned = true
  timedOut : r.abandoned = true → TimedOut cfg r

variable {cfg : Config} {w w' : Worker} {r r' : Request} {events : List Event}

/-! ### One request -/

theorem Kept.call (cfg : Config) (abandoned : ℕ) (scope : Scope) :
    Kept cfg (cfg.call abandoned scope) := by
  unfold Config.call
  split
  · exact ⟨fun _ => rfl, by simp, by simp, by simp⟩
  · split
    · exact ⟨fun _ => rfl, by simp, by simp, by simp⟩
    · exact ⟨fun _ => rfl, by simp, by simp, by simp⟩

/-- Nothing is to be shown of a 504 while the channel is live. -/
theorem Kept.of_live (hlive : r.abandoned = false)
    (hunstarted : r.phase = .waiting → r.started = false →
      ∀ message ∈ r.wire, message.isStart = false)
    (hpast : r.app = .running → (∃ left, r.phase = .replying left) ∨
      (∃ outcome, r.phase = .ended outcome) → r.abandoned = true) : Kept cfg r :=
  ⟨fun _ => hlive, hunstarted, hpast,
    fun hmuted => absurd (hmuted.symm.trans hlive) Bool.noConfusion⟩

/-- A call that is not in `asyncio.wait` over a running app may be cancelled. -/
theorem Kept.step {event : RequestEvent} (h : Kept cfg r)
    (hwatched : event = .cancel → r.phase = .waiting → r.app ≠ .running)
    (hstep : r.step cfg event = some r') : Kept cfg r' := by
  cases Request.turn_of_step hstep with
  | sendDirect message hrunning hallows hphase =>
      refine .of_live (h.live (.inl hphase)) (fun hwaiting => ?_) h.past
      exact absurd (hphase.symm.trans hwaiting) Phase.noConfusion
  | sendMuted => exact ⟨h.live, h.unstarted, h.past, h.timedOut⟩
  | relay message hrunning hallows hphase hlive =>
      refine .of_live hlive (fun hwaiting hstarted m hm => ?_) h.past
      obtain ⟨hbefore, hstart⟩ := Bool.or_eq_false_iff.mp hstarted
      rcases List.mem_append.mp hm with hm | hm
      · exact h.unstarted hwaiting hbefore m hm
      · exact List.mem_singleton.mp hm ▸ hstart
  | finishDirect outcome hrunning hphase =>
      exact .of_live (h.live (.inl hphase)) (by simp) (by simp)
  | finishApart => exact ⟨h.live, h.unstarted, by simp, h.timedOut⟩
  | seeDone outcome hphase happ =>
      have hlive := h.live (.inr hphase)
      exact .of_live hlive (by simp) (by simp [happ])
  | seeStarted hphase hrunning hstarted =>
      exact .of_live (h.live (.inr (.inl hphase))) (by simp) (by simp)
  | abandon hphase hrunning hstarted =>
      -- the one turn that mutes: nothing has started, and the reply is still to be sent
      refine ⟨by simp, by simp, fun _ _ => rfl, fun _ => ?_⟩
      exact ⟨r.wire, [], (List.append_nil _).symm, h.unstarted hphase hstarted, List.nil_prefix,
        fun _ => rfl⟩
  | reply message left hphase =>
      have hpast : r.app = .running → r.abandoned = true := fun happ => h.past happ (.inl ⟨_, hphase⟩)
      refine ⟨?_, ?_, fun happ _ => hpast happ, fun hmuted => ?_⟩
      · cases left <;> simp
      · cases left <;> simp
      · obtain ⟨before, sent, hwire, hquiet, -, hrest⟩ := h.timedOut hmuted
        have hreply : sent ++ message :: left = cfg.timeoutReply r.scope := by
          simpa [Request.left, hphase] using hrest
        have hsent : (sent ++ [message]) ++ left = cfg.timeoutReply r.scope := by
          rw [← hreply, List.append_assoc]
          rfl
        refine ⟨before, sent ++ [message], ?_, hquiet, ⟨left, hsent⟩, fun _ => ?_⟩
        · simp only [hwire, List.append_assoc]
        · cases left with
          | nil => exact hsent
          | cons => exact hsent
  | cancel hphase =>
      rcases hphase with hphase | ⟨left, hphase⟩
      · exact .of_live (h.live (.inr (.inl hphase))) (by simp)
          fun happ => absurd happ (hwatched rfl hphase)
      · refine ⟨by simp, by simp, fun happ _ => h.past happ (.inl ⟨left, hphase⟩), fun hmuted => ?_⟩
        obtain ⟨before, sent, hwire, hquiet, hprefix, -⟩ := h.timedOut hmuted
        exact ⟨before, sent, hwire, hquiet, hprefix, fun hphase => absurd rfl hphase⟩

/-- No step unmutes a channel or starts a finished app again. -/
structure Onward (r r' : Request) : Prop where
  muted : r.abandoned = true → r'.abandoned = true
  app : r'.app = .running → r.app = .running

theorem onward_of_step {event : RequestEvent} (hstep : r.step cfg event = some r') :
    Onward r r' := by
  cases Request.turn_of_step hstep with
  | finishDirect _ hrunning | finishApart _ hrunning => exact ⟨id, fun _ => hrunning⟩
  | abandon => exact ⟨fun _ => rfl, id⟩
  | sendDirect | sendMuted | relay | seeDone | seeStarted | reply | cancel => exact ⟨id, id⟩

/-! ### The worker -/

/-- The invariant behind the account. -/
structure Counted (cfg : Config) (w : Worker) (events : List Event) : Prop where
  kept : ∀ r ∈ w.requests, Kept cfg r
  pooled : ∀ id r, w.requests[id]? = some r → r.abandoned = true →
    id ∈ w.abandoned ∨ .callback id ∈ events
  muted : ∀ id ∈ w.abandoned, .callback id ∉ events ∧
    ∃ r, w.requests[id]? = some r ∧ r.abandoned = true
  finished : ∀ id, .callback id ∈ events →
    ∃ r, w.requests[id]? = some r ∧ r.abandoned = true ∧ r.app ≠ .running

theorem Counted.accounted (h : Counted cfg w events) : Accounted cfg w events where
  running id r hget happ outcome hphase := by
    have hmuted := (h.kept r (List.mem_of_getElem? hget)).past happ (.inr ⟨outcome, hphase⟩)
    refine ⟨(h.pooled id r hget hmuted).resolve_right fun hran => ?_, hmuted⟩
    obtain ⟨r', hget', -, hdone⟩ := h.finished id hran
    exact hdone (Option.some.inj (hget'.symm.trans hget) ▸ happ)
  answered id hid := by
    obtain ⟨hran, r, hget, hmuted⟩ := h.muted id hid
    exact ⟨hran, r, hget, (h.kept r (List.mem_of_getElem? hget)).timedOut hmuted⟩
  drained hall := by
    rw [Finset.eq_empty_iff_forall_notMem]
    intro id hid
    obtain ⟨hran, r, hget, hmuted⟩ := h.muted id hid
    exact hran ((hall id r hget).2 hmuted)

theorem Counted.arrive (h : Counted cfg w events) (scope : Scope) :
    Counted cfg { w with requests := w.requests ++ [cfg.call w.abandoned.card scope] }
      (events ++ [.arrive scope]) := by
  have hold : ∀ {id : ℕ} {r : Request}, w.requests[id]? = some r →
      (w.requests ++ [cfg.call w.abandoned.card scope])[id]? = some r := fun hget => by
    rw [List.getElem?_append_left (List.getElem?_eq_some_iff.mp hget).1, hget]
  have hfresh : (cfg.call w.abandoned.card scope).abandoned = false := by
    unfold Config.call
    split
    · rfl
    · split <;> rfl
  refine ⟨fun r hr => ?_, fun id r hget hmuted => ?_, fun id hid => ?_, fun id hran => ?_⟩
  · rcases List.mem_append.mp hr with hr | hr
    · exact h.kept r hr
    · exact List.mem_singleton.mp hr ▸ Kept.call cfg _ scope
  · rw [List.getElem?_append] at hget
    split at hget
    · exact (h.pooled id r hget hmuted).imp_right (List.mem_append_left _)
    · have hr := List.mem_singleton.mp (List.mem_of_getElem? hget)
      exact absurd (hmuted.symm.trans (hr ▸ hfresh)) Bool.noConfusion
  · obtain ⟨hran, r, hget, hmuted⟩ := h.muted id hid
    exact ⟨by simpa using hran, r, hold hget, hmuted⟩
  · obtain ⟨r, hget, hrest⟩ := h.finished id (by simpa using hran)
    exact ⟨r, hold hget, hrest⟩

/-- `_abandoned` after a step of one request. -/
theorem mem_joined_iff {other id : ℕ} {abandoned : Finset ℕ} :
    other ∈ (if r'.abandoned && !r.abandoned then insert id abandoned else abandoned) ↔
      other ∈ abandoned ∨ (other = id ∧ r'.abandoned = true ∧ r.abandoned = false) := by
  split
  · rename_i hnew
    have hjoins : r'.abandoned = true ∧ r.abandoned = false := by simpa using hnew
    rw [Finset.mem_insert, or_comm, and_iff_left hjoins]
  · rename_i hold
    refine (or_iff_left fun ⟨_, hnow, hbefore⟩ => hold ?_).symm
    rw [hnow, hbefore]
    rfl

theorem Counted.request (h : Counted cfg w events) {id : ℕ} {event : RequestEvent}
    (hguard : watchesOn w (.request id event)) (hget : w.requests[id]? = some r)
    (hstep : r.step cfg event = some r') :
    Counted cfg
      { requests := w.requests.set id r'
        abandoned := if r'.abandoned && !r.abandoned then insert id w.abandoned else w.abandoned }
      (events ++ [.request id event]) := by
  have honward := onward_of_step hstep
  have hwatched : event = .cancel → r.phase = .waiting → r.app ≠ .running := by
    rintro rfl
    exact hguard r hget
  obtain ⟨hid, -⟩ := List.getElem?_eq_some_iff.mp hget
  have hset : ∀ {other : ℕ} {s : Request}, (w.requests.set id r')[other]? = some s →
      (other = id ∧ s = r') ∨ (other ≠ id ∧ w.requests[other]? = some s) := fun {other s} hs => by
    by_cases hsame : other = id
    · subst hsame
      rw [List.getElem?_set_self hid] at hs
      exact .inl ⟨rfl, (Option.some.inj hs).symm⟩
    · rw [List.getElem?_set_ne (Ne.symm hsame)] at hs
      exact .inr ⟨hsame, hs⟩
  -- a muted request stays where it is, and muted
  have hmutes : ∀ {other : ℕ} {s : Request}, w.requests[other]? = some s → s.abandoned = true →
      ∃ s', (w.requests.set id r')[other]? = some s' ∧ s'.abandoned = true ∧
        (s'.app = .running → s.app = .running) := fun {other s} hs hmuted => by
    by_cases hsame : other = id
    · subst hsame
      obtain rfl := Option.some.inj (hget.symm.trans hs)
      exact ⟨r', List.getElem?_set_self hid, honward.muted hmuted, honward.app⟩
    · exact ⟨s, (List.getElem?_set_ne (Ne.symm hsame)).trans hs, hmuted, fun happ => happ⟩
  refine ⟨fun s hs => ?_, fun other s hs hmuted => ?_, fun other hother => ?_,
    fun other hran => ?_⟩
  · rcases List.mem_or_eq_of_mem_set hs with hs | rfl
    · exact h.kept s hs
    · exact (h.kept r (List.mem_of_getElem? hget)).step hwatched hstep
  · rw [mem_joined_iff]
    rcases hset hs with ⟨rfl, rfl⟩ | ⟨-, hs⟩
    · cases hbefore : r.abandoned with
      | false => exact .inl (.inr ⟨rfl, hmuted, rfl⟩)
      | true => exact (h.pooled other r hget hbefore).imp .inl (List.mem_append_left _)
    · exact (h.pooled other s hs hmuted).imp .inl (List.mem_append_left _)
  · rcases mem_joined_iff.mp hother with hin | ⟨rfl, hnow, hbefore⟩
    · obtain ⟨hran, s, hs, hmuted⟩ := h.muted other hin
      obtain ⟨s', hs', hmuted', -⟩ := hmutes hs hmuted
      exact ⟨by simpa using hran, s', hs', hmuted'⟩
    · refine ⟨fun hran => ?_, r', List.getElem?_set_self hid, hnow⟩
      obtain ⟨s, hs, hmuted, -⟩ := h.finished other (by simpa using hran)
      obtain rfl := Option.some.inj (hget.symm.trans hs)
      exact absurd (hmuted.symm.trans hbefore) Bool.noConfusion
  · obtain ⟨s, hs, hmuted, hdone⟩ := h.finished other (by simpa using hran)
    obtain ⟨s', hs', hmuted', happ⟩ := hmutes hs hmuted
    exact ⟨s', hs', hmuted', fun hrunning => hdone (happ hrunning)⟩

theorem Counted.callback (h : Counted cfg w events) {id : ℕ} {outcome : Outcome}
    (hget : w.requests[id]? = some r) (happ : r.app = .done outcome) (hid : id ∈ w.abandoned) :
    Counted cfg { w with abandoned := w.abandoned.erase id } (events ++ [.callback id]) := by
  obtain ⟨-, s, hs, hmuted⟩ := h.muted id hid
  obtain rfl := Option.some.inj (hget.symm.trans hs)
  refine ⟨h.kept, fun other s hs hmuted => ?_, fun other hother => ?_, fun other hran => ?_⟩
  · by_cases hsame : other = id
    · exact .inr (by simp [hsame])
    · rcases h.pooled other s hs hmuted with hin | hran
      · exact .inl (Finset.mem_erase.mpr ⟨hsame, hin⟩)
      · exact .inr (List.mem_append_left _ hran)
  · obtain ⟨hne, hin⟩ := Finset.mem_erase.mp hother
    obtain ⟨hran, hrest⟩ := h.muted other hin
    exact ⟨by simpa [hne] using hran, hrest⟩
  · rcases List.mem_append.mp hran with hran | hran
    · exact h.finished other hran
    · obtain rfl := Event.callback.inj (List.mem_singleton.mp hran)
      exact ⟨r, hget, hmuted, by simp [happ]⟩

/-- The step lemma. -/
theorem inductive_counted :
    ((ceiling cfg).restrict watchesOn).traced.Inductive fun s => Counted cfg s.1 s.2 where
  init s h := by
    obtain ⟨hinit, hevents⟩ := h
    rw [show s.1 = {} from hinit, hevents]
    exact ⟨by simp, by simp, by simp, by simp⟩
  step s event t h hstep := by
    obtain ⟨⟨hguard, hstep⟩, hevents⟩ := hstep
    rw [hevents]
    rcases Worker.step_cases hstep with ⟨scope, rfl, hw⟩ | ⟨id, e, r, r', rfl, hget, hr, hw⟩ |
      ⟨id, r, outcome, rfl, hget, happ, hid, hw⟩
    · rw [hw]
      exact h.arrive scope
    · rw [hw]
      exact h.request hguard hget hr
    · rw [hw]
      exact h.callback hget happ hid

/-- The exit without an account: a call cancelled in `asyncio.wait` ends, and
its app runs on unmuted. -/
theorem Counted.watchesOn_of_accounted {event : Event} (h : Counted cfg w events)
    (hstep : w.step cfg event = some w') (hw' : Accounted cfg w' (events ++ [event])) :
    watchesOn w event := by
  rcases Worker.step_cases hstep with ⟨scope, rfl, -⟩ | ⟨id, e, r, r', rfl, hget, hr, rfl⟩ |
    ⟨id, r, outcome, rfl, -, -, -, -⟩
  · trivial
  · cases e with
    | cancel =>
        intro s hs hphase happ
        obtain rfl := Option.some.inj (hget.symm.trans hs)
        have hlive := (h.kept r (List.mem_of_getElem? hget)).live (.inr (.inl hphase))
        obtain ⟨hid, -⟩ := List.getElem?_eq_some_iff.mp hget
        have hcancel : r.cancel = some r' := hr
        simp only [Request.cancel, hphase, Option.some.injEq] at hcancel
        subst hcancel
        obtain ⟨-, hmuted⟩ :=
          hw'.running id _ (List.getElem?_set_self hid) happ .cancelled rfl
        exact Bool.noConfusion (hmuted.symm.trans hlive)
    | send | finish | wake | reply => trivial
  · trivial

/-- In every run that cancels no call in `asyncio.wait` over a running app,
every running app whose call has ended is abandoned and muted, and `_abandoned`
holds what was answered 504 and has not called back, no more. The next step
keeps the account exactly if it meets the condition too. -/
theorem accounted_of_reachable
    (hw : ((ceiling cfg).restrict watchesOn).traced.Reachable (w, events)) :
    Accounted cfg w events ∧
      ∀ event w', w.step cfg event = some w' →
        (Accounted cfg w' (events ++ [event]) ↔ watchesOn w event) := by
  have hcounted := inductive_counted.reachable hw
  refine ⟨hcounted.accounted, fun event w' hstep => ⟨?_, fun hguard => ?_⟩⟩
  · exact hcounted.watchesOn_of_accounted hstep
  · have hnext := hw.next (t := (w', events ++ [event])) ⟨⟨hguard, hstep⟩, rfl⟩
    exact (inductive_counted.reachable hnext).accounted

/-! ### One request, timed out or cancelled -/

def defaultCeiling : Config := { errorBody := textMessages }

/-- The call times out and is cancelled halfway through its 504. -/
def lateEvents : List Event :=
  [.arrive getScope, .request 0 .wake, .request 0 .reply, .request 0 .cancel]

theorem accounted_late :
    ∃ w, Worker.run defaultCeiling {} lateEvents = some w ∧ w.abandoned = {0} ∧
      Accounted defaultCeiling w lateEvents := by
  let S := ((ceiling defaultCeiling).restrict watchesOn).traced
  have hinit : S.Reachable ({}, []) := .of_init ⟨rfl, rfl⟩
  have harrived := hinit.next (t := (_, _))
    (show S.step _ (.arrive getScope) _ from ⟨⟨trivial, rfl⟩, rfl⟩)
  have hwoken := harrived.next (t := (_, _))
    (show S.step _ (.request 0 .wake) _ from ⟨⟨trivial, rfl⟩, rfl⟩)
  have hreplied := hwoken.next (t := (_, _))
    (show S.step _ (.request 0 .reply) _ from ⟨⟨trivial, rfl⟩, rfl⟩)
  have hcancelled := hreplied.next (t := (_, _))
    (show S.step _ (.request 0 .cancel) _ from ⟨⟨fun r hget hphase =>
      absurd (Option.some.inj hget ▸ hphase) Phase.noConfusion, rfl⟩, rfl⟩)
  exact ⟨_, rfl, by decide, (accounted_of_reachable hcancelled).1⟩

/-- The server cancels the call in `asyncio.wait`: the app runs on, in no set. -/
theorem cancelled_wait_unaccounted :
    ∃ w, (ceiling defaultCeiling).traced.Reachable
        (w, [.arrive getScope, .request 0 .cancel]) ∧
      ¬ Accounted defaultCeiling w [.arrive getScope, .request 0 .cancel] := by
  let S := (ceiling defaultCeiling).traced
  have hinit : S.Reachable ({}, []) := .of_init ⟨rfl, rfl⟩
  have harrived := hinit.next (t := (_, _))
    (show S.step _ (.arrive getScope) _ from ⟨rfl, rfl⟩)
  have hcancelled := harrived.next (t := (_, _))
    (show S.step _ (.request 0 .cancel) _ from ⟨rfl, rfl⟩)
  refine ⟨_, hcancelled, fun h => ?_⟩
  have hrunning := h.running 0 _ rfl rfl .cancelled rfl
  exact absurd hrunning.1 (by decide)

end NetixBackend.Asgi
