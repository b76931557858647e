import NetixBackend.Asgi.Timeout
import Mathlib.Data.List.Count

/-!
How large the abandoned pool can grow.

The limit is tested when a request is admitted, but the pool grows when an
admitted request times out. What has to stay below the limit is therefore not
the pool but the pool together with every watched request that may still join
it (`Worker.load`): that number grows at admissions only. If each admission
leaves room for it, the pool stays within the limit; tested against the pool
alone, as the code does, two requests in flight together are enough to exceed
a limit of one.
-/

namespace NetixBackend.Asgi

open Python Transition

/-- A request that a timer may still abandon: watched, unfinished, and its
response not started. -/
def Request.atRisk (r : Request) : Bool :=
  r.phase = .waiting ∧ r.app = .running ∧ r.started = false

/-- The abandoned requests, and those that may join them. -/
def Worker.load (w : Worker) : ℕ := w.abandoned.card + w.requests.countP Request.atRisk

def Config.holds (cfg : Config) (count : ℕ) : Prop := cfg.maxAbandoned.lt (.finite count) = false

/-- The condition on an admission: there is room for the new request too. -/
def admitsWithinLimit (cfg : Config) (w : Worker) : Event → Prop
  | .arrive scope => (cfg.call w.abandoned.card scope).phase = .waiting → cfg.holds (w.load + 1)
  | _ => True

variable {cfg : Config} {w w' : Worker} {r r' : Request}

theorem Config.holds.mono {m n : ℕ} (h : cfg.holds n) (hmn : m ≤ n) : cfg.holds m := by
  unfold Config.holds at *
  have hq : (m : ℚ) ≤ n := by exact_mod_cast hmn
  cases hmax : cfg.maxAbandoned with
  | finite a =>
      rw [hmax] at h
      simp only [Number.lt_finite, decide_eq_false_iff_not, not_lt] at h ⊢
      exact hq.trans h
  | inf => rfl
  | negInf =>
      rw [hmax] at h
      simp [Number.lt] at h
  | nan => rfl

theorem Request.atRisk_iff : r.atRisk = true ↔
    r.phase = .waiting ∧ r.app = .running ∧ r.started = false := by
  simp [Request.atRisk]

/-- What a step may do to the load: put nobody new at risk, and abandon only a
request that was. -/
def Sheds (r r' : Request) : Prop :=
  (r'.atRisk = true → r.atRisk = true) ∧
    (r'.abandoned = true → r.abandoned = false → r.atRisk = true ∧ r'.atRisk = false)

theorem Sheds.of_same (hsame : r'.abandoned = r.abandoned)
    (hrisk : r'.atRisk = true → r.atRisk = true) : Sheds r r' :=
  ⟨hrisk, fun hmuted hlive => absurd ((hmuted.symm.trans hsame).trans hlive) Bool.noConfusion⟩

theorem sheds_of_step {event : RequestEvent} (h : r.step cfg event = some r') : Sheds r r' := by
  cases Request.turn_of_step h with
  | sendDirect | sendMuted => exact .of_same rfl id
  | relay =>
      refine .of_same rfl fun hrisk => ?_
      obtain ⟨hphase, happ, hstarted⟩ := Request.atRisk_iff.mp hrisk
      exact Request.atRisk_iff.mpr ⟨hphase, happ, (Bool.or_eq_false_iff.mp hstarted).1⟩
  | finishDirect | finishApart | seeDone | seeStarted | cancel =>
      exact .of_same rfl (by simp [Request.atRisk])
  | abandon hphase hrunning hstarted =>
      -- the one turn that abandons: a watched request, unfinished and unstarted
      have hat : r.atRisk = true := Request.atRisk_iff.mpr ⟨hphase, hrunning, hstarted⟩
      exact ⟨fun _ => hat, fun _ _ => ⟨hat, by simp [Request.atRisk]⟩⟩
  | reply message left hphase =>
      refine .of_same rfl fun hrisk => ?_
      cases left <;> simp [Request.atRisk] at hrisk

/-- The load grows at admissions only: a step of one request moves it from the
watched to the abandoned at most. -/
theorem load_of_request {id : ℕ} {event : RequestEvent} (hget : w.requests[id]? = some r)
    (h : r.step cfg event = some r') :
    Worker.load { requests := w.requests.set id r'
                  abandoned := if r'.abandoned && !r.abandoned then insert id w.abandoned
                    else w.abandoned } ≤ w.load := by
  obtain ⟨hid, rfl⟩ := List.getElem?_eq_some_iff.mp hget
  obtain ⟨hrisk, hjoin⟩ := sheds_of_step h
  have hpos : (if w.requests[id].atRisk then 1 else 0) ≤ w.requests.countP Request.atRisk := by
    split
    · rename_i hat
      exact List.countP_pos_iff.mpr ⟨_, List.getElem_mem hid, hat⟩
    · omega
  simp only [Worker.load, List.countP_set hid]
  split
  · rename_i hnew
    obtain ⟨hat, hnot⟩ := hjoin (by simp_all) (by simp_all)
    have hcard := Finset.card_insert_le id w.abandoned
    simp only [hat, hnot, if_true, Bool.false_eq_true, if_false] at hpos ⊢
    omega
  · cases hr' : r'.atRisk with
    | false =>
        simp only [Bool.false_eq_true, if_false]
        omega
    | true =>
        rw [hrisk hr'] at hpos
        simp only [hrisk hr', if_true] at hpos ⊢
        omega

/-- The step lemma: under the condition the load stays within the limit. -/
theorem inductive_load (hcfg : cfg.holds 0) :
    ((ceiling cfg).restrict (admitsWithinLimit cfg)).Inductive fun w => cfg.holds w.load where
  init w hw := by
    obtain rfl := hw
    exact hcfg
  step w event w' hload hstep := by
    obtain ⟨hguard, hstep⟩ := hstep
    rcases Worker.step_cases hstep with ⟨scope, rfl, rfl⟩ | ⟨id, e, r, r', rfl, hget, hr, rfl⟩ |
      ⟨id, r, outcome, rfl, -, -, hmem, rfl⟩
    · simp only [Worker.load, List.countP_append, List.countP_singleton]
      cases hat : (cfg.call w.abandoned.card scope).atRisk with
      | true =>
          have hphase := (Request.atRisk_iff.mp hat).1
          exact Config.holds.mono (hguard hphase) (by simp [Worker.load]; omega)
      | false => exact Config.holds.mono hload (by simp [Worker.load])
    · exact hload.mono (load_of_request hget hr)
    · refine hload.mono ?_
      have hcard := Finset.card_erase_le (s := w.abandoned) (a := id)
      simp only [Worker.load]
      omega

/-- In every run whose admissions leave room for the watched requests, the
abandoned pool stays within the limit. -/
theorem abandoned_within_limit {n : ℕ} (hn : cfg.maxAbandoned = .finite n)
    (hw : ((ceiling cfg).restrict (admitsWithinLimit cfg)).Reachable w) :
    w.abandoned.card ≤ n := by
  have hcfg : cfg.holds 0 := by simp [Config.holds, hn]
  have hload := (inductive_load hcfg).reachable hw
  have hpool : cfg.holds w.abandoned.card := hload.mono (by simp [Worker.load])
  simpa [Config.holds, hn] using hpool

/-! ### Two requests and a limit of one -/

def limitOne : Config := { errorBody := textMessages, maxAbandoned := .finite (1 : ℕ) }

def getScope : Scope := { type := "http", method := some "GET" }

/-- Both are admitted while the pool is empty, and both time out. -/
def crowdedWorker : Worker :=
  ((Worker.run limitOne {} [.arrive getScope, .arrive getScope, .request 0 .wake,
    .request 1 .wake]).getD {})

theorem limit_of_one_exceeded :
    (ceiling limitOne).Reachable crowdedWorker ∧ ¬ crowdedWorker.abandoned.card ≤ 1 := by
  have hrun : Worker.run limitOne {} [.arrive getScope, .arrive getScope, .request 0 .wake,
      .request 1 .wake] = some crowdedWorker := rfl
  have hinit : ((ceiling limitOne).restrict fun _ _ => True).Reachable {} := .of_init rfl
  exact ⟨(reachable_run hinit (fun _ _ _ => trivial) hrun).of_restrict, by decide⟩

theorem lone_request_within_limit :
    Finset.card (((Worker.run limitOne {} [.arrive getScope, .request 0 .wake]).getD {}).abandoned) ≤
      1 := by
  have hinit : ((ceiling limitOne).restrict (admitsWithinLimit limitOne)).Reachable {} :=
    .of_init rfl
  have hlimit : limitOne.maxAbandoned = .finite (1 : ℕ) := rfl
  refine abandoned_within_limit hlimit ?_
  have harrived := hinit.next (S := (ceiling limitOne).restrict (admitsWithinLimit limitOne))
    (show ((ceiling limitOne).restrict (admitsWithinLimit limitOne)).step {} (.arrive getScope) _
      from ⟨fun _ => rfl, rfl⟩)
  exact harrived.next (show ((ceiling limitOne).restrict (admitsWithinLimit limitOne)).step _
    (.request 0 .wake) _ from ⟨trivial, rfl⟩)

end NetixBackend.Asgi
