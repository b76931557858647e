import NetixBackend.Effects.Memo

/-!
Memo tables that are cleared now and then.

`Memo.call` reads nothing but its arguments, so whatever else a build depends
on is part of them, and a call may be made under other circumstances than the
one before it. What a table then answers is settled by the log of the calls:
between two clearings the first call of a key that can be built decides for
all of them (`firstBuilt`), and two answers are one object exactly when they
are of one key and no clearing lies between them.
-/

namespace Effects

variable {ι κ ε α : Type*} [DecidableEq κ]

inductive MemoEvent (ι : Type*)
  | call (args : ι)
  | clear

/-- A call that was answered, and how often the table had been cleared before. -/
structure Served (ι ε α : Type*) where
  epoch : ℕ
  args : ι
  answer : Except ε (ℕ × α)

/-- A table, how often it has been cleared, and what it has answered. -/
structure Ledger (ι κ ε α : Type*) where
  memo : Memo κ α := {}
  epoch : ℕ := 0
  log : List (Served ι ε α) := []

namespace Memo

variable (key : ι → Except ε κ) (build : ι → Except ε α)

/-- The objects that were handed out are not forgotten by a clearing, so their
identities are not given out again. -/
def clear (memo : Memo κ α) : Memo κ α := { memo with entries := fun _ => none }

def serve (ledger : Ledger ι κ ε α) : MemoEvent ι → Ledger ι κ ε α
  | .call args =>
      let (answer, memo) := ledger.memo.call key build args
      { ledger with memo, log := ledger.log ++ [⟨ledger.epoch, args, answer⟩] }
  | .clear => { ledger with memo := ledger.memo.clear, epoch := ledger.epoch + 1 }

def serveAll (ledger : Ledger ι κ ε α) (events : List (MemoEvent ι)) : Ledger ι κ ε α :=
  events.foldl (serve key build) ledger

/-- What a call of the log has to offer for a key: what it builds. -/
def offer (epoch : ℕ) (k : κ) (served : Served ι ε α) : Option α :=
  if served.epoch = epoch ∧ (key served.args).toOption = some k then (build served.args).toOption
  else none

/-- What the first call of a key that can be built builds, after so many
clearings. -/
def firstBuilt (log : List (Served ι ε α)) (epoch : ℕ) (k : κ) : Option α :=
  log.findSome? (offer key build epoch k)

/-- Two answers with an object are one object exactly when they are of one key
and one epoch. -/
def SameObject (x y : Served ι ε α) : Prop :=
  ∀ k k' object object', key x.args = .ok k → key y.args = .ok k' → x.answer = .ok object →
    y.answer = .ok object' → (object.1 = object'.1 ↔ x.epoch = y.epoch ∧ k = k')

variable {key build} {ledger : Ledger ι κ ε α}

/-- The answers are those of the log. -/
structure Answers (key : ι → Except ε κ) (build : ι → Except ε α) (log : List (Served ι ε α)) :
    Prop where
  built : ∀ x ∈ log, ∀ object, x.answer = .ok object →
    ∃ k, key x.args = .ok k ∧ firstBuilt key build log x.epoch k = some object.2
  failed : ∀ x ∈ log, ∀ e, x.answer = .error e → uncached key build x.args = .error e
  objects : log.Pairwise (SameObject key)

/-- What the table holds, by the log. -/
structure Recorded (key : ι → Except ε κ) (build : ι → Except ε α) (ledger : Ledger ι κ ε α) :
    Prop where
  answers : Answers key build ledger.log
  past : ∀ x ∈ ledger.log, x.epoch ≤ ledger.epoch
  entries : ∀ k, (ledger.memo.entries k).map Prod.snd =
    firstBuilt key build ledger.log ledger.epoch k
  kept : ∀ x ∈ ledger.log, x.epoch = ledger.epoch → ∀ k object, key x.args = .ok k →
    x.answer = .ok object → ledger.memo.entries k = some object
  given : ∀ k object, ledger.memo.entries k = some object → ∃ x ∈ ledger.log,
    x.epoch = ledger.epoch ∧ key x.args = .ok k ∧ x.answer = .ok object
  /-- An identity that an entry has was given to calls of its key and epoch only. -/
  owned : ∀ k object, ledger.memo.entries k = some object → object.1 < ledger.memo.fresh ∧
    ∀ x ∈ ledger.log, ∀ object', x.answer = .ok object' → object'.1 = object.1 →
      x.epoch = ledger.epoch ∧ key x.args = .ok k
  fresh : ∀ x ∈ ledger.log, ∀ object, x.answer = .ok object → object.1 < ledger.memo.fresh

/-! ### The log grows -/

theorem firstBuilt_append {log log' : List (Served ι ε α)} {epoch : ℕ} {k : κ} :
    firstBuilt key build (log ++ log') epoch k =
      (firstBuilt key build log epoch k).or (firstBuilt key build log' epoch k) :=
  List.findSome?_append

theorem firstBuilt_append_of_some {log log' : List (Served ι ε α)} {epoch : ℕ} {k : κ} {a : α}
    (h : firstBuilt key build log epoch k = some a) :
    firstBuilt key build (log ++ log') epoch k = some a := by
  rw [firstBuilt_append, h]
  rfl

theorem firstBuilt_singleton (served : Served ι ε α) (epoch : ℕ) (k : κ) :
    firstBuilt key build [served] epoch k = offer key build epoch k served := by
  rw [firstBuilt, List.findSome?_singleton]

theorem offer_of_ne {args : ι} {k k' : κ} (hkey : key args = .ok k) (hne : k' ≠ k)
    (epoch epoch' : ℕ) (answer : Except ε (ℕ × α)) :
    offer key build epoch k' ⟨epoch', args, answer⟩ = none := by
  refine if_neg ?_
  rintro ⟨-, hkey'⟩
  exact hne (by simpa [hkey, Except.toOption] using hkey'.symm)

/-- A call that hands out no object of its own leaves what is first built. -/
theorem firstBuilt_concat {served : Served ι ε α} {epoch : ℕ} {k : κ}
    (h : firstBuilt key build ledger.log epoch k = none →
      offer key build epoch k served = none) :
    firstBuilt key build (ledger.log ++ [served]) epoch k =
      firstBuilt key build ledger.log epoch k := by
  rw [firstBuilt_append, firstBuilt_singleton]
  cases hfirst : firstBuilt key build ledger.log epoch k with
  | some a => rfl
  | none => exact h hfirst

theorem Answers.concat {log : List (Served ι ε α)} (h : Answers key build log)
    {served : Served ι ε α}
    (hbuilt : ∀ object, served.answer = .ok object → ∃ k, key served.args = .ok k ∧
      firstBuilt key build (log ++ [served]) served.epoch k = some object.2)
    (hfailed : ∀ e, served.answer = .error e → uncached key build served.args = .error e)
    (hobjects : ∀ x ∈ log, SameObject key x served) : Answers key build (log ++ [served]) where
  built x hx object hanswer := by
    rcases List.mem_append.mp hx with hx | hx
    · obtain ⟨k, hkey, hfirst⟩ := h.built x hx object hanswer
      exact ⟨k, hkey, firstBuilt_append_of_some hfirst⟩
    · obtain rfl := List.mem_singleton.mp hx
      exact hbuilt object hanswer
  failed x hx e hanswer := by
    rcases List.mem_append.mp hx with hx | hx
    · exact h.failed x hx e hanswer
    · obtain rfl := List.mem_singleton.mp hx
      exact hfailed e hanswer
  objects := List.pairwise_append.mpr ⟨h.objects, List.pairwise_singleton _ _,
    fun x hx y hy => List.mem_singleton.mp hy ▸ hobjects x hx⟩

/-! ### The step lemma -/

theorem Recorded.past_concat (h : Recorded key build ledger) (args : ι)
    (answer : Except ε (ℕ × α)) :
    ∀ x ∈ ledger.log ++ [⟨ledger.epoch, args, answer⟩], x.epoch ≤ ledger.epoch := by
  intro x hx
  rcases List.mem_append.mp hx with hx | hx
  · exact h.past x hx
  · obtain rfl := List.mem_singleton.mp hx
    exact Nat.le_refl _

/-- A call that is answered with an error records nothing. -/
theorem Recorded.fail (h : Recorded key build ledger) {args : ι} {e : ε}
    (huncached : uncached key build args = .error e) :
    Recorded key build
      { ledger with log := ledger.log ++ [⟨ledger.epoch, args, .error e⟩] } := by
  have hoffer : ∀ epoch k, offer key build epoch k ⟨ledger.epoch, args, .error e⟩ = none := by
    intro epoch k
    unfold offer uncached at *
    cases hkey : key args with
    | error e' => simp [Except.toOption]
    | ok k' =>
        rw [hkey] at huncached
        simp only at huncached
        simp [huncached, Except.toOption]
  have hnew : ∀ x ∈ ledger.log ++ [(⟨ledger.epoch, args, .error e⟩ : Served ι ε α)],
      ∀ object, x.answer = .ok object → x ∈ ledger.log := by
    intro x hx object hanswer
    rcases List.mem_append.mp hx with hx | hx
    · exact hx
    · obtain rfl := List.mem_singleton.mp hx
      exact nomatch hanswer
  refine ⟨h.answers.concat (fun object hanswer => nomatch hanswer) (fun e' he => ?_)
      (fun x _ k k' object object' _ _ _ hanswer => nomatch hanswer), h.past_concat args _,
    fun k => ?_,
    fun x hx hepoch k object hkey hanswer =>
      h.kept x (hnew x hx object hanswer) hepoch k object hkey hanswer,
    fun k object hentry => ?_,
    fun k object hentry => ⟨(h.owned k object hentry).1, fun x hx object' hanswer =>
      (h.owned k object hentry).2 x (hnew x hx object' hanswer) object' hanswer⟩,
    fun x hx object hanswer => h.fresh x (hnew x hx object hanswer) object hanswer⟩
  · obtain rfl := Except.error.inj he
    exact huncached
  · rw [h.entries k, firstBuilt_concat fun _ => hoffer _ _]
  · obtain ⟨x, hx, hgiven⟩ := h.given k object hentry
    exact ⟨x, List.mem_append_left _ hx, hgiven⟩

/-- A hit hands out the object of its key. -/
theorem Recorded.hit (h : Recorded key build ledger) {args : ι} {k : κ} {object : ℕ × α}
    (hkey : key args = .ok k) (hentry : ledger.memo.entries k = some object) :
    Recorded key build
      { ledger with log := ledger.log ++ [⟨ledger.epoch, args, .ok object⟩] } := by
  have hfirst : firstBuilt key build ledger.log ledger.epoch k = some object.2 := by
    rw [← h.entries k, hentry]
    rfl
  have hsame : ∀ k', firstBuilt key build (ledger.log ++ [⟨ledger.epoch, args, .ok object⟩])
      ledger.epoch k' = firstBuilt key build ledger.log ledger.epoch k' := by
    intro k'
    refine firstBuilt_concat fun hnone => offer_of_ne hkey ?_ _ _ _
    rintro rfl
    exact absurd (hfirst.symm.trans hnone) (Option.some_ne_none _)
  refine ⟨h.answers.concat (fun object' hanswer => ?_) (fun e he => nomatch he)
      (fun x hx k₁ k₂ object₁ object₂ hkey₁ hkey₂ hanswer₁ hanswer₂ => ?_), h.past_concat args _,
    fun k' => ?_, fun x hx hepoch k' object' hkey' hanswer => ?_, fun k' object' hentry' => ?_,
    fun k' object' hentry' => ?_, fun x hx object' hanswer => ?_⟩
  · obtain rfl := Except.ok.inj hanswer
    exact ⟨k, hkey, firstBuilt_append_of_some hfirst⟩
  · obtain rfl := Except.ok.inj (hkey.symm.trans hkey₂)
    obtain rfl := Except.ok.inj hanswer₂
    constructor
    · intro hid
      obtain ⟨hepoch, hkey₁'⟩ := (h.owned k object hentry).2 x hx object₁ hanswer₁ hid
      exact ⟨hepoch, Except.ok.inj (hkey₁.symm.trans hkey₁')⟩
    · rintro ⟨hepoch, rfl⟩
      have hheld := h.kept x hx hepoch k₁ object₁ hkey₁ hanswer₁
      exact congrArg Prod.fst (Option.some.inj (hheld.symm.trans hentry))
  · rw [h.entries k', hsame]
  · rcases List.mem_append.mp hx with hx | hx
    · exact h.kept x hx hepoch k' object' hkey' hanswer
    · obtain rfl := List.mem_singleton.mp hx
      obtain rfl := Except.ok.inj (hkey.symm.trans hkey')
      obtain rfl := Except.ok.inj hanswer
      exact hentry
  · obtain ⟨x, hx, hgiven⟩ := h.given k' object' hentry'
    exact ⟨x, List.mem_append_left _ hx, hgiven⟩
  · refine ⟨(h.owned k' object' hentry').1, fun x hx object'' hanswer hid => ?_⟩
    rcases List.mem_append.mp hx with hx | hx
    · exact (h.owned k' object' hentry').2 x hx object'' hanswer hid
    · obtain rfl := List.mem_singleton.mp hx
      obtain rfl := Except.ok.inj hanswer
      -- the entry of `k` was given to a call of the log, which the entry of `k'` owns
      obtain ⟨x, hx, hepoch, hkeyx, hanswerx⟩ := h.given k object hentry
      obtain ⟨-, hkeyx'⟩ := (h.owned k' object' hentry').2 x hx object hanswerx hid
      exact ⟨rfl, hkey.trans (hkeyx.symm.trans hkeyx')⟩
  · rcases List.mem_append.mp hx with hx | hx
    · exact h.fresh x hx object' hanswer
    · obtain rfl := List.mem_singleton.mp hx
      obtain rfl := Except.ok.inj hanswer
      exact (h.owned k object hentry).1

/-- A miss hands out a new object. -/
theorem Recorded.miss (h : Recorded key build ledger) {args : ι} {k : κ} {a : α}
    (hkey : key args = .ok k) (hentry : ledger.memo.entries k = none)
    (hbuild : build args = .ok a) :
    Recorded key build
      { ledger with
        memo :=
          { entries := Function.update ledger.memo.entries k (some (ledger.memo.fresh, a))
            fresh := ledger.memo.fresh + 1 }
        log := ledger.log ++ [⟨ledger.epoch, args, .ok (ledger.memo.fresh, a)⟩] } := by
  have hnone : firstBuilt key build ledger.log ledger.epoch k = none := by
    rw [← h.entries k, hentry]
    rfl
  have hoffer : ∀ answer, offer key build ledger.epoch k
      (⟨ledger.epoch, args, answer⟩ : Served ι ε α) = some a := by
    intro answer
    simp [offer, hkey, hbuild, Except.toOption]
  have hfirst : firstBuilt key build
      (ledger.log ++ [⟨ledger.epoch, args, .ok (ledger.memo.fresh, a)⟩]) ledger.epoch k = some a := by
    rw [firstBuilt_append, hnone, firstBuilt_singleton, hoffer]
    rfl
  have hother : ∀ k' ≠ k, firstBuilt key build
      (ledger.log ++ [⟨ledger.epoch, args, .ok (ledger.memo.fresh, a)⟩]) ledger.epoch k' =
        firstBuilt key build ledger.log ledger.epoch k' :=
    fun k' hne => firstBuilt_concat fun _ => offer_of_ne hkey hne _ _ _
  have hself : Function.update ledger.memo.entries k (some (ledger.memo.fresh, a)) k =
      some (ledger.memo.fresh, a) := Function.update_self ..
  have hold : ∀ k' ≠ k, Function.update ledger.memo.entries k (some (ledger.memo.fresh, a)) k' =
      ledger.memo.entries k' := fun k' hne => Function.update_of_ne hne ..
  -- no call of the log of this key and epoch was answered with an object
  have hunserved : ∀ x ∈ ledger.log, x.epoch = ledger.epoch → key x.args = .ok k →
      ∀ object, x.answer ≠ .ok object := by
    intro x hx hepoch hkeyx object hanswer
    exact nomatch hentry.symm.trans (h.kept x hx hepoch k object hkeyx hanswer)
  refine ⟨h.answers.concat (fun object hanswer => ?_) (fun e he => nomatch he)
      (fun x hx k₁ k₂ object₁ object₂ hkey₁ hkey₂ hanswer₁ hanswer₂ => ?_), h.past_concat args _,
    fun k' => ?_, fun x hx hepoch k' object hkey' hanswer => ?_, fun k' object hentry' => ?_,
    fun k' object hentry' => ?_, fun x hx object hanswer => ?_⟩
  · obtain rfl := Except.ok.inj hanswer
    exact ⟨k, hkey, hfirst⟩
  · obtain rfl := Except.ok.inj (hkey.symm.trans hkey₂)
    obtain rfl := Except.ok.inj hanswer₂
    have hlt := h.fresh x hx object₁ hanswer₁
    refine iff_of_false (Nat.ne_of_lt hlt) ?_
    rintro ⟨hepoch, rfl⟩
    exact hunserved x hx hepoch hkey₁ object₁ hanswer₁
  · by_cases hk : k' = k
    · subst hk
      rw [hfirst]
      exact congrArg (Option.map Prod.snd) hself
    · rw [hother k' hk, ← h.entries k']
      exact congrArg (Option.map Prod.snd) (hold k' hk)
  · rcases List.mem_append.mp hx with hx | hx
    · have hk : k' ≠ k := fun heq => hunserved x hx hepoch (heq ▸ hkey') object hanswer
      exact (hold k' hk).trans (h.kept x hx hepoch k' object hkey' hanswer)
    · obtain rfl := List.mem_singleton.mp hx
      obtain rfl := Except.ok.inj (hkey.symm.trans hkey')
      obtain rfl := Except.ok.inj hanswer
      exact hself
  · by_cases hk : k' = k
    · subst hk
      obtain rfl := Option.some.inj (hself.symm.trans hentry')
      exact ⟨_, List.mem_append_right _ (List.mem_singleton_self _), rfl, hkey, rfl⟩
    · obtain ⟨x, hx, hgiven⟩ := h.given k' object ((hold k' hk).symm.trans hentry')
      exact ⟨x, List.mem_append_left _ hx, hgiven⟩
  · by_cases hk : k' = k
    · subst hk
      obtain rfl := Option.some.inj (hself.symm.trans hentry')
      refine ⟨Nat.lt_succ_self _, fun x hx object' hanswer hid => ?_⟩
      rcases List.mem_append.mp hx with hx | hx
      · exact absurd hid (Nat.ne_of_lt (h.fresh x hx object' hanswer))
      · obtain rfl := List.mem_singleton.mp hx
        exact ⟨rfl, hkey⟩
    · obtain ⟨hlt, howned⟩ := h.owned k' object ((hold k' hk).symm.trans hentry')
      refine ⟨Nat.lt_succ_of_lt hlt, fun x hx object' hanswer hid => ?_⟩
      rcases List.mem_append.mp hx with hx | hx
      · exact howned x hx object' hanswer hid
      · obtain rfl := List.mem_singleton.mp hx
        obtain rfl := Except.ok.inj hanswer
        exact absurd hid.symm (Nat.ne_of_lt hlt)
  · rcases List.mem_append.mp hx with hx | hx
    · exact Nat.lt_succ_of_lt (h.fresh x hx object hanswer)
    · obtain rfl := List.mem_singleton.mp hx
      obtain rfl := Except.ok.inj hanswer
      exact Nat.lt_succ_self _

/-- Nothing has been served after the clearing that is not a new epoch. -/
theorem firstBuilt_of_past {log : List (Served ι ε α)} {epoch : ℕ}
    (h : ∀ x ∈ log, x.epoch < epoch) (k : κ) : firstBuilt key build log epoch k = none := by
  refine List.findSome?_eq_none_iff.mpr fun x hx => if_neg ?_
  rintro ⟨heq, -⟩
  exact absurd heq (Nat.ne_of_lt (h x hx))

theorem Recorded.clear (h : Recorded key build ledger) :
    Recorded key build
      { ledger with memo := ledger.memo.clear, epoch := ledger.epoch + 1 } where
  answers := h.answers
  past x hx := Nat.le_succ_of_le (h.past x hx)
  entries k := (firstBuilt_of_past (fun x hx => Nat.lt_succ_of_le (h.past x hx)) k).symm
  kept x hx hepoch := absurd hepoch (Nat.ne_of_lt (Nat.lt_succ_of_le (h.past x hx)))
  given _ _ hentry := absurd hentry (Option.some_ne_none _).symm
  owned _ _ hentry := absurd hentry (Option.some_ne_none _).symm
  fresh := h.fresh

theorem Recorded.serve (h : Recorded key build ledger) (event : MemoEvent ι) :
    Recorded key build (Memo.serve key build ledger event) := by
  cases event with
  | clear => exact h.clear
  | call args =>
      unfold Memo.serve
      rcases @call_cases ι κ ε α _ key build ledger.memo args with ⟨e, hkey, hcall⟩ |
        ⟨k, object, hkey, hentry, hcall⟩ | ⟨k, e, hkey, hentry, hbuild, hcall⟩ |
        ⟨k, a, hkey, hentry, hbuild, hcall⟩
      · simp only [hcall]
        exact h.fail (by simp [uncached, hkey])
      · simp only [hcall]
        exact h.hit hkey hentry
      · simp only [hcall]
        exact h.fail (by simp [uncached, hkey, hbuild])
      · simp only [hcall]
        exact h.miss hkey hentry hbuild

/-! ### Runs -/

theorem Recorded.empty : Recorded key build ({} : Ledger ι κ ε α) where
  answers := ⟨by simp, by simp, List.Pairwise.nil⟩
  past := by simp
  entries _ := rfl
  kept := by simp
  given := by simp
  owned := by simp
  fresh := by simp

/-- Every sequence of calls and clearings is answered by its log. -/
theorem answers_serveAll (events : List (MemoEvent ι)) :
    Answers key build (serveAll key build {} events).log := by
  have hall : ∀ ledger : Ledger ι κ ε α, Recorded key build ledger →
      Recorded key build (serveAll key build ledger events) := by
    induction events with
    | nil => exact fun ledger h => h
    | cons event rest ih => exact fun ledger h => ih _ (h.serve event)
  exact (hall {} .empty).answers

end Memo

end Effects
