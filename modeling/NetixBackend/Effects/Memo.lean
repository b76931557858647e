import Mathlib.Data.List.Pairwise
import Mathlib.Data.List.Forall2
import Mathlib.Logic.Function.Basic

/-!
A memo table in front of a function that may fail.

`Memo.call` looks the key of its arguments up and builds only on a miss; what
it built is a new object, remembered under the key. Keys are computed first
and may fail too. The table is transparent on a sequence of calls when every
call answers what building anew would (`Matches`, up to an equivalence `R` of
the built values). Since a hit ignores every argument the key does not read,
that is a condition on the calls alone, and an exact one: whenever an earlier
call of the same key was built, the later one would have built an equivalent
value (`transparent_iff`).

What a table promises unconditionally is identity: an object once returned
for some arguments is returned for them ever after (`same_object`).
-/

namespace Effects

variable {ι κ ε α : Type*} [DecidableEq κ]

/-- The objects remembered, each with its identity, and the next identity. -/
structure Memo (κ α : Type*) where
  entries : κ → Option (ℕ × α) := fun _ => none
  fresh : ℕ := 0

namespace Memo

variable (key : ι → Except ε κ) (build : ι → Except ε α)

def call (memo : Memo κ α) (args : ι) : Except ε (ℕ × α) × Memo κ α :=
  match key args with
  | .error e => (.error e, memo)
  | .ok k =>
      match memo.entries k with
      | some object => (.ok object, memo)
      | none =>
          match build args with
          | .error e => (.error e, memo)
          | .ok a =>
              (.ok (memo.fresh, a),
                { entries := Function.update memo.entries k (some (memo.fresh, a))
                  fresh := memo.fresh + 1 })

/-- A sequence of calls: their answers, and the table after them. -/
def run (memo : Memo κ α) : List ι → List (Except ε (ℕ × α)) × Memo κ α
  | [] => ([], memo)
  | args :: rest =>
      let (answer, memo') := memo.call key build args
      let (answers, memo'') := run memo' rest
      (answer :: answers, memo'')

def uncached (args : ι) : Except ε α :=
  match key args with
  | .error e => .error e
  | .ok _ => build args

/-- The answer is what building anew gives, up to `R`. -/
def Matches (R : α → α → Prop) : Except ε (ℕ × α) → Except ε α → Prop
  | .ok object, .ok a => R object.2 a
  | .error e, .error e' => e = e'
  | _, _ => False

/-- Were the earlier call built, the later one of the same key would build the
same, up to `R`. -/
def Agree (R : α → α → Prop) (earlier later : ι) : Prop :=
  ∀ k a, key earlier = .ok k → key later = .ok k → build earlier = .ok a →
    ∃ a', build later = .ok a' ∧ R a a'

variable {key : ι → Except ε κ} {build : ι → Except ε α} {R : α → α → Prop}

/-- The table holds what was built for the calls so far, and holds something for
each that could be built. -/
structure Holds (key : ι → Except ε κ) (build : ι → Except ε α) (past : List ι)
    (memo : Memo κ α) : Prop where
  built : ∀ k object, memo.entries k = some object →
    ∃ args ∈ past, key args = .ok k ∧ build args = .ok object.2
  kept : ∀ args ∈ past, ∀ k a, key args = .ok k → build args = .ok a →
    ∃ object, memo.entries k = some object

omit [DecidableEq κ] in
theorem Holds.empty : Holds key build [] ({} : Memo κ α) where
  built _ _ h := nomatch h
  kept _ h := nomatch h

/-- What a call does, in its four cases. -/
theorem call_cases (memo : Memo κ α) (args : ι) :
    (∃ e, key args = .error e ∧ memo.call key build args = (.error e, memo)) ∨
    (∃ k object, key args = .ok k ∧ memo.entries k = some object ∧
      memo.call key build args = (.ok object, memo)) ∨
    (∃ k e, key args = .ok k ∧ memo.entries k = none ∧ build args = .error e ∧
      memo.call key build args = (.error e, memo)) ∨
    (∃ k a, key args = .ok k ∧ memo.entries k = none ∧ build args = .ok a ∧
      memo.call key build args = (.ok (memo.fresh, a),
        { entries := Function.update memo.entries k (some (memo.fresh, a))
          fresh := memo.fresh + 1 })) := by
  unfold call
  cases hkey : key args with
  | error e => exact .inl ⟨e, rfl, rfl⟩
  | ok k =>
      cases hentry : memo.entries k with
      | some object => exact .inr (.inl ⟨k, object, rfl, hentry, by simp [hentry]⟩)
      | none =>
          cases hbuild : build args with
          | error e => exact .inr (.inr (.inl ⟨k, e, rfl, hentry, rfl, by simp [hentry]⟩))
          | ok a => exact .inr (.inr (.inr ⟨k, a, rfl, hentry, rfl, by simp [hentry]⟩))

omit [DecidableEq κ] in
/-- The table need not change when it already answers the new call, or the call
cannot be built. -/
theorem Holds.append {past : List ι} {memo : Memo κ α} (h : Holds key build past memo) {args : ι}
    (hargs : ∀ k a, key args = .ok k → build args = .ok a →
      ∃ object, memo.entries k = some object) : Holds key build (past ++ [args]) memo where
  built k object hentry := by
    obtain ⟨args', hmem, hargs'⟩ := h.built k object hentry
    exact ⟨args', List.mem_append_left _ hmem, hargs'⟩
  kept args' hmem k a hkey hbuild := by
    rcases List.mem_append.mp hmem with hpast | hlast
    · exact h.kept args' hpast k a hkey hbuild
    · obtain rfl := List.mem_singleton.mp hlast
      exact hargs k a hkey hbuild

theorem Holds.insert {past : List ι} {memo : Memo κ α} (h : Holds key build past memo) {args : ι}
    {k : κ} {a : α} (hkey : key args = .ok k) (hbuild : build args = .ok a) (id fresh : ℕ) :
    Holds key build (past ++ [args])
      { entries := Function.update memo.entries k (some (id, a)), fresh } where
  built k' object hentry := by
    dsimp only at hentry
    rcases eq_or_ne k' k with rfl | hne
    · rw [Function.update_self] at hentry
      obtain rfl := Option.some.inj hentry
      exact ⟨args, by simp, hkey, hbuild⟩
    · rw [Function.update_of_ne hne] at hentry
      obtain ⟨args', hmem, hargs'⟩ := h.built k' object hentry
      exact ⟨args', List.mem_append_left _ hmem, hargs'⟩
  kept args' hmem k' a' hkey' hbuild' := by
    dsimp only
    rcases eq_or_ne k' k with rfl | hne
    · exact ⟨_, Function.update_self ..⟩
    · rw [Function.update_of_ne hne]
      rcases List.mem_append.mp hmem with hpast | hlast
      · exact h.kept args' hpast k' a' hkey' hbuild'
      · obtain rfl := List.mem_singleton.mp hlast
        exact absurd (Except.ok.inj (hkey'.symm.trans hkey)) hne

theorem Holds.call {past : List ι} {memo : Memo κ α} (h : Holds key build past memo) (args : ι) :
    Holds key build (past ++ [args]) (memo.call key build args).2 := by
  rcases call_cases memo args with ⟨e, hkey, hcall⟩ | ⟨k, object, hkey, hentry, hcall⟩ |
    ⟨k, e, hkey, hentry, hbuild, hcall⟩ | ⟨k, a, hkey, hentry, hbuild, hcall⟩ <;> rw [hcall]
  · exact h.append fun k a hkey' _ => nomatch hkey.symm.trans hkey'
  · refine h.append fun k' a hkey' _ => ?_
    obtain rfl := Except.ok.inj (hkey.symm.trans hkey')
    exact ⟨object, hentry⟩
  · exact h.append fun k' a _ hbuild' => nomatch hbuild.symm.trans hbuild'
  · exact h.insert hkey hbuild memo.fresh (memo.fresh + 1)

/-! ### Transparency -/

variable [IsEquiv α R]

omit [DecidableEq κ] in
/-- Calls that agree pairwise built one value for each key. -/
theorem rel_of_agree {past : List ι} (hpast : past.Pairwise (Agree key build R)) {b b' : ι}
    (hb : b ∈ past) (hb' : b' ∈ past) {k : κ} {a a' : α} (hkey : key b = .ok k)
    (hkey' : key b' = .ok k) (hbuild : build b = .ok a) (hbuild' : build b' = .ok a') :
    R a a' := by
  let SameBuild (b b' : ι) : Prop := ∀ k a a', key b = .ok k → key b' = .ok k →
    build b = .ok a → build b' = .ok a' → R a a'
  have hsymm : Std.Symm SameBuild :=
    ⟨fun b b' h k a a' hkey hkey' hbuild hbuild' =>
      Std.Symm.symm _ _ (h k a' a hkey' hkey hbuild' hbuild)⟩
  have hrefl : ∀ b ∈ past, SameBuild b b := by
    intro b _ k a a' _ _ hbuild hbuild'
    obtain rfl := Except.ok.inj (hbuild.symm.trans hbuild')
    exact Std.Refl.refl a
  have hpairwise : past.Pairwise SameBuild := by
    refine hpast.imp fun h k a a' hkey hkey' hbuild hbuild' => ?_
    obtain ⟨a'', hbuild'', hR⟩ := h k a hkey hkey' hbuild
    obtain rfl := Except.ok.inj (hbuild'.symm.trans hbuild'')
    exact hR
  exact hpairwise.forall_of_forall hrefl hb hb' k a a' hkey hkey' hbuild hbuild'

/-- One call is transparent when it agrees with every call before it. -/
theorem matches_iff {past : List ι} {memo : Memo κ α} (h : Holds key build past memo)
    (hpast : past.Pairwise (Agree key build R)) (args : ι) :
    Matches R (memo.call key build args).1 (uncached key build args) ↔
      ∀ b ∈ past, Agree key build R b args := by
  rcases call_cases memo args with ⟨e, hkey, hcall⟩ | ⟨k, object, hkey, hentry, hcall⟩ |
    ⟨k, e, hkey, hentry, hbuild, hcall⟩ | ⟨k, a, hkey, hentry, hbuild, hcall⟩ <;>
    rw [hcall, uncached, hkey]
  · exact iff_of_true rfl fun b _ k a _ hkey' => nomatch hkey.symm.trans hkey'
  · obtain ⟨b₀, hb₀, hkey₀, hbuild₀⟩ := h.built k object hentry
    dsimp only
    constructor
    · intro hmatches b hb k' a hkeyb hkeyargs hbuildb
      obtain rfl := Except.ok.inj (hkey.symm.trans hkeyargs)
      cases hbuild : build args with
      | error e => exact (hbuild ▸ hmatches : Matches R (.ok object) (.error e)).elim
      | ok a' =>
          have hR : R object.2 a' := (hbuild ▸ hmatches : Matches R (.ok object) (.ok a'))
          exact ⟨a', rfl,
            IsTrans.trans _ _ _ (rel_of_agree hpast hb hb₀ hkeyb hkey₀ hbuildb hbuild₀) hR⟩
    · intro hagree
      obtain ⟨a', hbuild, hR⟩ := hagree b₀ hb₀ k object.2 hkey₀ hkey hbuild₀
      rw [hbuild]
      exact hR
  · rw [hbuild]
    refine iff_of_true rfl fun b hb k' a hkeyb hkeyargs hbuildb => ?_
    obtain rfl := Except.ok.inj (hkey.symm.trans hkeyargs)
    obtain ⟨object, hobject⟩ := h.kept b hb k a hkeyb hbuildb
    exact nomatch hentry.symm.trans hobject
  · rw [hbuild]
    refine iff_of_true (Std.Refl.refl a) fun b hb k' a hkeyb hkeyargs hbuildb => ?_
    obtain rfl := Except.ok.inj (hkey.symm.trans hkeyargs)
    obtain ⟨object, hobject⟩ := h.kept b hb k a hkeyb hbuildb
    exact nomatch hentry.symm.trans hobject

theorem matches_run_iff {past : List ι} {memo : Memo κ α} (h : Holds key build past memo)
    (hpast : past.Pairwise (Agree key build R)) (calls : List ι) :
    List.Forall₂ (Matches R) (memo.run key build calls).1 (calls.map (uncached key build)) ↔
      (past ++ calls).Pairwise (Agree key build R) := by
  induction calls generalizing past memo with
  | nil => simpa [run] using hpast
  | cons args rest ih =>
      have hstep : (past ++ [args]).Pairwise (Agree key build R) ↔
          ∀ b ∈ past, Agree key build R b args := by
        rw [List.pairwise_append]
        simp [hpast]
      rw [run, List.map_cons, List.forall₂_cons, matches_iff h hpast, List.append_cons]
      constructor
      · rintro ⟨hargs, hrest⟩
        exact (ih (h.call args) (hstep.mpr hargs)).mp hrest
      · intro hall
        have hargs : (past ++ [args]).Pairwise (Agree key build R) :=
          (List.pairwise_append.mp hall).1
        exact ⟨hstep.mp hargs, (ih (h.call args) hargs).mpr hall⟩

/-- The table is transparent on a sequence of calls exactly when every earlier
call agrees with every later one. -/
theorem transparent_iff (calls : List ι) :
    List.Forall₂ (Matches R) (run key build {} calls).1 (calls.map (uncached key build)) ↔
      calls.Pairwise (Agree key build R) :=
  matches_run_iff .empty .nil calls

/-! ### Identity -/

/-- What a key holds, it holds after any call. -/
theorem entries_call {memo : Memo κ α} {k : κ} {object : ℕ × α}
    (h : memo.entries k = some object) (args : ι) :
    (memo.call key build args).2.entries k = some object := by
  rcases call_cases memo args with ⟨e, -, hcall⟩ | ⟨k', object', -, -, hcall⟩ |
    ⟨k', e, -, -, -, hcall⟩ | ⟨k', a, -, hentry, -, hcall⟩ <;> rw [hcall]
  · exact h
  · exact h
  · exact h
  · have hne : k ≠ k' := by
      rintro rfl
      exact nomatch hentry.symm.trans h
    exact (Function.update_of_ne hne ..).trans h

/-- The object a call returns is the one its key holds. -/
theorem entries_of_call_ok {memo : Memo κ α} {args : ι} {object : ℕ × α}
    (h : (memo.call key build args).1 = .ok object) :
    ∃ k, key args = .ok k ∧ (memo.call key build args).2.entries k = some object := by
  rcases call_cases memo args with ⟨e, -, hcall⟩ | ⟨k, object', hkey, hentry, hcall⟩ |
    ⟨k, e, -, -, -, hcall⟩ | ⟨k, a, hkey, -, -, hcall⟩ <;> rw [hcall] at h ⊢
  · exact nomatch h
  · obtain rfl := Except.ok.inj h
    exact ⟨k, hkey, hentry⟩
  · exact nomatch h
  · obtain rfl := Except.ok.inj h
    exact ⟨k, hkey, Function.update_self ..⟩

/-- Every later call of a key that holds an object returns it. -/
theorem answers_of_entries {memo : Memo κ α} {k : κ} {object : ℕ × α}
    (h : memo.entries k = some object) (calls : List ι) :
    ∀ later ∈ calls.zip (memo.run key build calls).1, key later.1 = .ok k →
      later.2 = .ok object := by
  induction calls generalizing memo with
  | nil => exact fun later hlater => nomatch hlater
  | cons args rest ih =>
      intro later hlater hkey
      rcases List.mem_cons.mp hlater with rfl | hrest
      · have hcall : memo.call key build args = (.ok object, memo) := by
          simp only at hkey
          simp [call, hkey, h]
        exact congrArg Prod.fst hcall
      · exact ih (entries_call h args) later hrest hkey

/-- An object returned for some arguments is returned for them ever after. -/
theorem same_object (memo : Memo κ α) (calls : List ι) :
    (calls.zip (memo.run key build calls).1).Pairwise fun earlier later =>
      earlier.1 = later.1 → ∀ object, earlier.2 = .ok object → later.2 = .ok object := by
  induction calls generalizing memo with
  | nil => exact .nil
  | cons args rest ih =>
      refine .cons (fun later hlater heq object hobject => ?_) (ih _)
      obtain ⟨k, hkey, hentry⟩ := entries_of_call_ok hobject
      exact answers_of_entries hentry rest later hlater (heq ▸ hkey)

end Memo

end Effects
