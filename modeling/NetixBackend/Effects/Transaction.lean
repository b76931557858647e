import Mathlib.Order.Defs.Unbundled

/-!
Programs over a store that may raise, and transactions around them.

A program of type `Tx ε σ α` runs from a store `σ` and ends in another, with
a value or with an exception. The store survives an exception: a write that
was made stays made, which is what a database does outside a transaction.
`atomic` is the transaction: if its body raises, the store is the one it was
entered with.

Three judgments are made about a program, and every construct has a rule for
each. `Within R m` says that `m` moves the store along `R` at most, however
it ends; it composes when `R` is reflexive and transitive. `AllOrNothing m`
says that a run of `m` that raises leaves the store as it found it. The
second does not compose: of two programs in sequence the first has to leave
the store alone, or the second must not raise. That asymmetry is the whole
reason for `atomic`, the only construct that gives it for any body.
-/

namespace Effects

variable {ε σ : Type*} {α β : Type}

/-- A sequence of computations that succeeds succeeds at each step. -/
theorem exists_of_bind_ok {x : Except ε α} {f : α → Except ε β} {b : β}
    (h : x >>= f = .ok b) : ∃ a, x = .ok a ∧ f a = .ok b := by
  cases x with
  | error e => exact nomatch h
  | ok a => exact ⟨a, rfl, h⟩

/-- A program over the store `σ` that may raise an `ε`. -/
def Tx (ε σ : Type*) (α : Type) := σ → Except ε α × σ

namespace Tx

def outcome (m : Tx ε σ α) (s : σ) : Except ε α := (m s).1

def after (m : Tx ε σ α) (s : σ) : σ := (m s).2

def ret (a : α) : Tx ε σ α := fun s => (.ok a, s)

def raise (e : ε) : Tx ε σ α := fun s => (.error e, s)

def andThen (m : Tx ε σ α) (f : α → Tx ε σ β) : Tx ε σ β := fun s =>
  match m s with
  | (.ok a, s') => f a s'
  | (.error e, s') => (.error e, s')

instance : Monad (Tx ε σ) where
  pure := ret
  bind := andThen

def read (f : σ → Except ε α) : Tx ε σ α := fun s => (f s, s)

def ofExcept (result : Except ε α) : Tx ε σ α := read fun _ => result

def write (f : σ → σ) : Tx ε σ Unit := fun s => (.ok (), f s)

def each (xs : List β) (body : β → Tx ε σ Unit) : Tx ε σ Unit :=
  match xs with
  | [] => ret ()
  | x :: rest => (body x).andThen fun _ => each rest body

/-- `try: m except e: handler(e)`. -/
def catching (m : Tx ε σ α) (handler : ε → Tx ε σ α) : Tx ε σ α := fun s =>
  match m s with
  | (.ok a, s') => (.ok a, s')
  | (.error e, s') => handler e s'

/-- `try: m finally: cleanup`: an exception of the cleanup takes the place of
what `m` ended in. -/
def finalizing (m : Tx ε σ α) (cleanup : Tx ε σ Unit) : Tx ε σ α := fun s =>
  match m s with
  | (result, s') =>
      match cleanup s' with
      | (.ok _, s'') => (result, s'')
      | (.error e, s'') => (.error e, s'')

/-- The transaction: the store at entry comes back when the body raises. -/
def atomic (m : Tx ε σ α) : Tx ε σ α := fun s =>
  match m s with
  | (.ok a, s') => (.ok a, s')
  | (.error e, _) => (.error e, s)

/-! ### Reading a run -/

variable {m : Tx ε σ α} {f : α → Tx ε σ β} {s s' : σ} {a : α} {e : ε}

theorem bind_of_ok (h : outcome m s = .ok a) : (m >>= f) s = f a (after m s) := by
  change andThen m f s = _
  rcases hm : m s with ⟨result, s'⟩
  obtain rfl : result = .ok a := by simpa [outcome, hm] using h
  simp [andThen, after, hm]

theorem bind_of_error (h : outcome m s = .error e) :
    (m >>= f) s = (.error e, after m s) := by
  change andThen m f s = _
  rcases hm : m s with ⟨result, s'⟩
  obtain rfl : result = .error e := by simpa [outcome, hm] using h
  simp [andThen, after, hm]

theorem after_bind_of_ok (h : outcome m s = .ok a) :
    after (m >>= f) s = after (f a) (after m s) := congrArg Prod.snd (bind_of_ok h)

theorem after_bind_of_error (h : outcome m s = .error e) :
    after (m >>= f) s = after m s := congrArg Prod.snd (bind_of_error h)

theorem outcome_bind_error (h : outcome (m >>= f) s = .error e) :
    outcome m s = .error e ∨ ∃ a, outcome m s = .ok a ∧ outcome (f a) (after m s) = .error e := by
  cases hm : outcome m s with
  | error e' =>
      have hbind : outcome (m >>= f) s = .error e' := congrArg Prod.fst (bind_of_error hm)
      exact .inl (congrArg Except.error (Except.error.inj (hbind.symm.trans h)))
  | ok a =>
      have hbind : outcome (m >>= f) s = outcome (f a) (after m s) :=
        congrArg Prod.fst (bind_of_ok hm)
      exact .inr ⟨a, rfl, hbind.symm.trans h⟩

theorem outcome_bind_ok {b : β} (h : outcome (m >>= f) s = .ok b) :
    ∃ a, outcome m s = .ok a ∧ outcome (f a) (after m s) = .ok b ∧
      after (m >>= f) s = after (f a) (after m s) := by
  cases hm : outcome m s with
  | error e =>
      have hbind : outcome (m >>= f) s = .error e := congrArg Prod.fst (bind_of_error hm)
      exact nomatch hbind.symm.trans h
  | ok a =>
      have hbind : outcome (m >>= f) s = outcome (f a) (after m s) :=
        congrArg Prod.fst (bind_of_ok hm)
      exact ⟨a, rfl, hbind.symm.trans h, after_bind_of_ok hm⟩

theorem atomic_of_ok (h : outcome m s = .ok a) : atomic m s = m s := by
  rcases hm : m s with ⟨result, s'⟩
  obtain rfl : result = .ok a := by simpa [outcome, hm] using h
  simp [atomic, hm]

theorem atomic_of_error (h : outcome m s = .error e) : atomic m s = (.error e, s) := by
  rcases hm : m s with ⟨result, s'⟩
  obtain rfl : result = .error e := by simpa [outcome, hm] using h
  simp [atomic, hm]

@[simp] theorem outcome_atomic : outcome (atomic m) s = outcome m s := by
  cases h : outcome m s with
  | ok a => exact (congrArg Prod.fst (atomic_of_ok h)).trans h
  | error e => exact congrArg Prod.fst (atomic_of_error h)

/-- A transaction around a transaction adds nothing. -/
theorem atomic_atomic (m : Tx ε σ α) : atomic (atomic m) = atomic m := by
  funext s
  cases h : outcome m s with
  | ok a => exact atomic_of_ok (outcome_atomic.trans h)
  | error e => rw [atomic_of_error (outcome_atomic.trans h), atomic_of_error h]

theorem catching_of_ok {handler : ε → Tx ε σ α} (h : outcome m s = .ok a) :
    catching m handler s = (.ok a, after m s) := by
  rcases hm : m s with ⟨result, s'⟩
  obtain rfl : result = .ok a := by simpa [outcome, hm] using h
  simp [catching, after, hm]

theorem catching_of_error {handler : ε → Tx ε σ α} (h : outcome m s = .error e) :
    catching m handler s = handler e (after m s) := by
  rcases hm : m s with ⟨result, s'⟩
  obtain rfl : result = .error e := by simpa [outcome, hm] using h
  simp [catching, after, hm]

theorem after_catching_of_ok {handler : ε → Tx ε σ α} (h : outcome m s = .ok a) :
    after (catching m handler) s = after m s := by
  show (catching m handler s).2 = after m s
  rw [catching_of_ok h]

theorem after_catching_of_error {handler : ε → Tx ε σ α} (h : outcome m s = .error e) :
    after (catching m handler) s = after (handler e) (after m s) :=
  congrArg Prod.snd (catching_of_error h)

theorem after_finalizing (m : Tx ε σ α) (cleanup : Tx ε σ Unit) (s : σ) :
    after (finalizing m cleanup) s = after cleanup (after m s) := by
  rcases hm : m s with ⟨result, s'⟩
  rcases hcleanup : cleanup s' with ⟨_ | _, s''⟩ <;> simp [after, finalizing, hm, hcleanup]

/-! ### How far a program moves the store -/

/-- Every run of `m` moves the store along `R`, however it ends. -/
def Within (R : σ → σ → Prop) (m : Tx ε σ α) : Prop := ∀ s, R s (after m s)

variable {R : σ → σ → Prop}

theorem Within.of_after [Std.Refl R] (h : ∀ s, after m s = s) : Within R m :=
  fun s => (h s).symm ▸ Std.Refl.refl s

theorem Within.pure [Std.Refl R] : Within R (pure a : Tx ε σ α) :=
  .of_after fun _ => rfl

theorem Within.raise [Std.Refl R] : Within R (raise e : Tx ε σ α) :=
  .of_after fun _ => rfl

theorem Within.read [Std.Refl R] (f : σ → Except ε α) : Within R (read f) :=
  .of_after fun _ => rfl

theorem Within.ofExcept [Std.Refl R] (r : Except ε α) :
    Within R (ofExcept r : Tx ε σ α) := .of_after fun _ => rfl

/-- The continuation has to stay within `R` only on the values the first
program can return. -/
theorem Within.bind [IsTrans σ R] (hm : Within R m)
    (hf : ∀ a, (∃ s, outcome m s = .ok a) → Within R (f a)) : Within R (m >>= f) := by
  intro s
  cases h : outcome m s with
  | ok a =>
      rw [after_bind_of_ok h]
      exact IsTrans.trans _ _ _ (hm s) (hf a ⟨s, h⟩ _)
  | error e =>
      rw [after_bind_of_error h]
      exact hm s

theorem Within.catching [IsTrans σ R] {handler : ε → Tx ε σ α} (hm : Within R m)
    (hhandler : ∀ e, Within R (handler e)) : Within R (Tx.catching m handler) := by
  intro s
  cases h : outcome m s with
  | ok a =>
      rw [after_catching_of_ok h]
      exact hm s
  | error e =>
      rw [after_catching_of_error h]
      exact IsTrans.trans _ _ _ (hm s) (hhandler e _)

theorem Within.each [Std.Refl R] [IsTrans σ R] {xs : List β}
    {body : β → Tx ε σ Unit} (h : ∀ x ∈ xs, Within R (body x)) : Within R (each xs body) := by
  induction xs with
  | nil => exact .of_after fun _ => rfl
  | cons x rest ih =>
      rw [List.forall_mem_cons] at h
      exact Within.bind h.1 fun _ _ => ih h.2

/-! ### All or nothing -/

/-- A run that raises leaves the store as it found it. -/
def AllOrNothing (m : Tx ε σ α) : Prop := ∀ s e, outcome m s = .error e → after m s = s

theorem AllOrNothing.atomic (m : Tx ε σ α) : AllOrNothing (atomic m) := by
  intro s e h
  rw [outcome_atomic] at h
  exact congrArg Prod.snd (atomic_of_error h)

/-- Before an all-or-nothing program only reads may stand, and after it only
what cannot raise. -/
theorem AllOrNothing.bind_of_after (hm : ∀ s, after m s = s) (hf : ∀ a, AllOrNothing (f a)) :
    AllOrNothing (m >>= f) := by
  intro s e h
  rcases outcome_bind_error h with herror | ⟨a, hok, herror⟩
  · rw [after_bind_of_error herror, hm s]
  · rw [after_bind_of_ok hok, hm s]
    exact hf a s e (hm s ▸ herror)

theorem AllOrNothing.bind_of_ok (hm : AllOrNothing m)
    (hf : ∀ a s e, outcome (f a) s ≠ .error e) : AllOrNothing (m >>= f) := by
  intro s e h
  rcases outcome_bind_error h with herror | ⟨a, hok, herror⟩
  · rw [after_bind_of_error herror]
    exact hm s e herror
  · exact absurd herror (hf a _ e)

theorem AllOrNothing.catching {handler : ε → Tx ε σ α} (hm : AllOrNothing m)
    (hhandler : ∀ e s, after (handler e) s = s) : AllOrNothing (Tx.catching m handler) := by
  intro s e h
  cases hok : outcome m s with
  | ok a => exact nomatch (congrArg Prod.fst (catching_of_ok hok)).symm.trans h
  | error e' => rw [after_catching_of_error hok, hhandler, hm s e' hok]

/-! ### What a program can raise -/

/-- Every exception that a run of `m` ends in satisfies `E`. -/
def Raises (E : ε → Prop) (m : Tx ε σ α) : Prop := ∀ s e, outcome m s = .error e → E e

variable {E : ε → Prop}

theorem Raises.bind (hm : Raises E m) (hf : ∀ a, Raises E (f a)) : Raises E (m >>= f) := by
  intro s e h
  rcases outcome_bind_error h with herror | ⟨a, _, herror⟩
  · exact hm s e herror
  · exact hf a _ e herror

theorem Raises.each {xs : List β} {body : β → Tx ε σ Unit} (h : ∀ x ∈ xs, Raises E (body x)) :
    Raises E (each xs body) := by
  induction xs with
  | nil => exact fun s e herror => nomatch herror
  | cons x rest ih =>
      rw [List.forall_mem_cons] at h
      exact Raises.bind h.1 fun _ => ih h.2

end Tx

end Effects
