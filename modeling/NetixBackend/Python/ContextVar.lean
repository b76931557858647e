import Mathlib.Logic.Function.Basic
import Mathlib.Order.Nat

/-!
A context variable, in one context.

`set` answers with a token that records what the variable held; `reset` puts
that back, once. A token is an object of its own, so the variable is kept
together with the tokens minted so far, and a token is its number among them.

Every value carries the number of the `set` that bound it. No operation reads
the number; it is there to say where a value comes from. A value comes from
an earlier `set` than the token that recorded it (`Ordered`), so after the
reset of a token nothing minted since is left in the variable, and until one of
the tokens minted since is reset itself, nothing of it comes back (`Avoids`).
-/

namespace Python

/-- A value, and the `set` that bound it: none, if it was there before. -/
structure Bound (α : Type*) where
  value : α
  setter : Option ℕ

structure Token (α : Type*) where
  context : ℕ
  /-- What the variable held; nothing, where it was not set. -/
  old : Option (Bound α)
  used : Bool := false

def Token.setter {α : Type*} (token : Token α) : Option ℕ := token.old.bind Bound.setter

inductive TokenError
  | runtimeError
  | valueError
  deriving DecidableEq, Repr

structure ContextVar (α : Type*) where
  context : ℕ
  value : Option (Bound α)
  tokens : ℕ → Token α
  /-- The number of the next token. -/
  fresh : ℕ

namespace ContextVar

variable {α : Type*}

/-- A variable before its first `set`, or with a value from elsewhere. -/
def initial (context : ℕ) (value : Option α) : ContextVar α where
  context := context
  value := value.map fun a => ⟨a, none⟩
  tokens _ := { context := context, old := none }
  fresh := 0

def get (var : ContextVar α) (default : α) : α := (var.value.map Bound.value).getD default

def setter (var : ContextVar α) : Option ℕ := var.value.bind Bound.setter

def set (var : ContextVar α) (a : α) : ℕ × ContextVar α :=
  (var.fresh,
    { var with
      value := some ⟨a, some var.fresh⟩
      tokens := Function.update var.tokens var.fresh { context := var.context, old := var.value }
      fresh := var.fresh + 1 })

/-- A second use is refused, and a token of another context. -/
def reset (var : ContextVar α) (token : ℕ) : Except TokenError (ContextVar α) :=
  if (var.tokens token).used then .error .runtimeError
  else if (var.tokens token).context ≠ var.context then .error .valueError
  else
    .ok
      { var with
        value := (var.tokens token).old
        tokens := Function.update var.tokens token { var.tokens token with used := true } }

variable {var var' : ContextVar α} {token : ℕ} {a : α}

theorem reset_of_unused (hused : (var.tokens token).used = false)
    (hcontext : (var.tokens token).context = var.context) :
    var.reset token = .ok
      { var with
        value := (var.tokens token).old
        tokens := Function.update var.tokens token { var.tokens token with used := true } } := by
  simp [reset, hused, hcontext]

theorem reset_cases (h : var.reset token = .ok var') :
    (var.tokens token).used = false ∧ (var.tokens token).context = var.context ∧
      var' =
        { var with
          value := (var.tokens token).old
          tokens := Function.update var.tokens token { var.tokens token with used := true } } := by
  unfold reset at h
  split at h
  · exact nomatch h
  · rename_i hused
    split at h
    · exact nomatch h
    · rename_i hcontext
      exact ⟨by simpa using hused, not_not.mp hcontext, (Except.ok.inj h).symm⟩

theorem setter_update (tokens : ℕ → Token α) (used : Bool) (id : ℕ) :
    (Function.update tokens token { tokens token with used } id).setter = (tokens id).setter := by
  by_cases hid : id = token
  · subst hid
    rw [Function.update_self]
    rfl
  · rw [Function.update_of_ne hid]

/-! ### Where values come from -/

/-- A token records what an earlier `set` bound. -/
structure Ordered (var : ContextVar α) : Prop where
  value : ∀ n, var.setter = some n → n < var.fresh
  token : ∀ id n, (var.tokens id).setter = some n → n < id ∧ id < var.fresh

theorem Ordered.initial (context : ℕ) (value : Option α) : (initial context value).Ordered := by
  refine ⟨fun n h => ?_, fun id n h => nomatch h⟩
  cases value <;> exact nomatch h

theorem Ordered.set (h : var.Ordered) (a : α) : (var.set a).2.Ordered := by
  refine ⟨fun n hn => ?_, fun id n hn => ?_⟩
  · obtain rfl := Option.some.inj hn
    exact Nat.lt_succ_self _
  · by_cases hid : id = var.fresh
    · subst hid
      have hold : var.setter = some n := by
        simpa [ContextVar.set, Token.setter, setter] using hn
      exact ⟨h.value n hold, Nat.lt_succ_self _⟩
    · have hold : (var.tokens id).setter = some n := by
        simpa [ContextVar.set, Function.update_of_ne hid] using hn
      exact ⟨(h.token id n hold).1, Nat.lt_succ_of_lt (h.token id n hold).2⟩

theorem Ordered.reset (h : var.Ordered) (hreset : var.reset token = .ok var') : var'.Ordered := by
  obtain ⟨-, -, rfl⟩ := reset_cases hreset
  refine ⟨fun n hn => ?_, fun id n hn => ?_⟩
  · have hlt := h.token token n hn
    exact hlt.1.trans hlt.2
  · exact h.token id n ((setter_update var.tokens true id).symm.trans hn)

/-- Nothing that the `set`s of `P` bound is in the variable, or would come back
into it by the reset of a token outside `P`. -/
structure Avoids (P : ℕ → Prop) (var : ContextVar α) : Prop where
  value : ∀ n, var.setter = some n → ¬ P n
  token : ∀ id, ¬ P id → ∀ n, (var.tokens id).setter = some n → ¬ P n

variable {P : ℕ → Prop}

theorem Avoids.set (h : var.Avoids P) (hfresh : ¬ P var.fresh) (a : α) : (var.set a).2.Avoids P := by
  refine ⟨fun n hn => ?_, fun id hid n hn => ?_⟩
  · obtain rfl := Option.some.inj hn
    exact hfresh
  · by_cases heq : id = var.fresh
    · subst heq
      exact h.value n (by simpa [ContextVar.set, Token.setter, setter] using hn)
    · exact h.token id hid n (by simpa [ContextVar.set, Function.update_of_ne heq] using hn)

theorem Avoids.reset (h : var.Avoids P) (htoken : ¬ P token)
    (hreset : var.reset token = .ok var') : var'.Avoids P := by
  obtain ⟨-, -, rfl⟩ := reset_cases hreset
  refine ⟨fun n hn => h.token token htoken n hn, fun id hid n hn => ?_⟩
  exact h.token id hid n ((setter_update var.tokens true id).symm.trans hn)

/-- The reset of a token leaves nothing that was bound since its `set`. -/
theorem Ordered.avoids_of_reset (h : var.Ordered) (hreset : var.reset token = .ok var') :
    var'.Avoids fun n => token ≤ n ∧ n < var'.fresh := by
  obtain ⟨-, -, rfl⟩ := reset_cases hreset
  refine ⟨fun n hn hP => ?_, fun id hid n hn hP => ?_⟩
  · exact absurd (h.token token n hn).1 (not_lt.mpr hP.1)
  · have hlt := h.token id n ((setter_update var.tokens true id).symm.trans hn)
    exact hid ⟨hP.1.trans hlt.1.le, hlt.2⟩

end ContextVar

end Python
