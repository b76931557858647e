import NetixBackend.Python.ContextVar

/-!
A context variable in all the contexts of a process.

Code runs in one context and works on the variable as that context has it
(`here`); what it leaves is put back there (`put`). A task or a thread starts in
a copy of the context it is started from. The tokens are objects of the
process: any code may come to hold any of them, but a token is good only in the
context it was minted in.

So what a context holds was set there or copied from where it was set. `Allows`
says this of any property of values that depends on the context: it is kept by
every operation whose own value has the property, and by a copy if the property
carries over.
-/

namespace Python

structure ContextVars (α : Type*) where
  values : ℕ → Option (Bound α)
  tokens : ℕ → Token α
  fresh : ℕ

namespace ContextVars

variable {α : Type*}

/-- Set nowhere yet. -/
def unset : ContextVars α where
  values _ := none
  tokens _ := { context := 0, old := none }
  fresh := 0

/-- The variable as code in one context has it. -/
def here (vars : ContextVars α) (context : ℕ) : ContextVar α where
  context := context
  value := vars.values context
  tokens := vars.tokens
  fresh := vars.fresh

/-- Code has left the variable of its context as `var`. -/
def put (vars : ContextVars α) (var : ContextVar α) : ContextVars α where
  values := Function.update vars.values var.context var.value
  tokens := var.tokens
  fresh := var.fresh

/-- A context starts as a copy of another. -/
def copy (vars : ContextVars α) (source target : ℕ) : ContextVars α :=
  { vars with values := Function.update vars.values target (vars.values source) }

variable {vars : ContextVars α} {var : ContextVar α} {context other : ℕ}

@[simp] theorem put_here (vars : ContextVars α) (context : ℕ) :
    vars.put (vars.here context) = vars := by
  simp only [put, here, Function.update_eq_self]

/-- Code in one context leaves the others alone. -/
theorem values_put_of_ne (h : other ≠ var.context) : (vars.put var).values other = vars.values other :=
  Function.update_of_ne h ..

@[simp] theorem values_put_self : (vars.put var).values var.context = var.value :=
  Function.update_self ..

/-- What a context holds, and what a token would put back there, is allowed in
that context. -/
structure Allows (P : ℕ → α → Prop) (vars : ContextVars α) : Prop where
  value : ∀ context bound, vars.values context = some bound → P context bound.value
  token : ∀ id bound, (vars.tokens id).old = some bound → P (vars.tokens id).context bound.value

variable {P Q : ℕ → α → Prop}

theorem Allows.unset : (unset : ContextVars α).Allows P where
  value _ _ h := nomatch h
  token _ _ h := nomatch h

theorem Allows.mono (h : vars.Allows P) (hPQ : ∀ context a, P context a → Q context a) :
    vars.Allows Q where
  value context bound hvalue := hPQ _ _ (h.value context bound hvalue)
  token id bound hold := hPQ _ _ (h.token id bound hold)

theorem Allows.set (h : vars.Allows P) {a : α} (ha : P context a) :
    (vars.put ((vars.here context).set a).2).Allows P where
  value other bound hvalue := by
    by_cases hother : other = context
    · subst hother
      have hbound : some ⟨a, some vars.fresh⟩ = some bound :=
        (Function.update_self other ..).symm.trans hvalue
      obtain rfl := Option.some.inj hbound
      exact ha
    · exact h.value other bound ((values_put_of_ne hother).symm.trans hvalue)
  token id bound hold := by
    change (Function.update vars.tokens vars.fresh _ id).old = some bound at hold
    change P (Function.update vars.tokens vars.fresh _ id).context bound.value
    by_cases hid : id = vars.fresh
    · subst hid
      rw [Function.update_self] at hold ⊢
      exact h.value context bound hold
    · rw [Function.update_of_ne hid] at hold ⊢
      exact h.token id bound hold

theorem Allows.reset (h : vars.Allows P) {token : ℕ}
    (hreset : (vars.here context).reset token = .ok var) : (vars.put var).Allows P := by
  obtain ⟨-, hcontext, rfl⟩ := ContextVar.reset_cases hreset
  change (vars.tokens token).context = context at hcontext
  refine ⟨fun other bound hvalue => ?_, fun id bound hold => ?_⟩
  · by_cases hother : other = context
    · subst hother
      have hold : (vars.tokens token).old = some bound :=
        (Function.update_self other ..).symm.trans hvalue
      exact hcontext ▸ h.token token bound hold
    · exact h.value other bound ((Function.update_of_ne hother ..).symm.trans hvalue)
  · change (Function.update vars.tokens token _ id).old = some bound at hold
    change P (Function.update vars.tokens token _ id).context bound.value
    by_cases hid : id = token
    · subst hid
      rw [Function.update_self] at hold ⊢
      exact h.token id bound hold
    · rw [Function.update_of_ne hid] at hold ⊢
      exact h.token id bound hold

theorem Allows.copy (h : vars.Allows P) {source target : ℕ}
    (hcarry : ∀ a, P source a → P target a) : (vars.copy source target).Allows P where
  value other bound hvalue := by
    change Function.update vars.values target (vars.values source) other = some bound at hvalue
    by_cases hother : other = target
    · subst hother
      rw [Function.update_self] at hvalue
      exact hcarry _ (h.value source bound hvalue)
    · rw [Function.update_of_ne hother] at hvalue
      exact h.value other bound hvalue
  token := h.token

/-- A token minted in another context is refused there. -/
theorem reset_of_foreign {token : ℕ} (hused : (vars.tokens token).used = false)
    (hforeign : (vars.tokens token).context ≠ context) :
    (vars.here context).reset token = .error .valueError := by
  simp [ContextVar.reset, here, hused, hforeign]

end ContextVars

end Python
