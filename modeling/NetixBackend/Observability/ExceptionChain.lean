import NetixBackend.Python.Dict
import NetixBackend.Transition.Trail

/-!
The walk along an exception's `__cause__` and `__context__`.

Exceptions are the nodes of a finite graph. Which link the loop takes is
decided by truth, not by presence: an exception whose class says it is empty
or false is passed over as a cause, and that is the one way off the chain.
-/

namespace NetixBackend.Observability

open Python Transition

variable {ι : Type*}

/-- An exception, by what the walk reads of it. -/
structure ExceptionObject (ι : Type*) where
  /-- `f"{type(exc).__name__}: {exc}"`. -/
  text : String
  cause : Option ι := none
  context : Option ι := none
  /-- `bool(exc)`, false for a class whose `__bool__` or `__len__` says so. -/
  truthy : Bool := true

/-- The exceptions of a process, each under its identity. -/
abbrev Heap (ι : Type*) := ι → ExceptionObject ι

/-! ### The exception of a hint -/

/-- A value of a hint: an exception, a tuple of objects of which some may be
exceptions, or anything else. -/
inductive HintValue (ι : Type*)
  | exception (exc : ι)
  | tuple (items : List (Option ι))
  | other

/-- A hint that is no mapping is `none`. -/
abbrev Hint (ι : Type*) := Option (Dict String (HintValue ι))

def hintException (hint : Hint ι) : Option ι :=
  match hint with
  | none => none
  | some entries =>
      match entries.get? "exc_info" with
      | some (.tuple (_ :: exc :: _)) => exc
      | _ =>
          match entries.get? "originalException" with
          | some (.exception exc) => some exc
          | _ => none

/-! ### Which link is taken -/

variable (heap : Heap ι)

/-- `getattr(exc, "__cause__", None) or getattr(exc, "__context__", None)`. -/
def nextException (exc : ι) : Option ι :=
  match (heap exc).cause with
  | some cause => if (heap cause).truthy then some cause else (heap exc).context
  | none => (heap exc).context

/-- The link to follow when a cause counts as soon as it is present. -/
def causeElseContext (exc : ι) : Option ι := (heap exc).cause.or (heap exc).context

/-- A cause that is passed over, and not met as the context either. -/
def Misled (exc : ι) : Prop :=
  ∃ cause, (heap exc).cause = some cause ∧ (heap cause).truthy = false ∧
    (heap exc).context ≠ some cause

variable {heap}

theorem nextException_eq_iff (exc : ι) :
    nextException heap exc = causeElseContext heap exc ↔ ¬Misled heap exc := by
  unfold nextException causeElseContext Misled
  cases (heap exc).cause with
  | none => simp
  | some cause => cases h : (heap cause).truthy <;> simp [h]

theorem nextException_of_misled {exc : ι} (h : Misled heap exc) :
    nextException heap exc = (heap exc).context := by
  obtain ⟨cause, hcause, hfalsy, -⟩ := h
  simp [nextException, hcause, hfalsy]

/-! ### The loop -/

section Loop

variable (heap) [Fintype ι] [DecidableEq ι]

/-- The `while` of `exception_chain_text`: what it has seen, in the order it
saw it, and what it has put out. -/
def exceptionChainLoop (seen : List ι) (out : List String) : Option ι → List ι × List String
  | none => (seen, out)
  | some current =>
      if h : current ∈ seen then (seen, out)
      else
        have := card_unmet_lt h
        exceptionChainLoop (seen ++ [current]) (out ++ [(heap current).text])
          (nextException heap current)
termination_by seen.toFinsetᶜ.card
decreasing_by assumption

def exceptionChain (exc : Option ι) : List ι × List String := exceptionChainLoop heap [] [] exc

/-- `exception_chain_text`. -/
def exceptionChainText (exc : Option ι) : List String := (exceptionChain heap exc).2

/-- The exceptions visited on the way. -/
def visited (exc : Option ι) : List ι := (exceptionChain heap exc).1

variable {heap} {exc : Option ι}

theorem exceptionChainLoop_eq (seen : List ι) (current : Option ι) :
    exceptionChainLoop heap seen (seen.map fun exc => (heap exc).text) current =
      (walk (nextException heap) seen current,
        (walk (nextException heap) seen current).map fun exc => (heap exc).text) := by
  induction seen, current using walk.induct (nextException heap) with
  | case1 seen => rw [exceptionChainLoop, walk]
  | case2 seen current hseen => rw [exceptionChainLoop, walk, dif_pos hseen, dif_pos hseen]
  | case3 seen current hseen _ ih =>
      rw [exceptionChainLoop, walk, dif_neg hseen, dif_neg hseen, ← ih, List.map_append,
        List.map_singleton]

theorem exceptionChain_eq (exc : Option ι) :
    exceptionChain heap exc = (trail (nextException heap) exc,
      (trail (nextException heap) exc).map fun exc => (heap exc).text) :=
  exceptionChainLoop_eq [] exc

/-- One string for each exception visited. -/
theorem exceptionChainText_eq : exceptionChainText heap exc =
    (visited heap exc).map fun exc => (heap exc).text := by
  rw [exceptionChainText, visited, exceptionChain_eq]

@[simp] theorem exceptionChainText_none : exceptionChainText heap none = [] := by
  rw [exceptionChainText, exceptionChain, exceptionChainLoop]

theorem isTrail_visited : IsTrail (nextException heap) exc (visited heap exc) := by
  rw [visited, exceptionChain_eq]
  exact isTrail_trail _ exc

/-- What `exception_chain_text` is for: it visits the exceptions got by taking
the cause if there is one, else the context, up to the first already visited,
and says one string of each. -/
structure FollowsChain (heap : Heap ι) (exc : Option ι) : Prop where
  text : exceptionChainText heap exc = (visited heap exc).map fun exc => (heap exc).text
  starts : (visited heap exc).head? = exc
  chain : IsTrail (causeElseContext heap) exc (visited heap exc)

/-- Exceptions are true unless their class says otherwise, and then the walk
keeps to the chain. -/
theorem followsChain_of_truthy (h : ∀ exc, (heap exc).truthy = true) : FollowsChain heap exc := by
  have hlinks : nextException heap = causeElseContext heap := by
    refine funext fun exc => (nextException_eq_iff exc).mpr ?_
    rintro ⟨cause, -, hfalsy, -⟩
    rw [h cause] at hfalsy
    cases hfalsy
  exact ⟨exceptionChainText_eq, isTrail_visited.head?, hlinks ▸ isTrail_visited⟩

theorem followsChain_iff (heap : Heap ι) (exc : Option ι) :
    FollowsChain heap exc ↔ ∀ met ∈ trail (causeElseContext heap) exc, Misled heap met →
      (trail (causeElseContext heap) exc).getLast? = some met ∧
        ∀ context ∈ (heap met).context, context ∈ trail (causeElseContext heap) exc := by
  have htrail := isTrail_trail (causeElseContext heap) exc
  have hlinks : IsTrail (nextException heap) exc (trail (causeElseContext heap) exc) ↔
      ∀ met ∈ trail (causeElseContext heap) exc, Misled heap met →
        (trail (causeElseContext heap) exc).getLast? = some met ∧
          ∀ context ∈ (heap met).context, context ∈ trail (causeElseContext heap) exc := by
    rw [htrail.iff_of_links]
    refine forall₂_congr fun met _ => ?_
    rw [nextException_eq_iff, ← imp_iff_not_or]
    refine forall_congr' fun hmisled => ?_
    rw [nextException_of_misled hmisled]
  rw [← hlinks]
  constructor
  · intro h
    rw [htrail.unique h.chain]
    exact isTrail_visited
  · intro h
    have hvisited := isTrail_visited.unique h
    exact ⟨exceptionChainText_eq, isTrail_visited.head?, by rwa [hvisited]⟩

end Loop

/-- An exception raised from one whose class has a `__len__` of zero. -/
def emptyCause : Heap (Fin 2) := fun exc =>
  if exc = 0 then { text := "RuntimeError: outer", cause := some 1 }
  else { text := "RowErrors: ", truthy := false }

theorem not_followsChain_emptyCause : ¬FollowsChain emptyCause (some 0) := by
  have hvisited : visited emptyCause (some 0) = [0] := by
    simp [visited, exceptionChain, exceptionChainLoop, nextException, emptyCause]
  intro h
  have hends := h.chain.ends 1
  rw [hvisited] at hends
  simp [follow, causeElseContext, emptyCause] at hends

end NetixBackend.Observability
