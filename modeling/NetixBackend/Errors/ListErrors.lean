import NetixBackend.Errors.Handler

/-!
The errors of a list endpoint, from where they are raised to the reply.

`_mapped_list_errors` is entered twice: `filter_queryset` is called by `list`,
and both map. An error of the filter backends is therefore mapped, and what it
was mapped to is looked up again. The view answers one error the same way at
whatever stage it comes up exactly when no rule takes over what another has
made of an error.
-/

namespace NetixBackend.Errors

variable {ε : Type}

/-- `(error_type, predicate, message)` -/
structure ListErrorRule (ε : Type) where
  errorType : ε → Bool
  predicate : Option (ε → Bool)
  message : String

/-- `isinstance(error, error_type) and (predicate is None or predicate(error))` -/
def ListErrorRule.applies (rule : ListErrorRule ε) (error : ε) : Bool :=
  rule.errorType error && match rule.predicate with
    | none => true
    | some predicate => predicate error

/-- A view with the mixin. -/
structure ListErrorMapping (ε : Type) where
  listErrorMap : List (ListErrorRule ε)
  /-- `ValidationError(message)` -/
  validationError : String → ε
  /-- `isinstance(error, Exception)` -/
  isException : ε → Bool

namespace ListErrorMapping

variable (self : ListErrorMapping ε)

def firstRule (error : ε) : Option (ListErrorRule ε) := self.listErrorMap.find? (·.applies error)

/-- What an error is to become: the message of the first rule for it. -/
def answer (error : ε) : ε :=
  match self.firstRule error with
  | some rule => self.validationError rule.message
  | none => error

def mappedListErrors {α : Type} : Except ε α → Except ε α
  | .ok a => .ok a
  | .error error => .error (if self.isException error then self.answer error else error)

def filterQueryset {Q : Type} (filterBackends : Q → Except ε Q) (queryset : Q) : Except ε Q :=
  self.mappedListErrors (filterBackends queryset)

/-- DRF's `list`, from the queryset to the page, within the mapping. -/
def list {Q R : Type} (getQueryset : Except ε Q) (filterBackends : Q → Except ε Q)
    (page : Q → Except ε R) : Except ε R :=
  self.mappedListErrors do
    let queryset ← getQueryset
    let queryset ← self.filterQueryset filterBackends queryset
    page queryset

/-! ### Stages -/

inductive Stage
  | queryset
  | filter
  | page
  deriving DecidableEq

/-- A list that raises at one stage. -/
def listRaising (stage : Stage) (error : ε) : Except ε Unit :=
  self.list (if stage = .queryset then .error error else .ok ())
    (fun _ => if stage = .filter then .error error else .ok ())
    fun _ => if stage = .page then .error error else .ok ()

/-- No rule takes over what a rule has made of an error. -/
def Settled : Prop :=
  ∀ error rule, self.isException error = true → self.firstRule error = some rule →
    ∀ rule', self.firstRule (self.validationError rule.message) = some rule' →
      rule'.message = rule.message

variable {self} {error : ε} {rule : ListErrorRule ε}

theorem answer_of_firstRule (h : self.firstRule error = some rule) :
    self.answer error = self.validationError rule.message := by
  rw [answer, h]

theorem answer_of_no_rule (h : self.firstRule error = none) : self.answer error = error := by
  rw [answer, h]

/-- The filter backends' errors are looked up twice, the others once. -/
theorem listRaising_eq (stage : Stage) (herror : self.isException error = true)
    (hmapped : ∀ message, self.isException (self.validationError message) = true) :
    self.listRaising stage error =
      .error (if stage = .filter then self.answer (self.answer error) else self.answer error) := by
  have hanswer : self.isException (self.answer error) = true := by
    cases hrule : self.firstRule error with
    | none => rwa [answer_of_no_rule hrule]
    | some rule => rw [answer_of_firstRule hrule, hmapped]
  have honce : self.mappedListErrors (.error error : Except ε Unit) = .error (self.answer error) := by
    rw [mappedListErrors, if_pos herror]
  cases stage with
  | queryset => exact honce
  | page => exact honce
  | filter =>
      change self.mappedListErrors
        (self.mappedListErrors (.error error : Except ε Unit) >>= fun _ => .ok ()) = _
      rw [honce]
      exact congrArg Except.error (if_pos hanswer)

theorem settled_iff (hmapped : ∀ message, self.isException (self.validationError message) = true)
    (hinj : Function.Injective self.validationError) :
    self.Settled ↔ ∀ stage error, self.isException error = true →
      self.listRaising stage error = .error (self.answer error) := by
  constructor
  · intro hsettled stage error herror
    rw [listRaising_eq stage herror hmapped]
    split
    · cases hrule : self.firstRule error with
      | none => rw [answer_of_no_rule hrule, answer_of_no_rule hrule]
      | some rule =>
          rw [answer_of_firstRule hrule]
          cases hagain : self.firstRule (self.validationError rule.message) with
          | none => rw [answer_of_no_rule hagain]
          | some rule' =>
              rw [answer_of_firstRule hagain, hsettled error rule herror hrule rule' hagain]
    · rfl
  · intro hstages error rule herror hrule rule' hagain
    have hfilter := hstages .filter error herror
    rw [listRaising_eq .filter herror hmapped, if_pos rfl, answer_of_firstRule hrule,
      answer_of_firstRule hagain] at hfilter
    exact hinj (Except.error.inj hfilter)

/-! ### Replies -/

/-- What the handler is to reply to the message of a rule. -/
def ruleResponse (render : ErrorValue → String) (settings : Settings) (message : String) :
    Response where
  status := 400
  headers := []
  statusCode := 400
  messages :=
    if settings.consistentEnvelope then .list ([message].filter (· ≠ ""))
    else renderMessages render settings [message] none true

/-- What DRF makes of `ValidationError(message)`. -/
def validationFailure (message : String) : Failure where
  exc := .validationError [.text message] (.seq .list [.text message])
  drf := some (400, [])

theorem handler_validationFailure (render : ErrorValue → String) {settings : Settings}
    {flatten : Flattener}
    (hresolve : resolveFlattener render settings.flattener none = .ok flatten) (message : String) :
    customExceptionHandler render settings (validationFailure message) =
      .ok (some (ruleResponse render settings message)) := by
  have henvelope : envelopeMessages render settings (validationFailure message).exc =
      .ok (ruleResponse render settings message).messages := by
    unfold envelopeMessages
    change (if _ then _ else _) = Except.ok (if _ then _ else _)
    split
    · by_cases hempty : message = ""
      · subst hempty
        rfl
      · simp [validationFailure, consistentMessages, iterConsistentMessages, iterItems, itemPath,
          ErrorValue.isContainer, ErrorValue.message, ErrorValue.str, withPath, hempty]
    · have hmessages : buildMessages render settings.flattener (.named none)
          (validationFailure message).exc = .ok [message] := by
        change (FlattenerArg.resolve render settings.flattener (.named none) >>= fun flatten =>
          .ok ([ErrorValue.text message].flatMap flatten)) = _
        rw [FlattenerArg.resolve, hresolve]
        exact congrArg Except.ok (by simp [flatten_text hresolve])
      rw [hmessages]
      rfl
  unfold customExceptionHandler
  change (envelopeMessages render settings (validationFailure message).exc >>= fun messages =>
    Except.ok (some (⟨400, [], 400, messages⟩ : Response))) = _
  rw [henvelope]
  rfl

/-- A list view answers an error at every stage with the message of the first
rule for it exactly when its rules are settled; and whichever known flattener
and envelope the service has set, that message alone is what the client gets,
in a 400. -/
theorem list_errors_answered
    (hmapped : ∀ message, self.isException (self.validationError message) = true)
    (hinj : Function.Injective self.validationError) {failure : ε → Failure}
    (hdrf : ∀ message, failure (self.validationError message) = validationFailure message) :
    (self.Settled ↔ ∀ stage error, self.isException error = true →
      self.listRaising stage error = .error (self.answer error)) ∧
    ∀ (render : ErrorValue → String) (settings : Settings) (flatten : Flattener),
      resolveFlattener render settings.flattener none = .ok flatten →
      ∀ error rule, self.firstRule error = some rule →
        customExceptionHandler render settings (failure (self.answer error)) =
          .ok (some (ruleResponse render settings rule.message)) := by
  refine ⟨settled_iff hmapped hinj, fun render settings flatten hresolve error rule hrule => ?_⟩
  rw [answer_of_firstRule hrule, hdrf]
  exact handler_validationFailure render hresolve rule.message

end ListErrorMapping

/-! ### An integer out of range -/

inductive QueryError
  | valueError
  | runtimeError (text : String)
  | validationError (message : String)
  deriving DecidableEq

namespace QueryError

def isRuntimeError : QueryError → Bool
  | runtimeError _ => true
  | _ => false

def outOfRange : QueryError → Bool
  | runtimeError text => text == "out of range"
  | _ => false

def failure : QueryError → Failure
  | validationError message => ListErrorMapping.validationFailure message
  | valueError => { exc := .other .none .none (.args []) }
  | runtimeError text => { exc := .other .none .none (.args [.text text]) }

end QueryError

def rangeRule : ListErrorRule QueryError where
  errorType := QueryError.isRuntimeError
  predicate := some QueryError.outOfRange
  message := "integer out of range"

def queryRule : ListErrorRule QueryError where
  errorType error := error = .valueError
  predicate := none
  message := "Invalid query"

/-- `(Exception, None, "Bad request")` -/
def anyRule : ListErrorRule QueryError where
  errorType _ := true
  predicate := none
  message := "Bad request"

def queryMapping (rules : List (ListErrorRule QueryError)) : ListErrorMapping QueryError where
  listErrorMap := rules
  validationError := .validationError
  isException _ := true

theorem list_errors_answered_queryMapping :
    (queryMapping [rangeRule, queryRule]).Settled ∧
      customExceptionHandler noRendering {} (((queryMapping [rangeRule, queryRule]).answer
        (.runtimeError "out of range")).failure) =
          .ok (some (ListErrorMapping.ruleResponse noRendering {} "integer out of range")) := by
  have hanswered := @ListErrorMapping.list_errors_answered QueryError
    (queryMapping [rangeRule, queryRule]) (fun _ => rfl) (fun _ _ => QueryError.validationError.inj)
    QueryError.failure fun _ => rfl
  have hsettled : (queryMapping [rangeRule, queryRule]).Settled := by
    intro error rule _ _ rule' hrule'
    have hnone : (queryMapping [rangeRule, queryRule]).firstRule (.validationError rule.message) =
        none := rfl
    exact absurd (hnone.symm.trans hrule') (by simp)
  refine ⟨hsettled, ?_⟩
  exact hanswered.2 noRendering {} (flattenTemplate noRendering) rfl (.runtimeError "out of range")
    rangeRule rfl

/-- A rule for every exception takes over from the one before it, in the filter
backends only. -/
example : (queryMapping [queryRule, anyRule]).listRaising .filter .valueError =
      .error (.validationError "Bad request") ∧
    (queryMapping [queryRule, anyRule]).listRaising .page .valueError =
      .error (.validationError "Invalid query") := ⟨rfl, rfl⟩

end NetixBackend.Errors
