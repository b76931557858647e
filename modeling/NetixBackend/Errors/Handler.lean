import NetixBackend.Errors.Consistent
import NetixBackend.Errors.Construction

/-!
The exception handler: from an exception to the envelope a client reads.

DRF's own handler comes first; what it answers keeps its status and headers and
gets a new body. How Python writes a container is the parameter `render` as
before, so a body that does not depend on `render` shows nobody a `repr`. Only
under the consistent envelope is that so of every plain exception: every other
setting writes some plain error as Python does. An exception that is not plain
has no detail and no message, and its `str()` is that of a container.
-/

namespace NetixBackend.Errors

/-- The settings that are read, each under its name without `NETIX_ERRORS_`. -/
structure Settings where
  flattener : String := "template"
  stringified : Bool := true
  http404AsList : Bool := true
  nonValidationAsList : Bool := false
  consistentEnvelope : Bool := false
  dbUnavailable503 : Bool := false

/-- The value of `messages` in the body. -/
inductive Messages
  | text (message : String)
  | list (messages : List String)
  deriving DecidableEq

/-- An exception at the handler. -/
structure Failure where
  exc : Raised
  /-- `isinstance(exc, (DatabaseError, OperationalError))` -/
  databaseError : Bool := false
  /-- The status and the headers of what DRF's own handler answers, if it
  answers. -/
  drf : Option (ℕ × List (String × String)) := none

structure Response where
  status : ℕ
  headers : List (String × String)
  /-- `data["status_code"]` -/
  statusCode : ℕ
  /-- `data["messages"]` -/
  messages : Messages
  deriving DecidableEq

def dbUnavailableMessage : String := "Service temporarily unavailable"

section

variable (render : ErrorValue → String) (settings : Settings)

/-- The wire shape of `messages`. -/
def renderMessages (messages : List String) (stringified : Option Bool) (asList : Bool) : Messages :=
  if asList then
    if stringified.getD settings.stringified then
      .text (render (.seq .list (messages.map .text)))
    else .list messages
  else .text (messages.headD "")

def asListFor : Raised → Bool
  | .validationError .. => true
  | .http404 => settings.http404AsList
  | .other .. => settings.nonValidationAsList

/-- What the body of an answer by DRF is rewritten to. -/
def envelopeMessages (exc : Raised) : Except ImproperlyConfigured Messages :=
  if settings.consistentEnvelope then .ok (.list (consistentMessages render exc))
  else do
    let messages ← buildMessages render settings.flattener (.named none) exc
    return renderMessages render settings messages none (asListFor settings exc)

def customExceptionHandler (failure : Failure) : Except ImproperlyConfigured (Option Response) :=
  match failure.drf with
  | none =>
      if settings.dbUnavailable503 && failure.databaseError then
        .ok (some
          { status := 503
            headers := []
            statusCode := 503
            messages :=
              if settings.consistentEnvelope then .list [dbUnavailableMessage]
              else .text dbUnavailableMessage })
      else .ok none
  | some (status, headers) => do
      let messages ← envelopeMessages render settings failure.exc
      return some { status, headers, statusCode := status, messages }

end

/-! ### The consistent envelope -/

section Consistent

variable {render : ErrorValue → String} {settings : Settings}

theorem withPath_ne_empty {message : String} (h : message ≠ "") (path : String) :
    withPath path message ≠ "" := by
  unfold withPath
  split
  · intro hempty
    have := congrArg String.length hempty
    simp at this
  · exact h

theorem message_ne_empty {value : ErrorValue} {message : String}
    (h : value.message render = some message) : message ≠ "" := by
  cases value with
  | none => exact nomatch h
  | _ =>
      simp only [ErrorValue.message] at h
      split at h
      · rename_i hne
        exact Option.some.inj h ▸ hne
      · exact nomatch h

theorem leaf_ne_empty {value : ErrorValue} (h : value.isContainer = false) (path : String) :
    ∀ message ∈ iterConsistentMessages render value path, message ≠ "" := by
  rw [iterConsistentMessages_of_leaf h, leaves_of_leaf h]
  intro message hmem
  obtain ⟨leaf, hleaf, rfl⟩ := List.mem_map.mp hmem
  obtain ⟨text, htext, rfl⟩ := List.mem_map.mp hleaf
  exact withPath_ne_empty (message_ne_empty (Option.mem_toList.mp htext)) _

mutual
/-- No message of the walk is empty. -/
theorem iterConsistentMessages_ne_empty : ∀ (value : ErrorValue) (path : String),
    ∀ message ∈ iterConsistentMessages render value path, message ≠ ""
  | .dict entries, path => by
      rw [iterConsistentMessages]
      exact iterEntries_ne_empty entries path
  | .seq .list items, path => by
      rw [iterConsistentMessages]
      exact iterItems_ne_empty items 0 path
  | .seq .tuple items, path => by
      rw [iterConsistentMessages]
      exact iterItems_ne_empty items 0 path
  | .seq .set items, path => leaf_ne_empty rfl path
  | .none, path => leaf_ne_empty rfl path
  | .text s, path => leaf_ne_empty rfl path
  | .scalar truthy shown, path => leaf_ne_empty rfl path

theorem iterEntries_ne_empty : ∀ (entries : List (String × ErrorValue)) (path : String),
    ∀ message ∈ iterEntries render entries path, message ≠ ""
  | [], _ => by simp [iterEntries]
  | (key, item) :: rest, path => by
      rw [iterEntries]
      intro message hmem
      rcases List.mem_append.mp hmem with hmem | hmem
      · exact iterConsistentMessages_ne_empty item (keyPath path key) message hmem
      · exact iterEntries_ne_empty rest path message hmem

theorem iterItems_ne_empty : ∀ (items : List ErrorValue) (index : ℕ) (path : String),
    ∀ message ∈ iterItems render items index path, message ≠ ""
  | [], _, _ => by simp [iterItems]
  | item :: rest, index, path => by
      rw [iterItems]
      intro message hmem
      rcases List.mem_append.mp hmem with hmem | hmem
      · exact iterConsistentMessages_ne_empty item (itemPath path index item) message hmem
      · exact iterItems_ne_empty rest (index + 1) path message hmem
end

theorem consistentMessages_ne_empty (exc : Raised) :
    ∀ message ∈ consistentMessages render exc, message ≠ "" := by
  cases exc with
  | validationError args detail => exact iterConsistentMessages_ne_empty detail ""
  | http404 =>
      intro message hmem
      obtain rfl := List.mem_singleton.mp hmem
      decide
  | other detail message text => exact iterConsistentMessages_ne_empty _ ""

/-- The text shows no list, tuple or dict. -/
def ExcText.Plain : ExcText → Prop
  | .own shown => ∀ render render' : ErrorValue → String,
      (∀ items, render' (.seq .set items) = render (.seq .set items)) → shown render' = shown render
  | .args [] => True
  | .args [arg] => arg.isContainer = false
  | .args _ => False

/-- Its messages come from a detail, a message or a plain text. -/
def Raised.Plain : Raised → Prop
  | .other .none .none text => text.Plain
  | _ => True

theorem str_congr {render' : ErrorValue → String}
    (h : ∀ items, render' (.seq .set items) = render (.seq .set items)) {text : ExcText}
    (hplain : text.Plain) : text.str render' = text.str render := by
  match text, hplain with
  | .own _, hshown => exact hshown render render' h
  | .args [], _ => rfl
  | .args [_], hleaf => exact ErrorValue.of_leaf h rfl (fun _ => rfl) (fun _ _ => rfl) hleaf

theorem detailOf_congr {render' : ErrorValue → String}
    (h : ∀ items, render' (.seq .set items) = render (.seq .set items)) {detail message : ErrorValue}
    {text : ExcText} (hplain : (Raised.other detail message text).Plain) :
    detailOf render' detail message text = detailOf render detail message text := by
  cases detail with
  | none =>
      cases message with
      | none => exact congrArg ErrorValue.text (str_congr h hplain)
      | _ => rfl
  | _ => rfl

theorem consistentMessages_congr {render' : ErrorValue → String}
    (h : ∀ items, render' (.seq .set items) = render (.seq .set items)) {exc : Raised}
    (hplain : exc.Plain) : consistentMessages render' exc = consistentMessages render exc := by
  have hwalk : ∀ value, iterConsistentMessages render' value "" =
      iterConsistentMessages render value "" := fun value => by
    rw [iterConsistentMessages_eq, iterConsistentMessages_eq, leaves_congr h]
  cases exc with
  | validationError args detail => exact hwalk detail
  | http404 => rfl
  | other detail message text =>
      change iterConsistentMessages render' (detailOf render' detail message text) "" =
        iterConsistentMessages render (detailOf render detail message text) ""
      rw [detailOf_congr h hplain, hwalk]

/-- How Python writes lists, tuples and dicts is nowhere in what the handler
does with plain exceptions. -/
def Unrendered (settings : Settings) : Prop :=
  ∀ (failure : Failure) (render render' : ErrorValue → String), failure.exc.Plain →
    (∀ items, render' (.seq .set items) = render (.seq .set items)) →
      customExceptionHandler render' settings failure =
        customExceptionHandler render settings failure

/-- Every answer is a list of texts, none of them empty. -/
def ListsMessages (settings : Settings) : Prop :=
  ∀ (render : ErrorValue → String) (failure : Failure), ∃ answer,
    customExceptionHandler render settings failure = .ok answer ∧
      ∀ response ∈ answer, ∃ messages, response.messages = .list messages ∧
        ∀ message ∈ messages, message ≠ ""

theorem unrendered_of_consistent (h : settings.consistentEnvelope = true) : Unrendered settings := by
  intro failure render render' hplain hsets
  have henvelope : envelopeMessages render' settings failure.exc =
      envelopeMessages render settings failure.exc := by
    rw [envelopeMessages, envelopeMessages, if_pos h, if_pos h, consistentMessages_congr hsets hplain]
  unfold customExceptionHandler
  cases failure.drf with
  | none => rfl
  | some answered => rw [henvelope]

theorem listsMessages_of_consistent (h : settings.consistentEnvelope = true) :
    ListsMessages settings := by
  intro render failure
  unfold customExceptionHandler
  cases failure.drf with
  | none =>
      by_cases hdb : (settings.dbUnavailable503 && failure.databaseError) = true
      · refine ⟨_, if_pos hdb, ?_⟩
        rintro response ⟨⟩
        refine ⟨[dbUnavailableMessage], if_pos h, fun message hmem => ?_⟩
        obtain rfl := List.mem_singleton.mp hmem
        decide
      · exact ⟨none, if_neg hdb, fun response hresponse => nomatch hresponse⟩
  | some answered =>
      have henvelope : envelopeMessages render settings failure.exc =
          .ok (.list (consistentMessages render failure.exc)) := if_pos h
      refine ⟨some ⟨answered.1, answered.2, answered.1, .list (consistentMessages render failure.exc)⟩,
        by rw [henvelope]; rfl, ?_⟩
      rintro response ⟨⟩
      exact ⟨_, rfl, consistentMessages_ne_empty failure.exc⟩

/-! ### Exceptions that are not plain -/

/-- A rendering that shows sets and nothing else. -/
def markedRendering (mark : String) : ErrorValue → String
  | .seq .set _ => ""
  | _ => mark

/-- A text that is not plain tells two renderings apart. -/
theorem exists_str_ne {text : ExcText} (h : ¬text.Plain) :
    ∃ render render' : ErrorValue → String,
      (∀ items, render' (.seq .set items) = render (.seq .set items)) ∧
        text.str render' ≠ text.str render := by
  have hmarked : (∀ mark, text.str (markedRendering mark) = mark) →
      ∃ render render' : ErrorValue → String,
        (∀ items, render' (.seq .set items) = render (.seq .set items)) ∧
          text.str render' ≠ text.str render := fun hmark => by
    refine ⟨markedRendering "a", markedRendering "b", fun _ => rfl, ?_⟩
    rw [hmark, hmark]
    decide
  match text, h with
  | .own shown, h =>
      simp only [ExcText.Plain, not_forall] at h
      obtain ⟨render, render', hsets, hne⟩ := h
      exact ⟨render, render', hsets, hne⟩
  | .args [], h => exact absurd trivial h
  | .args [.dict _], _ => exact hmarked fun _ => rfl
  | .args [.seq .list _], _ => exact hmarked fun _ => rfl
  | .args [.seq .tuple _], _ => exact hmarked fun _ => rfl
  | .args [.seq .set _], h => exact absurd rfl h
  | .args [.none], h => exact absurd rfl h
  | .args [.text _], h => exact absurd rfl h
  | .args [.scalar _ _], h => exact absurd rfl h
  | .args (_ :: _ :: _), _ => exact hmarked fun _ => rfl

theorem text_of_not_plain {exc : Raised} (h : ¬exc.Plain) :
    ∃ text : ExcText, exc = .other .none .none text ∧ ¬text.Plain := by
  cases exc with
  | validationError args detail => exact absurd trivial h
  | http404 => exact absurd trivial h
  | other detail message text =>
      cases detail with
      | none =>
          cases message with
          | none => exact ⟨text, rfl, h⟩
          | _ => exact absurd trivial h
      | _ => exact absurd trivial h

/-- An exception that is no more than a text has it as its one message. -/
theorem consistentMessages_text (text : ExcText) :
    consistentMessages render (.other .none .none text) =
      if text.str render ≠ "" then [text.str render] else [] := by
  change ((if text.str render ≠ "" then some (text.str render) else none).toList.map
    (withPath "")) = _
  split
  · rfl
  · rfl

/-- The messages of an exception show how Python writes a list, a tuple or a
dict exactly when it is not plain. -/
theorem consistentMessages_unrendered_iff (exc : Raised) :
    (∀ render render' : ErrorValue → String,
      (∀ items, render' (.seq .set items) = render (.seq .set items)) →
        consistentMessages render' exc = consistentMessages render exc) ↔ exc.Plain := by
  refine ⟨fun h => ?_, fun hplain render render' hsets => consistentMessages_congr hsets hplain⟩
  by_contra hexc
  obtain ⟨text, rfl, htext⟩ := text_of_not_plain hexc
  obtain ⟨render, render', hsets, hne⟩ := exists_str_ne htext
  have heq := h render render' hsets
  rw [consistentMessages_text, consistentMessages_text] at heq
  by_cases hempty : text.str render' = ""
  · by_cases hempty' : text.str render = ""
    · exact hne (hempty.trans hempty'.symm)
    · simp [hempty, hempty'] at heq
  · by_cases hempty' : text.str render = ""
    · simp [hempty, hempty'] at heq
    · simp only [if_pos hempty, if_pos hempty'] at heq
      exact hne (List.cons.inj heq).1

/-! ### Every other setting -/

/-- A 400 whose detail names a field with a list of messages, raised by a class
that is no `ValidationError`. -/
def fieldFailure : Failure where
  exc := .other (.dict [("field", .seq .list [.text "bad"])]) .none (.args [])
  drf := some (400, [])

theorem fieldFailure_rendered (h : settings.consistentEnvelope = false) :
    customExceptionHandler (markedRendering "a") settings fieldFailure ≠
      customExceptionHandler (markedRendering "b") settings fieldFailure := by
  have henvelope : ∀ mark, envelopeMessages (markedRendering mark) settings fieldFailure.exc =
      .ok (renderMessages (markedRendering mark) settings ["field: " ++ mark] none
        settings.nonValidationAsList) := fun mark => by
    rw [envelopeMessages, h]
    rfl
  have hanswer : ∀ mark, customExceptionHandler (markedRendering mark) settings fieldFailure =
      .ok (some ⟨400, [], 400, renderMessages (markedRendering mark) settings ["field: " ++ mark] none
        settings.nonValidationAsList⟩) := fun mark => by
    unfold customExceptionHandler
    change (envelopeMessages (markedRendering mark) settings fieldFailure.exc >>= fun messages =>
      Except.ok (some (⟨400, [], 400, messages⟩ : Response))) = _
    rw [henvelope]
    rfl
  have hmessages : renderMessages (markedRendering "a") settings ["field: a"] none
      settings.nonValidationAsList ≠ renderMessages (markedRendering "b") settings ["field: b"] none
        settings.nonValidationAsList := by
    rw [renderMessages, renderMessages]
    cases settings.nonValidationAsList <;> cases settings.stringified <;> decide
  intro heq
  rw [hanswer, hanswer] at heq
  exact hmessages (congrArg Response.messages (Option.some.inj (Except.ok.inj heq)))

/-- The consistent envelope is the one setting under which no answer to a plain
exception shows how Python writes a container, sets apart; under it, every answer
is a list of messages with none of them empty. The exceptions that are not plain
are those whose messages show a container under it too. -/
theorem consistentEnvelope_iff (settings : Settings) :
    (settings.consistentEnvelope = true ↔ Unrendered settings ∧ ListsMessages settings) ∧
      ∀ exc : Raised, (∀ render render' : ErrorValue → String,
        (∀ items, render' (.seq .set items) = render (.seq .set items)) →
          consistentMessages render' exc = consistentMessages render exc) ↔ exc.Plain := by
  refine ⟨⟨fun h => ⟨unrendered_of_consistent h, listsMessages_of_consistent h⟩, fun ⟨h, _⟩ => ?_⟩,
    consistentMessages_unrendered_iff⟩
  by_contra hlegacy
  rw [Bool.not_eq_true] at hlegacy
  exact fieldFailure_rendered hlegacy (h fieldFailure (markedRendering "b") (markedRendering "a")
    trivial fun _ => rfl)

end Consistent

end NetixBackend.Errors
