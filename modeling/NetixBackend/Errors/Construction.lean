import NetixBackend.Errors.Messages

/-!
The messages of a validation error against the way it was constructed.

Python keeps the positional arguments of the constructor in `exc.args` and
nothing else; the framework keeps the payload in `exc.detail`, normalised.
`build_messages` flattens the former. So a payload given by keyword is not
there, and an error code given by position is.
-/

namespace NetixBackend.Errors

/-- The calls of `ValidationError(detail=None, code=None)` that pass a payload. -/
inductive Construction
  /-- `ValidationError(d)` -/
  | positional
  /-- `ValidationError(detail=d)` -/
  | keyword
  /-- `ValidationError(d, c)` -/
  | positionalCode (code : String)
  /-- `ValidationError(d, code=c)` -/
  | keywordCode (code : String)

namespace Construction

/-- The positional arguments, in order. -/
def args (payload : ErrorValue) : Construction → List ErrorValue
  | positional | keywordCode _ => [payload]
  | keyword => []
  | positionalCode code => [payload, .text code]

def code : Construction → Option String
  | positional | keyword => none
  | positionalCode code | keywordCode code => some code

/-- The exception, given how the framework normalises a payload with a code. -/
def construct (normalise : ErrorValue → Option String → ErrorValue) (payload : ErrorValue)
    (form : Construction) : Raised :=
  .validationError (form.args payload) (normalise payload form.code)

end Construction

variable {render : ErrorValue → String} {setting : String} {arg : FlattenerArg}
  {flatten : Flattener} {normalise : ErrorValue → Option String → ErrorValue}

theorem buildMessages_construct (hresolve : arg.resolve render setting = .ok flatten)
    (payload : ErrorValue) (form : Construction) :
    buildMessages render setting arg (form.construct normalise payload) =
      .ok ((form.args payload).flatMap flatten) := by
  rw [Construction.construct, buildMessages, hresolve]
  rfl

/-- Every named flattener makes a text into itself. -/
theorem flatten_text {name : Option String}
    (hresolve : resolveFlattener render setting name = .ok flatten) (s : String) :
    flatten (.text s) = [s] := by
  unfold resolveFlattener at hresolve
  have hmem : ∀ entry ∈ flatteners render, entry.2 (.text s) = [s] := by
    simp [flatteners, flattenTemplate, flattenKeyed, flattenFirstError, flattenNested,
      flattenSequence]
  cases hlookup : (flatteners render).lookup (name.getD setting) with
  | none => simp [hlookup] at hresolve
  | some flattener =>
      simp only [hlookup] at hresolve
      obtain rfl := Except.ok.inj hresolve
      obtain ⟨before, after, heq, -⟩ := List.lookup_eq_some_iff.mp hlookup
      exact hmem (name.getD setting, flattener) (heq ▸ List.mem_append_right _ List.mem_cons_self)

/-- The messages are those of the payload exactly when it has none or is not
given by keyword, and the code has none or is not given by position. -/
theorem buildMessages_iff (hresolve : arg.resolve render setting = .ok flatten)
    (normalise : ErrorValue → Option String → ErrorValue) (payload : ErrorValue)
    (form : Construction) :
    buildMessages render setting arg (form.construct normalise payload) = .ok (flatten payload) ↔
      (form = .keyword → flatten payload = []) ∧
        ∀ code, form = .positionalCode code → flatten (.text code) = [] := by
  rw [buildMessages_construct hresolve, Except.ok.injEq]
  cases form with
  | positional => simp [Construction.args]
  | keyword =>
      change [] = flatten payload ↔ _
      exact ⟨fun h => ⟨fun _ => h.symm, fun _ hform => nomatch hform⟩, fun h => (h.1 rfl).symm⟩
  | positionalCode code => simp [Construction.args]
  | keywordCode code => simp [Construction.args]

/-- With a named flattener a positional code is one more message. -/
theorem named_positionalCode {name : Option String}
    (hresolve : resolveFlattener render setting name = .ok flatten) (payload : ErrorValue)
    (code : String) :
    buildMessages render setting (.named name)
        ((Construction.positionalCode code).construct normalise payload) =
      .ok (flatten payload ++ [code]) := by
  rw [@buildMessages_construct render setting (.named name) flatten normalise hresolve]
  simp [Construction.args, flatten_text hresolve]

/-! ### "bad" with the code "invalid" -/

/-- A rendering that no example reads. -/
def noRendering : ErrorValue → String := fun _ => ""

/-- The detail of a text is the list of it. -/
def listed (payload : ErrorValue) (_ : Option String) : ErrorValue := .seq .list [payload]

/-- By keyword the message is lost, and with a positional code the code is a
message of its own. -/
theorem construction_matters :
    buildMessages noRendering "template" (.named none)
        (Construction.positional.construct listed (.text "bad")) = .ok ["bad"] ∧
      buildMessages noRendering "template" (.named none)
        (Construction.keyword.construct listed (.text "bad")) = .ok [] ∧
      buildMessages noRendering "template" (.named none)
        ((Construction.positionalCode "invalid").construct listed (.text "bad")) =
          .ok ["bad", "invalid"] :=
  ⟨rfl, rfl, rfl⟩

theorem keywordCode_messages :
    buildMessages noRendering "template" (.named none)
        ((Construction.keywordCode "invalid").construct listed (.text "bad")) = .ok ["bad"] :=
  (@buildMessages_iff noRendering "template" (.named none) (flattenTemplate noRendering) rfl listed
    (.text "bad") (.keywordCode "invalid")).mpr
    ⟨fun hform => (nomatch hform), fun _ hform => nomatch hform⟩

end NetixBackend.Errors
