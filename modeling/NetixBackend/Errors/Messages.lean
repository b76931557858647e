import Mathlib.Data.List.Basic

/-!
The messages of an exception: the five flatteners and `build_messages`.

An error is built from texts, other leaves, sequences and dicts keyed by texts.
How Python writes a container is the parameter `render`; a text is itself under
`str()` and any other leaf comes with what it is shown as. A set is given in its
iteration order. An exception is a text as well, by its class or by its
arguments, and a container it was raised with is then written as Python does.
-/

namespace NetixBackend.Errors

inductive SeqKind
  | list
  | tuple
  | set
  deriving DecidableEq

inductive ErrorValue
  | none
  | text (s : String)
  /-- Any other leaf, by its truth value and its `str()`. -/
  | scalar (truthy : Bool) (shown : String)
  | seq (kind : SeqKind) (items : List ErrorValue)
  | dict (entries : List (String × ErrorValue))

abbrev Flattener := ErrorValue → List String

section

variable (render : ErrorValue → String)

namespace ErrorValue

/-- `str(value)`. -/
def str : ErrorValue → String
  | .none => "None"
  | .text s => s
  | .scalar _ shown => shown
  | value => render value

def truthy : ErrorValue → Bool
  | .none => false
  | .text s => s ≠ ""
  | .scalar truthy _ => truthy
  | .seq _ items => !items.isEmpty
  | .dict entries => !entries.isEmpty

end ErrorValue

/-! ### The flatteners -/

/-- The `{"message": [...]}` special case. -/
def messageEntries (payload : List (String × ErrorValue)) : Option (List String) :=
  match payload.lookup "message" with
  | none => none
  | some message =>
      if message.truthy then
        match message with
        | .seq _ items => some (items.map (ErrorValue.str render))
        | message => some [message.str render]
      else none

/-- Keeps only the first entry of a message dict. -/
def flattenTemplate : Flattener
  | .text s => [s]
  | .dict payload =>
      match messageEntries render payload with
      | some (entry :: _) => [entry]
      | _ => [render (.dict payload)]
  | value => [value.str render]

/-- One `key - value` message per field. -/
def flattenKeyed : Flattener
  | .text s => [s]
  | .dict payload =>
      match messageEntries render payload with
      | some (entry :: rest) => entry :: rest
      | _ => payload.map fun field => field.1 ++ " - " ++ field.2.str render
  | value => [value.str render]

mutual
/-- The first message for one field; a set is no list or tuple. -/
def firstError : ErrorValue → String
  | .seq .set items => render (.seq .set items)
  | .seq _ [] => ""
  | .seq _ (value :: _) => firstError value
  | .dict entries => ", ".intercalate (firstErrors entries)
  | value => value.str render

def firstErrors : List (String × ErrorValue) → List String
  | [] => []
  | (key, inner) :: rest => (key ++ ": " ++ firstError inner) :: firstErrors rest
end

/-- Keyed, but nesting-aware. -/
def flattenFirstError : Flattener
  | .text s => [s]
  | .dict payload =>
      match messageEntries render payload with
      | some (entry :: _) => [entry]
      | _ => payload.map fun field => field.1 ++ " - " ++ firstError render field.2
  | value => [value.str render]

mutual
/-- The messages of one field of a mapping. -/
def fieldMessages (key : String) : ErrorValue → List String
  | .seq _ items => items.map fun item => key ++ ": " ++ item.str render
  | .dict entries => iterMessagesFromMapping entries
  | value => [key ++ ": " ++ value.str render]

def iterMessagesFromMapping : List (String × ErrorValue) → List String
  | [] => []
  | (key, value) :: rest => fieldMessages key value ++ iterMessagesFromMapping rest
end

/-- Recurses into nested dicts and expands sequence values. -/
def flattenNested : Flattener
  | .text s => [s]
  | .dict payload => iterMessagesFromMapping render payload
  | value => [value.str render]

mutual
/-- Recurses through lists, tuples and sets of error payloads. -/
def flattenSequence : ErrorValue → List String
  | .text s => [s]
  | .dict payload =>
      match messageEntries render payload with
      | some (entry :: _) => [entry]
      | _ => [render (.dict payload)]
  | .seq _ items => flattenItems items
  | value => [value.str render]

def flattenItems : List ErrorValue → List String
  | [] => []
  | item :: rest => flattenSequence item ++ flattenItems rest
end

/-- `FLATTENERS`. -/
def flatteners : List (String × Flattener) :=
  [("template", flattenTemplate render), ("keyed", flattenKeyed render),
    ("first_error", flattenFirstError render), ("nested", flattenNested render),
    ("sequence", flattenSequence render)]

/-- "Unknown NETIX_ERRORS_FLATTENER {name!r}; ..." -/
structure ImproperlyConfigured where
  name : String

/-- `resolve_flattener(name)`, given the setting `NETIX_ERRORS_FLATTENER`, by
default "template". -/
def resolveFlattener (setting : String) (name : Option String) :
    Except ImproperlyConfigured Flattener :=
  let name := name.getD setting
  match (flatteners render).lookup name with
  | some flattener => .ok flattener
  | none => .error ⟨name⟩

/-! ### Messages -/

/-- What `str(exc)` is made of. -/
inductive ExcText
  /-- By a `__str__` of its class, which may write containers too. -/
  | own (shown : (ErrorValue → String) → String)
  /-- By `BaseException`, from `exc.args`. -/
  | args (args : List ErrorValue)

/-- `str(exc)`. A single argument stands for the exception. -/
def ExcText.str : ExcText → String
  | own shown => shown render
  | args [] => ""
  | args [arg] => arg.str render
  | args several => render (.seq .tuple several)

/-- An exception, as far as its messages are concerned. -/
inductive Raised
  | validationError (args : List ErrorValue) (detail : ErrorValue)
  | http404
  /-- Any other, by its attributes `detail` and `message`, none when absent, and
  its `str()`. -/
  | other (detail message : ErrorValue) (text : ExcText)

/-- The argument `flattener` of `build_messages`. -/
inductive FlattenerArg
  | callable (flattener : Flattener)
  | named (name : Option String)

def FlattenerArg.resolve (setting : String) : FlattenerArg → Except ImproperlyConfigured Flattener
  | .callable flattener => .ok flattener
  | .named name => resolveFlattener render setting name

def http404Message : String := "404: Resource not found"

/-- `detail`, else `message`, else the exception's text. -/
def detailOf (detail message : ErrorValue) (text : ExcText) : ErrorValue :=
  match detail, message with
  | .none, .none => .text (text.str render)
  | .none, message => message
  | detail, _ => detail

def buildMessages (setting : String) (flattener : FlattenerArg) :
    Raised → Except ImproperlyConfigured (List String)
  | .validationError args _ => do
      let flatten ← flattener.resolve render setting
      return args.flatMap flatten
  | .http404 => .ok [http404Message]
  | .other detail message text =>
      match detailOf render detail message text with
      | .seq _ items => .ok (items.map (ErrorValue.str render))
      | .dict entries => .ok (entries.map fun field => field.1 ++ ": " ++ field.2.str render)
      | value => .ok [value.str render]

end

end NetixBackend.Errors
