import NetixBackend.Python.Json
import NetixBackend.Python.Dict

/-!
`json_safe`: what the trail stores of a field value.

A field value is any Python object. The constructors of `FieldValue` are the
classes `json_safe` tells apart; the three temporal classes are represented
by their ISO text, a `Decimal` by its `float()` and every other object by its
`str()`, because nothing else of them reaches the result. A dict key enters only through `str(key)`, so the
items of a dict carry that text.
-/

namespace NetixBackend.ChangeHistory

open Python

inductive FieldValue
  | none
  | bool (b : Bool)
  | int (n : ℤ)
  | float (x : Number)
  | str (s : String)
  /-- `datetime`, `date` or `time`, by its `isoformat()`. -/
  | temporal (iso : String)
  /-- A `Decimal`, by its `float()`. -/
  | decimal (d : Number)
  | list (items : List FieldValue)
  | tuple (items : List FieldValue)
  /-- A set, in the order it iterates. -/
  | set (items : List FieldValue)
  | dict (items : List (String × FieldValue))
  | other (str : String)

instance : Inhabited FieldValue := ⟨.none⟩

mutual
/-- Coerce a field value into something a JSON column can store. -/
def jsonSafe : FieldValue → JsonValue
  | .none => .null
  | .bool b => .bool b
  | .int n => .int n
  | .float x => .float x
  | .str s => .str s
  | .temporal iso => .str iso
  | .decimal d => .float d
  | .list items | .tuple items | .set items => .arr (jsonSafeItems items)
  -- two keys with one `str()` collapse: the comprehension keeps the last
  | .dict items => .obj (Dict.ofPairs (jsonSafePairs items)).items
  | .other s => .str s

def jsonSafeItems : List FieldValue → List JsonValue
  | [] => []
  | item :: rest => jsonSafe item :: jsonSafeItems rest

def jsonSafePairs : List (String × FieldValue) → List (String × JsonValue)
  | [] => []
  | (key, item) :: rest => (key, jsonSafe item) :: jsonSafePairs rest
end

/-- `value in (None, "", [], {})`: the values a creation does not list. -/
def isEmptyMarker : JsonValue → Bool
  | .null => true
  | .str s => s == ""
  | .arr items => items.isEmpty
  | .obj entries => entries.isEmpty
  | _ => false

end NetixBackend.ChangeHistory
