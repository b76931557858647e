import NetixBackend.ChangeHistory.Saves
import NetixBackend.Python.StrictJson

/-!
What `json_safe` returns, as a document and as one side of the diff.

It always returns a value that it returns unchanged, and whose objects name no
key twice. Its leaves are the leaves of the value, so a float that is no JSON
number goes through: that is the only way to a document that cannot be stored,
or that differs from itself.
-/

namespace NetixBackend.ChangeHistory

open Python Python.JsonValue

/-- A value that may hold a signaling NaN, the one `Decimal` whose `float()` raises. -/
inductive RawValue
  | plain (value : FieldValue)
  | signalingNan
  | list (items : List RawValue)
  | tuple (items : List RawValue)
  | set (items : List RawValue)
  | dict (items : List (String × RawValue))

mutual
/-- The value once every `float()` has returned. -/
def RawValue.converted : RawValue → Option FieldValue
  | .plain value => some value
  | .signalingNan => none
  | .list items => (RawValue.convertedItems items).map .list
  | .tuple items => (RawValue.convertedItems items).map .tuple
  | .set items => (RawValue.convertedItems items).map .set
  | .dict items => (RawValue.convertedPairs items).map .dict

def RawValue.convertedItems : List RawValue → Option (List FieldValue)
  | [] => some []
  | item :: rest => do return (← item.converted) :: (← RawValue.convertedItems rest)

def RawValue.convertedPairs : List (String × RawValue) → Option (List (String × FieldValue))
  | [] => some []
  | (key, item) :: rest => do
      return (key, ← item.converted) :: (← RawValue.convertedPairs rest)
end

/-- `json_safe`, which may raise. -/
def jsonSafe? (value : RawValue) : Option JsonValue := value.converted.map jsonSafe

mutual
/-- A document as the field value it is. -/
def ofDocument : JsonValue → FieldValue
  | .null => .none
  | .bool b => .bool b
  | .int n => .int n
  | .float x => .float x
  | .str s => .str s
  | .arr items => .list (ofDocumentItems items)
  | .obj entries => .dict (ofDocumentEntries entries)

def ofDocumentItems : List JsonValue → List FieldValue
  | [] => []
  | item :: rest => ofDocument item :: ofDocumentItems rest

def ofDocumentEntries : List (String × JsonValue) → List (String × FieldValue)
  | [] => []
  | (key, value) :: rest => (key, ofDocument value) :: ofDocumentEntries rest
end

mutual
/-- Every float of the value, and the `float()` of every `Decimal`, is finite;
a dict is asked for the items that no later key with the same `str()` hides. -/
def FieldValue.Finite : FieldValue → Prop
  | .float x => x.isFinite = true
  | .decimal d => d.isFinite = true
  | .list items => FieldValue.FiniteItems items
  | .tuple items => FieldValue.FiniteItems items
  | .set items => FieldValue.FiniteItems items
  | .dict items => FieldValue.FinitePairs items
  | .none | .bool _ | .int _ | .str _ | .temporal _ | .other _ => True

def FieldValue.FiniteItems : List FieldValue → Prop
  | [] => True
  | item :: rest => item.Finite ∧ FieldValue.FiniteItems rest

def FieldValue.FinitePairs : List (String × FieldValue) → Prop
  | [] => True
  | (key, item) :: rest =>
      (item.Finite ∨ key ∈ rest.map Prod.fst) ∧ FieldValue.FinitePairs rest
end

/-! ### The document -/

theorem jsonSafePairs_keys (items : List (String × FieldValue)) :
    (jsonSafePairs items).map Prod.fst = items.map Prod.fst := by
  induction items with
  | nil => rfl
  | cons item rest ih =>
      obtain ⟨key, value⟩ := item
      rw [jsonSafePairs, List.map_cons, List.map_cons, ih]

mutual
theorem everywhere_keyed_jsonSafe (value : FieldValue) : (jsonSafe value).Everywhere Keyed := by
  cases value with
  | list items => exact ⟨trivial, everywhereItems_keyed_jsonSafe items⟩
  | tuple items => exact ⟨trivial, everywhereItems_keyed_jsonSafe items⟩
  | set items => exact ⟨trivial, everywhereItems_keyed_jsonSafe items⟩
  | dict items =>
      exact ⟨(Dict.ofPairs _).nodup,
        everywhereEntries_iff.mpr (values_keyed_jsonSafePairs items)⟩
  | _ => exact trivial

theorem everywhereItems_keyed_jsonSafe (items : List FieldValue) :
    EverywhereItems Keyed (jsonSafeItems items) := by
  cases items with
  | nil => exact trivial
  | cons item rest => exact ⟨everywhere_keyed_jsonSafe item, everywhereItems_keyed_jsonSafe rest⟩

theorem values_keyed_jsonSafePairs (items : List (String × FieldValue)) :
    ∀ entry ∈ (Dict.ofPairs (jsonSafePairs items)).items, entry.2.Everywhere Keyed := by
  cases items with
  | nil => simp [jsonSafePairs, Dict.ofPairs, Dict.empty]
  | cons item rest =>
      obtain ⟨key, value⟩ := item
      rw [jsonSafePairs, Dict.forall_values_ofPairs_cons]
      exact ⟨.inl (everywhere_keyed_jsonSafe value), values_keyed_jsonSafePairs rest⟩
end

mutual
theorem everywhere_finite_jsonSafe_iff (value : FieldValue) :
    (jsonSafe value).Everywhere FiniteNumber ↔ value.Finite := by
  cases value with
  | list items => exact (and_iff_right trivial).trans (everywhereItems_finite_jsonSafe_iff items)
  | tuple items => exact (and_iff_right trivial).trans (everywhereItems_finite_jsonSafe_iff items)
  | set items => exact (and_iff_right trivial).trans (everywhereItems_finite_jsonSafe_iff items)
  | dict items =>
      exact (and_iff_right trivial).trans
        (everywhereEntries_iff.trans (values_finite_jsonSafePairs_iff items))
  | _ => exact Iff.rfl

theorem everywhereItems_finite_jsonSafe_iff (items : List FieldValue) :
    EverywhereItems FiniteNumber (jsonSafeItems items) ↔ FieldValue.FiniteItems items := by
  cases items with
  | nil => exact Iff.rfl
  | cons item rest =>
      exact and_congr (everywhere_finite_jsonSafe_iff item)
        (everywhereItems_finite_jsonSafe_iff rest)

theorem values_finite_jsonSafePairs_iff (items : List (String × FieldValue)) :
    (∀ entry ∈ (Dict.ofPairs (jsonSafePairs items)).items, entry.2.Everywhere FiniteNumber) ↔
      FieldValue.FinitePairs items := by
  cases items with
  | nil => simp [jsonSafePairs, Dict.ofPairs, Dict.empty, FieldValue.FinitePairs]
  | cons item rest =>
      obtain ⟨key, value⟩ := item
      rw [jsonSafePairs, Dict.forall_values_ofPairs_cons, jsonSafePairs_keys,
        everywhere_finite_jsonSafe_iff value, values_finite_jsonSafePairs_iff rest]
      rfl
end

/-! ### A document is its own coercion -/

mutual
theorem jsonSafe_ofDocument (document : JsonValue) (h : document.Everywhere Keyed) :
    jsonSafe (ofDocument document) = document := by
  cases document with
  | arr items => exact congrArg JsonValue.arr (jsonSafeItems_ofDocumentItems items h.2)
  | obj entries =>
      rw [ofDocument, jsonSafe, jsonSafePairs_ofDocumentEntries entries h.2,
        Dict.items_ofPairs h.1]
  | _ => rfl

theorem jsonSafeItems_ofDocumentItems (items : List JsonValue) (h : EverywhereItems Keyed items) :
    jsonSafeItems (ofDocumentItems items) = items := by
  cases items with
  | nil => rfl
  | cons item rest =>
      rw [ofDocumentItems, jsonSafeItems, jsonSafe_ofDocument item h.1,
        jsonSafeItems_ofDocumentItems rest h.2]

theorem jsonSafePairs_ofDocumentEntries (entries : List (String × JsonValue))
    (h : EverywhereEntries Keyed entries) : jsonSafePairs (ofDocumentEntries entries) = entries := by
  cases entries with
  | nil => rfl
  | cons entry rest =>
      obtain ⟨key, value⟩ := entry
      rw [ofDocumentEntries, jsonSafePairs, jsonSafe_ofDocument value h.1,
        jsonSafePairs_ofDocumentEntries rest h.2]
end

/-! ### A field that has not moved -/

/-- What a coerced value has to be for the trail: a strict document that
coercing again leaves alone, that equals itself, and that as the value of an
unchanged field puts no change into an entry. -/
structure Storable (document : JsonValue) : Prop where
  strict : document.Strict
  again : jsonSafe (ofDocument document) = document
  equal : document.pyNe document = false
  unchanged : ∀ (M : HistoryModel) (updateFields : Option (List String))
    (snapshot : Dict String JsonValue) (attrs : String → FieldValue) (name : String),
    snapshot.get? name = some document → jsonSafe (attrs (M.historyAttname name)) = document →
      ∀ change ∈ M.diff updateFields snapshot (M.valuesOf attrs), change.field ≠ name

theorem Storable.of_strict {document : JsonValue} (h : document.Strict) : Storable document where
  strict := h
  again := jsonSafe_ofDocument document h.1
  equal := h.pyNe_self
  unchanged := by
    intro M updateFields snapshot attrs name hsnapshot hattrs change hchange hfield
    obtain ⟨tracked, -, old, hold, hne, -, rfl⟩ := M.mem_diff.mp hchange
    obtain rfl : tracked = name := hfield
    rw [hsnapshot, Option.some.injEq] at hold
    rw [← hold, hattrs, h.pyNe_self] at hne
    cases hne

theorem jsonSafe_storable_iff (value : RawValue) :
    (∃ document, jsonSafe? value = some document ∧ Storable document) ↔
      ∃ converted, value.converted = some converted ∧ converted.Finite := by
  constructor
  · rintro ⟨document, hdocument, hstorable⟩
    obtain ⟨converted, hconverted, rfl⟩ := Option.map_eq_some_iff.mp hdocument
    exact ⟨converted, hconverted, (everywhere_finite_jsonSafe_iff converted).mp hstorable.strict.2⟩
  · rintro ⟨converted, hconverted, hfinite⟩
    refine ⟨jsonSafe converted, by rw [jsonSafe?, hconverted, Option.map_some], .of_strict ?_⟩
    exact ⟨everywhere_keyed_jsonSafe converted, (everywhere_finite_jsonSafe_iff converted).mpr hfinite⟩

/-- A tracked float column that holds NaN. -/
theorem not_storable_nan :
    ¬∃ document, jsonSafe? (.plain (.float .nan)) = some document ∧ Storable document := by
  rintro ⟨document, hdocument, hstorable⟩
  obtain rfl : JsonValue.float .nan = document := Option.some.inj hdocument
  exact absurd hstorable.strict.2 Bool.false_ne_true

end NetixBackend.ChangeHistory
