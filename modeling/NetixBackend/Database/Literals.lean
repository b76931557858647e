import Mathlib.Data.List.Sort
import Mathlib.Data.String.Basic
import NetixBackend.Database.Factory

/-!
The literals of a settings file, as objects.

Two dicts are equal whatever the order of their keys, so a dict is taken by its
items in the order of the keys.
-/

namespace Python.Dict

variable {κ ν : Type*} [LinearOrder κ]

def keyLe (item item' : κ × ν) : Prop := item.1 ≤ item'.1

instance : DecidableRel (@keyLe κ ν _) :=
  fun item item' => inferInstanceAs (Decidable (item.1 ≤ item'.1))

instance : Std.Total (@keyLe κ ν _) := ⟨fun item item' => le_total item.1 item'.1⟩

instance : IsTrans (κ × ν) keyLe := ⟨fun _ _ _ h h' => @le_trans κ _ _ _ _ h h'⟩

def sortedItems (d : Dict κ ν) : List (κ × ν) := d.items.insertionSort keyLe

theorem mem_sortedItems_iff (d : Dict κ ν) (key : κ) (value : ν) :
    (key, value) ∈ d.sortedItems ↔ d.get? key = some value := by
  rw [← mem_items_iff]
  exact (List.perm_insertionSort keyLe d.items).mem_iff

/-- Dictionaries with the same entries have the same sorted items. -/
theorem sortedItems_congr (d e : Dict κ ν) (h : ∀ key, d.get? key = e.get? key) :
    d.sortedItems = e.sortedItems := by
  have hmem : ∀ item, item ∈ d.items ↔ item ∈ e.items := by
    rintro ⟨key, value⟩
    rw [mem_items_iff, mem_items_iff, h]
  have hperm : d.items.Perm e.items :=
    (List.perm_ext_iff_of_nodup d.nodup.of_map e.nodup.of_map).mpr hmem
  have hsorted : d.sortedItems.Perm e.sortedItems :=
    ((List.perm_insertionSort keyLe _).trans hperm).trans (List.perm_insertionSort keyLe _).symm
  refine List.Perm.eq_of_pairwise ?_ (List.pairwise_insertionSort keyLe _)
    (List.pairwise_insertionSort keyLe _) hsorted
  rintro ⟨key, value⟩ ⟨key', value'⟩ hitem hitem' hle hle'
  obtain rfl : key = key' := le_antisymm hle hle'
  rw [mem_sortedItems_iff] at hitem hitem'
  rw [h, hitem'] at hitem
  rw [Option.some.inj hitem]

theorem get?_ofPairs_sortedItems (d : Dict κ ν) (key : κ) :
    (ofPairs d.sortedItems).get? key = d.get? key := by
  have hperm : d.sortedItems.Perm d.items := List.perm_insertionSort keyLe d.items
  have hitems : (ofPairs d.sortedItems).items = d.sortedItems :=
    items_ofPairs ((hperm.map Prod.fst).nodup_iff.mpr d.nodup)
  refine Option.ext fun value => ?_
  rw [← mem_items_iff, hitems, mem_sortedItems_iff]

end Python.Dict

namespace NetixBackend.Database

open Python

inductive Literal
  | none
  | bool (b : Bool)
  | int (n : ℤ)
  | str (s : String)
  | fromEnv (var : String)
  | dict (items : List (String × Literal))

instance : PyObject Literal where
  none := .none
  bool := .bool
  int := .int
  str := .str
  dict d := .dict d.sortedItems
  fromEnv read := .fromEnv read.var
  entries
    | .dict items => .ok (Dict.ofPairs items)
    | _ => .error .typeError
  dict_congr d e h := congrArg Literal.dict (d.sortedItems_congr e h)
  entries_dict d := ⟨_, rfl, d.get?_ofPairs_sortedItems⟩

end NetixBackend.Database
