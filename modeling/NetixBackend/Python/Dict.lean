import Mathlib.Data.List.Nodup
import Mathlib.Data.List.Lemmas

/-!
Insertion-ordered dictionaries with the semantics of a Python `dict`.

Assigning to a key that is present overwrites the value and keeps the
position; assigning to a new key appends. `items` is the iteration order,
and the invariant that no key occurs twice is carried by the structure, so
every dictionary that can be written down is one Python could hold. The
lookup laws below are what client proofs use; the position of a key matters
only to those that read `items`.
-/

namespace Python

variable {κ ν : Type*} [DecidableEq κ]

/-- `entries[key] = value` on the raw item list. -/
def setEntries (key : κ) (value : ν) : List (κ × ν) → List (κ × ν)
  | [] => [(key, value)]
  | (key', value') :: rest =>
      if key' = key then (key, value) :: rest
      else (key', value') :: setEntries key value rest

theorem keys_setEntries (key : κ) (value : ν) (entries : List (κ × ν)) :
    (setEntries key value entries).map Prod.fst =
      if key ∈ entries.map Prod.fst then entries.map Prod.fst
      else entries.map Prod.fst ++ [key] := by
  induction entries with
  | nil => simp [setEntries]
  | cons entry rest ih =>
      obtain ⟨key', value'⟩ := entry
      by_cases hkey : key' = key
      · simp [setEntries, hkey]
      · have hkey' : key ≠ key' := fun h => hkey h.symm
        simp only [setEntries, if_neg hkey, List.map_cons, ih, List.mem_cons, hkey', false_or]
        split <;> simp

theorem lookup_cons_ite (key key' : κ) (value : ν) (rest : List (κ × ν)) :
    ((key', value) :: rest).lookup key = if key = key' then some value else rest.lookup key := by
  rw [List.lookup_cons]
  by_cases h : key = key'
  · simp [h]
  · rw [show (key == key') = false by simpa using h, if_neg h]

theorem lookup_eq_none_iff_not_mem {key : κ} {pairs : List (κ × ν)} :
    pairs.lookup key = none ↔ key ∉ pairs.map Prod.fst := by
  induction pairs with
  | nil => simp
  | cons pair pairs ih =>
      rw [lookup_cons_ite, List.map_cons, List.mem_cons, not_or, ← ih]
      by_cases hkey : key = pair.1 <;> simp [hkey]

/-- Renaming the keys of an item list, as far as the names stay apart. -/
theorem lookup_map_key {κ' : Type*} [DecidableEq κ'] {f : κ → κ'} {pairs : List (κ × ν)} {key : κ}
    (hinj : ∀ pair ∈ pairs, f key = f pair.1 → key = pair.1) :
    (pairs.map fun pair => (f pair.1, pair.2)).lookup (f key) = pairs.lookup key := by
  induction pairs with
  | nil => rfl
  | cons pair pairs ih =>
      obtain ⟨key', value⟩ := pair
      rw [List.map_cons, lookup_cons_ite, lookup_cons_ite,
        ih fun pair hpair => hinj pair (List.mem_cons_of_mem _ hpair)]
      by_cases hkey : key = key'
      · rw [if_pos hkey, if_pos (congrArg f hkey)]
      · rw [if_neg hkey, if_neg fun heq => hkey (hinj (key', value) (by simp) heq)]

theorem lookup_setEntries (key key' : κ) (value : ν) (entries : List (κ × ν)) :
    (setEntries key value entries).lookup key' =
      if key' = key then some value else entries.lookup key' := by
  induction entries with
  | nil => simp [setEntries, lookup_cons_ite]
  | cons entry rest ih =>
      obtain ⟨key₀, value₀⟩ := entry
      by_cases h₀ : key₀ = key
      · subst h₀
        by_cases h : key' = key₀ <;> simp [setEntries, lookup_cons_ite, h]
      · have hswap : key' = key₀ → key' ≠ key := fun h heq => h₀ (h.symm.trans heq)
        simp only [setEntries, if_neg h₀, lookup_cons_ite, ih]
        by_cases h : key' = key₀
        · simp [h, h₀]
        · simp [h]

/-- A dictionary: its items in iteration order, no key twice. -/
structure Dict (κ ν : Type*) where
  items : List (κ × ν)
  nodup : (items.map Prod.fst).Nodup

namespace Dict

def empty : Dict κ ν := ⟨[], List.nodup_nil⟩

instance : Inhabited (Dict κ ν) := ⟨empty⟩

def keys (d : Dict κ ν) : List κ := d.items.map Prod.fst

def get? (d : Dict κ ν) (key : κ) : Option ν := d.items.lookup key

def contains (d : Dict κ ν) (key : κ) : Bool := (d.get? key).isSome

def set (d : Dict κ ν) (key : κ) (value : ν) : Dict κ ν where
  items := setEntries key value d.items
  nodup := by
    rw [keys_setEntries]
    split
    · exact d.nodup
    · rename_i hmem
      exact List.nodup_append.mpr
        ⟨d.nodup, by simp, fun a ha b hb => by
          rw [List.mem_singleton] at hb
          subst hb
          exact fun hab => hmem (hab ▸ ha)⟩

/-- `d.update(e)`: the items of `e` are assigned one by one. -/
def update (d e : Dict κ ν) : Dict κ ν :=
  e.items.foldl (fun acc item => acc.set item.1 item.2) d

/-- `{key: value for key, value in d.items() if keep(key)}`. -/
def filterKeys (d : Dict κ ν) (keep : κ → Bool) : Dict κ ν where
  items := d.items.filter fun item => keep item.1
  nodup := (List.filter_sublist.map Prod.fst).nodup d.nodup

/-- `{name: f(name) for name in names}`. -/
def tabulate (names : List κ) (f : κ → ν) : Dict κ ν :=
  names.foldl (fun acc name => acc.set name (f name)) empty

/-- `dict(pairs)`: a later pair overwrites an earlier one with its key. -/
def ofPairs (pairs : List (κ × ν)) : Dict κ ν :=
  pairs.foldl (fun acc pair => acc.set pair.1 pair.2) empty

@[simp] theorem get?_empty (key : κ) : (empty : Dict κ ν).get? key = none := rfl

@[simp] theorem get?_set (d : Dict κ ν) (key key' : κ) (value : ν) :
    (d.set key value).get? key' = if key' = key then some value else d.get? key' :=
  lookup_setEntries key key' value d.items

/-- Because keys are unique, an item is in the list exactly when lookup
finds it. -/
theorem mem_items_iff (d : Dict κ ν) (key : κ) (value : ν) :
    (key, value) ∈ d.items ↔ d.get? key = some value := by
  obtain ⟨items, hnodup⟩ := d
  change (key, value) ∈ items ↔ items.lookup key = some value
  induction items with
  | nil => simp
  | cons item rest ih =>
      obtain ⟨key₀, value₀⟩ := item
      simp only [List.map_cons, List.nodup_cons] at hnodup
      have ih := ih hnodup.2
      by_cases hkey : key = key₀
      · subst hkey
        have habsent : (key, value) ∉ rest := fun hmem =>
          hnodup.1 (List.mem_map_of_mem (f := Prod.fst) hmem)
        simp [habsent, eq_comm]
      · simp [lookup_cons_ite, hkey, ih]

@[simp] theorem get?_filterKeys (d : Dict κ ν) (keep : κ → Bool) (key : κ) :
    (d.filterKeys keep).get? key = if keep key then d.get? key else none := by
  have hmem : ∀ value, (d.filterKeys keep).get? key = some value ↔
      d.get? key = some value ∧ keep key = true := by
    intro value
    rw [← mem_items_iff, ← mem_items_iff, filterKeys, List.mem_filter]
  refine Option.ext fun value => ?_
  rw [hmem value]
  split <;> rename_i hkeep <;> simp [hkeep]

private theorem get?_foldl_set (pairs : List (κ × ν)) (hnodup : (pairs.map Prod.fst).Nodup)
    (d : Dict κ ν) (key : κ) :
    (pairs.foldl (fun acc pair => acc.set pair.1 pair.2) d).get? key =
      (pairs.lookup key).or (d.get? key) := by
  induction pairs generalizing d with
  | nil => simp
  | cons pair rest ih =>
      obtain ⟨key₀, value₀⟩ := pair
      rw [List.foldl_cons, ih (List.nodup_cons.mp hnodup).2, get?_set, lookup_cons_ite]
      by_cases hkey : key = key₀
      · subst hkey
        simp [lookup_eq_none_iff_not_mem.mpr (List.nodup_cons.mp hnodup).1]
      · simp [hkey]

/-- After `d.update(e)` the keys of `e` read as in `e`, the others as in `d`. -/
@[simp] theorem get?_update (d e : Dict κ ν) (key : κ) :
    (d.update e).get? key = (e.get? key).or (d.get? key) :=
  get?_foldl_set e.items e.nodup d key

private theorem get?_foldl_tabulate (names : List κ) (f : κ → ν) (d : Dict κ ν) (key : κ) :
    (names.foldl (fun acc name => acc.set name (f name)) d).get? key =
      if key ∈ names then some (f key) else d.get? key := by
  induction names generalizing d with
  | nil => simp
  | cons name rest ih =>
      rw [List.foldl_cons, ih, get?_set]
      by_cases hrest : key ∈ rest
      · simp [hrest]
      · by_cases hname : key = name
        · subst hname; simp
        · simp [hrest, hname]

@[simp] theorem get?_tabulate (names : List κ) (f : κ → ν) (key : κ) :
    (tabulate names f).get? key = if key ∈ names then some (f key) else none := by
  rw [tabulate, get?_foldl_tabulate, get?_empty]

theorem mem_items_tabulate (names : List κ) (f : κ → ν) (key : κ) (value : ν) :
    (key, value) ∈ (tabulate names f).items ↔ key ∈ names ∧ value = f key := by
  rw [mem_items_iff, get?_tabulate]
  by_cases h : key ∈ names <;> simp [h, eq_comm]

theorem tabulate_congr {names : List κ} {f g : κ → ν} (h : ∀ name ∈ names, f name = g name) :
    tabulate names f = tabulate names g := by
  have key : ∀ (rest : List κ) (d : Dict κ ν), (∀ name ∈ rest, name ∈ names) →
      rest.foldl (fun acc name => acc.set name (f name)) d =
        rest.foldl (fun acc name => acc.set name (g name)) d := by
    intro rest
    induction rest with
    | nil => intro d _; rfl
    | cons name rest ih =>
        intro d hsub
        rw [List.foldl_cons, List.foldl_cons, h name (hsub name (by simp))]
        exact ih _ fun name' hmem => hsub name' (by simp [hmem])
  exact key names empty fun _ hmem => hmem

/-! ### Dictionaries from pairs -/

theorem get?_ofPairs (pairs : List (κ × ν)) (key : κ) :
    (ofPairs pairs).get? key = pairs.reverse.lookup key := by
  have hfold : ∀ d : Dict κ ν, (pairs.foldl (fun acc pair => acc.set pair.1 pair.2) d).get? key =
      (pairs.reverse.lookup key).or (d.get? key) := by
    induction pairs with
    | nil => exact fun d => rfl
    | cons pair rest ih =>
        intro d
        obtain ⟨key₀, value₀⟩ := pair
        rw [List.foldl_cons, ih, get?_set, List.reverse_cons, List.lookup_append, Option.or_assoc,
          lookup_cons_ite]
        split <;> simp
  rw [ofPairs, hfold, get?_empty, Option.or_none]

/-- What holds of every value of a dictionary built from pairs: of the first
pair it is asked only if no later one has its key. -/
theorem forall_values_ofPairs_cons {p : ν → Prop} (key : κ) (value : ν) (rest : List (κ × ν)) :
    (∀ item ∈ (ofPairs ((key, value) :: rest)).items, p item.2) ↔
      (p value ∨ key ∈ rest.map Prod.fst) ∧ ∀ item ∈ (ofPairs rest).items, p item.2 := by
  have hvalues : ∀ pairs : List (κ × ν), (∀ item ∈ (ofPairs pairs).items, p item.2) ↔
      ∀ name v, pairs.reverse.lookup name = some v → p v := by
    intro pairs
    simp only [Prod.forall, mem_items_iff, get?_ofPairs]
  have hkey : rest.reverse.lookup key = none ↔ key ∉ rest.map Prod.fst := by
    rw [lookup_eq_none_iff_not_mem, List.map_reverse, List.mem_reverse]
  rw [hvalues, hvalues]
  simp only [List.reverse_cons, List.lookup_append, lookup_cons_ite, List.lookup_nil]
  constructor
  · intro h
    refine ⟨?_, fun name v hv => h name v (by simp [hv])⟩
    by_cases hmem : key ∈ rest.map Prod.fst
    · exact .inr hmem
    · exact .inl (h key value (by simp [hkey.mpr hmem]))
  · rintro ⟨hfirst, hrest⟩ name v hv
    cases hlookup : rest.reverse.lookup name with
    | some found =>
        rw [hlookup] at hv
        exact hrest name v (hlookup.trans (by simpa using hv))
    | none =>
        rw [hlookup, Option.none_or, Option.ite_none_right_eq_some, Option.some.injEq] at hv
        obtain ⟨rfl, rfl⟩ := hv
        exact hfirst.resolve_right (hkey.mp hlookup)

/-- Pairs without a repeated key are the items. -/
theorem items_ofPairs {pairs : List (κ × ν)} (h : (pairs.map Prod.fst).Nodup) :
    (ofPairs pairs).items = pairs := by
  have hset : ∀ (key : κ) (value : ν) (entries : List (κ × ν)), key ∉ entries.map Prod.fst →
      setEntries key value entries = entries ++ [(key, value)] := by
    intro key value entries hkey
    induction entries with
    | nil => rfl
    | cons entry rest ih =>
        obtain ⟨key', value'⟩ := entry
        rw [List.map_cons, List.mem_cons, not_or] at hkey
        rw [setEntries, if_neg (Ne.symm hkey.1), ih hkey.2, List.cons_append]
  have hfold : ∀ d : Dict κ ν, (d.items.map Prod.fst ++ pairs.map Prod.fst).Nodup →
      (pairs.foldl (fun acc pair => acc.set pair.1 pair.2) d).items = d.items ++ pairs := by
    clear h
    induction pairs with
    | nil => simp
    | cons pair rest ih =>
        intro d hnodup
        have hitems : (d.set pair.1 pair.2).items = d.items ++ [pair] := by
          refine hset pair.1 pair.2 d.items fun hmem => ?_
          exact (List.nodup_append.mp hnodup).2.2 _ hmem _ (by simp) rfl
        rw [List.foldl_cons, ih _ (by simpa [hitems] using hnodup), hitems, List.append_assoc,
          List.singleton_append]
  rw [ofPairs, hfold empty (by simpa [empty] using h), empty, List.nil_append]

end Dict

end Python
