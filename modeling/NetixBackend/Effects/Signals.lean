import Mathlib.Data.List.Nodup
import Mathlib.Data.List.Induction

/-!
Receivers of a signal, registered under keys.

What keeps the receivers is left open, up to its laws: a key that is registered
already is left as it is, and removing a key takes out its receiver. So what is
registered under a key is the first registration since the key was last removed,
whatever was done to other keys in between, and in whatever order the receivers
are called.
-/

namespace Effects

inductive Registration (κ ρ : Type*)
  | connect (key : κ) (receiver : ρ)
  | disconnect (key : κ)

/-- What keeps receivers under keys. -/
structure Dispatcher (κ ρ : Type*) where
  Table : Type*
  empty : Table
  connect : Table → κ → ρ → Table
  disconnect : Table → κ → Table
  /-- The receivers in the order in which a signal calls them. -/
  receivers : Table → List (κ × ρ)

/-- One receiver at most for each key, and a key that has one keeps it until it
is removed. -/
structure Dispatcher.Keyed {κ ρ : Type*} [DecidableEq κ] (d : Dispatcher κ ρ) : Prop where
  receivers_empty : d.receivers d.empty = []
  nodup : ∀ table, ((d.receivers table).map Prod.fst).Nodup
  lookup_connect : ∀ table key' receiver key,
    (d.receivers (d.connect table key' receiver)).lookup key =
      ((d.receivers table).lookup key).or (if key' = key then some receiver else none)
  lookup_disconnect : ∀ table key' key, (d.receivers (d.disconnect table key')).lookup key =
    if key' = key then none else (d.receivers table).lookup key

namespace Registration

variable {κ ρ : Type*} [DecidableEq κ]

def removes (key : κ) : Registration κ ρ → Bool
  | connect _ _ => false
  | disconnect key' => key' = key

def apply (d : Dispatcher κ ρ) (table : d.Table) : Registration κ ρ → d.Table
  | connect key receiver => d.connect table key receiver
  | disconnect key => d.disconnect table key

def applyAll (d : Dispatcher κ ρ) (table : d.Table) (events : List (Registration κ ρ)) : d.Table :=
  events.foldl (apply d) table

def receiverFor (key : κ) : Registration κ ρ → Option ρ
  | connect key' receiver => if key' = key then some receiver else none
  | disconnect _ => none

/-- The first registration of the key since it was last removed. -/
def standing (key : κ) : List (Registration κ ρ) → Option ρ
  | [] => none
  | event :: rest =>
      if rest.any (removes key) then standing key rest
      else (event.receiverFor key).or (standing key rest)

variable {d : Dispatcher κ ρ} {key : κ} {receiver : ρ} {receivers : List (κ × ρ)}
  {events : List (Registration κ ρ)}

/-! ### One more event -/

theorem standing_connect (key' : κ) (receiver : ρ) (events : List (Registration κ ρ)) :
    standing key (events ++ [connect key' receiver]) =
      (standing key events).or (if key' = key then some receiver else none) := by
  induction events with
  | nil => simp [standing, receiverFor]
  | cons event rest ih =>
      have hany : (rest ++ [connect key' receiver]).any (removes key) = rest.any (removes key) := by
        simp [removes]
      rw [List.cons_append, standing, standing, hany, ih]
      split
      · rfl
      · rw [Option.or_assoc]

theorem standing_disconnect (key' : κ) (events : List (Registration κ ρ)) :
    standing key (events ++ [disconnect key']) =
      if key' = key then none else standing key events := by
  induction events with
  | nil => simp [standing, receiverFor]
  | cons event rest ih =>
      have hany : (rest ++ [(disconnect key' : Registration κ ρ)]).any (removes key) =
          (rest.any (removes key) || decide (key' = key)) := by
        simp [removes]
      rw [List.cons_append, standing, standing, hany, ih]
      by_cases hkey : key' = key
      · simp [hkey]
      · simp [hkey]

theorem lookup_apply (h : d.Keyed) {table : d.Table}
    (hlookup : (d.receivers table).lookup key = standing key events) (event : Registration κ ρ) :
    (d.receivers (apply d table event)).lookup key = standing key (events ++ [event]) := by
  cases event with
  | connect key' receiver =>
      rw [standing_connect, ← hlookup]
      exact h.lookup_connect table key' receiver key
  | disconnect key' =>
      rw [standing_disconnect, ← hlookup]
      exact h.lookup_disconnect table key' key

theorem lookup_eq_none_iff_key : receivers.lookup key = none ↔ key ∉ receivers.map Prod.fst := by
  rw [List.lookup_eq_none_iff]
  constructor
  · intro h hmem
    obtain ⟨entry, hentry, rfl⟩ := List.mem_map.mp hmem
    simpa using h entry hentry
  · intro h entry hentry
    have hne : entry.1 ≠ key := fun heq => h (heq ▸ List.mem_map_of_mem hentry)
    simpa using Ne.symm hne

/-- With one receiver for each key, to look a key up is to find its entry. -/
theorem lookup_eq_some_iff_mem (h : (receivers.map Prod.fst).Nodup) :
    receivers.lookup key = some receiver ↔ (key, receiver) ∈ receivers := by
  induction receivers with
  | nil => simp
  | cons entry rest ih =>
      rw [List.map_cons, List.nodup_cons] at h
      rw [List.lookup_cons, List.mem_cons]
      by_cases hkey : key = entry.1
      · subst hkey
        have hrest : (entry.1, receiver) ∉ rest := fun hmem =>
          h.1 (List.mem_map.mpr ⟨_, hmem, rfl⟩)
        simp [hrest, Prod.ext_iff, eq_comm]
      · rw [beq_false_of_ne hkey]
        simp only [ih h.2, Prod.ext_iff, hkey, false_and, false_or]

/-! ### Runs -/

/-- Whatever was done, in whatever order: under each key is the first receiver
since the key was last removed. -/
theorem lookup_applyAll (h : d.Keyed) (events : List (Registration κ ρ)) (key : κ) :
    (d.receivers (applyAll d d.empty events)).lookup key = standing key events := by
  induction events using List.reverseRecOn with
  | nil =>
      change (d.receivers d.empty).lookup key = none
      rw [h.receivers_empty]
      rfl
  | append_singleton events event ih =>
      rw [applyAll, List.foldl_append]
      exact lookup_apply h ih event

theorem mem_receivers_applyAll (h : d.Keyed) (events : List (Registration κ ρ)) :
    (key, receiver) ∈ d.receivers (applyAll d d.empty events) ↔
      standing key events = some receiver := by
  rw [← lookup_applyAll h, lookup_eq_some_iff_mem (h.nodup _)]

end Registration

/-! ### Receivers in a list -/

section List

variable {κ ρ : Type*} [DecidableEq κ] {key : κ} {receivers : List (κ × ρ)}

def added (receivers : List (κ × ρ)) (key : κ) (receiver : ρ) : List (κ × ρ) :=
  if key ∈ receivers.map Prod.fst then receivers else receivers ++ [(key, receiver)]

def removed (receivers : List (κ × ρ)) (key : κ) : List (κ × ρ) :=
  receivers.eraseP fun entry => entry.1 = key

theorem nodup_added (h : (receivers.map Prod.fst).Nodup) (key : κ) (receiver : ρ) :
    ((added receivers key receiver).map Prod.fst).Nodup := by
  unfold added
  split
  · exact h
  · rename_i hfresh
    rw [List.map_append, List.map_singleton]
    exact List.nodup_append.mpr ⟨h, List.nodup_singleton key, by
      intro a ha b hb
      obtain rfl := List.mem_singleton.mp hb
      exact fun heq => hfresh (heq ▸ ha)⟩

theorem nodup_removed (h : (receivers.map Prod.fst).Nodup) (key : κ) :
    ((removed receivers key).map Prod.fst).Nodup :=
  h.sublist (List.eraseP_sublist.map Prod.fst)

theorem lookup_added (key' : κ) (receiver : ρ) :
    (added receivers key' receiver).lookup key =
      (receivers.lookup key).or (if key' = key then some receiver else none) := by
  unfold added
  split
  · rename_i hmem
    by_cases hkey : key' = key
    · subst hkey
      obtain ⟨found, hfound⟩ := Option.ne_none_iff_exists'.mp
        fun hnone => Registration.lookup_eq_none_iff_key.mp hnone hmem
      rw [hfound, Option.some_or]
    · rw [if_neg hkey, Option.or_none]
  · rw [List.lookup_append]
    congr 1
    by_cases hkey : key' = key
    · subst hkey
      simp
    · simp [hkey, Ne.symm hkey]

theorem lookup_removed (h : (receivers.map Prod.fst).Nodup) (key' : κ) :
    (removed receivers key').lookup key =
      if key' = key then none else receivers.lookup key := by
  unfold removed
  induction receivers with
  | nil => simp
  | cons entry rest ih =>
      rw [List.map_cons, List.nodup_cons] at h
      by_cases hentry : entry.1 = key'
      · rw [List.eraseP_cons_of_pos (by simpa using hentry)]
        split
        · rename_i hkey
          exact Registration.lookup_eq_none_iff_key.mpr (hkey ▸ hentry ▸ h.1)
        · rename_i hkey
          have hne : key ≠ entry.1 := fun heq => hkey (hentry.symm.trans heq.symm)
          rw [List.lookup_cons, beq_false_of_ne hne]
      · rw [List.eraseP_cons_of_neg (by simpa using hentry), List.lookup_cons, List.lookup_cons,
          ih h.2]
        by_cases hkey : key = entry.1
        · subst hkey
          simp [Ne.symm hentry]
        · simp [beq_false_of_ne hkey]

/-- The receivers in the order in which they were registered. -/
def listDispatcher (κ ρ : Type*) [DecidableEq κ] : Dispatcher κ ρ where
  Table := { receivers : List (κ × ρ) // (receivers.map Prod.fst).Nodup }
  empty := ⟨[], List.nodup_nil⟩
  connect table key receiver := ⟨added table.1 key receiver, nodup_added table.2 key receiver⟩
  disconnect table key := ⟨removed table.1 key, nodup_removed table.2 key⟩
  receivers := Subtype.val

theorem listDispatcher_keyed : (listDispatcher κ ρ).Keyed where
  receivers_empty := rfl
  nodup := Subtype.property
  lookup_connect _ key' receiver _ := lookup_added key' receiver
  lookup_disconnect table key' _ := lookup_removed table.2 key'

end List

end Effects
