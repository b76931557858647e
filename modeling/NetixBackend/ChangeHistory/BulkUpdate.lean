import Mathlib.Data.List.Dedup
import NetixBackend.ChangeHistory.TrailCap

/-!
`BaseQuerySet.stamp_and_update`: the bulk path beside `save`.

Every object is given the `updated_on` of the call, and then one UPDATE a batch
stores the named columns of many instances. No `save` runs, so no entry is built
and no snapshot is taken anew, except that a deferred column has to be read on
the way. Batches and the objects of other rows do not matter to a row
(`BulkStored`), and the columns stored are those a save with the same
`update_fields` stores, and with them those that a save fills itself
(`contains_bulkColumns`).

Of Django this takes `QuerySet.bulk_update`: what it refuses, in which order it
reads, and that within one UPDATE the first object with a row's key gives the
values. The check of unsaved related objects is not modelled.
-/

namespace NetixBackend.ChangeHistory

open Python

/-- The queryset a bulk update is called on: the stored rows by key, the rows
among them it selects, how many objects the backend takes in one UPDATE, and
what the database answers. -/
structure QuerySet (ι : Type*) where
  rows : ι → Row
  selects : Row → Bool := fun _ => true
  maxBatchSize : ℕ
  verdict : Option PyError := none
  batchPos : 0 < maxBatchSize

/-- The objects after the call, the rows, and what is returned. -/
structure BulkOutcome (ι : Type*) where
  objs : List (Option ι × Instance)
  rows : ι → Row
  result : Except PyError ℕ

/-- `objs[i : i + size] for i in range(0, len(objs), size)`. -/
def batches {α : Type*} (size : ℕ) (objs : List α) : List (List α) :=
  (List.range ((objs.length + size - 1) / size)).map fun i => (objs.drop (i * size)).take size

/-- The objects with their keys, as far as they have one. -/
def keyed {ι : Type*} (objs : List (Option ι × Instance)) : List (ι × Instance) :=
  objs.filterMap fun obj => obj.1.map (·, obj.2)

/-- `list(dict.fromkeys([*fields, "updated_on"]))`. -/
def stamped (fields : List String) : List String := (fields ++ ["updated_on"]).eraseDups

/-- `min(batch_size, max_batch_size) if batch_size else max_batch_size`. -/
def QuerySet.batchSize {ι : Type*} (queryset : QuerySet ι) (batchSize : Option ℤ) : ℕ :=
  batchSize.elim queryset.maxBatchSize fun size => min size.toNat queryset.maxBatchSize

section

variable {ι : Type*} [DecidableEq ι]

/-- `CASE WHEN pk = ... THEN ...`, as far as the queryset selects the row. -/
def updateBatch (selects : Row → Bool) (columns : List String) (batch : List (ι × Instance))
    (rows : ι → Row) (key : ι) : Row :=
  match batch.find? (·.1 == key) with
  | some obj => if selects (rows key) then (rows key).write obj.2 columns.contains else rows key
  | none => rows key

/-- How many rows the UPDATE of a batch touches. -/
def countBatch (selects : Row → Bool) (batch : List (ι × Instance)) (rows : ι → Row) : ℕ :=
  (batch.map Prod.fst).dedup.countP fun key => selects (rows key)

end

namespace HistoryModel

variable (M : HistoryModel) {ι : Type*}

/-- `_meta.get_field` finds the name. -/
def knows (name : String) : Bool :=
  name == historyColumn || name == M.primaryKey || M.autoColumns.contains name ||
    (M.getField name).isSome

/-- The attributes `bulk_update` reads and stores for the names it is given. -/
def bulkColumns (names : List String) : List String :=
  names.filterMap fun name =>
    if name = historyColumn then some historyColumn
    else if M.autoColumns.contains name then some name
    else (M.getField name).bind Field.attname

/-- What `bulk_update` refuses before it reads anything, the primary key among
the names. That it is given no names cannot happen: `updated_on` is one. -/
def bulkRefusal (objs : List (Option ι × Instance)) (names : List String)
    (batchSize : Option ℤ) : Option PyError :=
  if batchSize.any (· ≤ 0) then some .valueError
  else if objs.any (·.1.isNone) then some .valueError
  else if names.any fun name => !M.knows name then some (.other "FieldDoesNotExist")
  else if !M.validNames names then some .valueError
  else none

/-- The attributes are read off the object, a deferred one from its row. -/
def bulkRead (rows : ι → Row) (columns : List String) (obj : Option ι × Instance) :
    Option ι × Instance :=
  (obj.1, obj.1.elim obj.2 fun key => columns.foldl (M.read (rows key)) obj.2)

/-- `QuerySet.bulk_update`. -/
def bulkUpdate [DecidableEq ι] (queryset : QuerySet ι) (objs : List (Option ι × Instance))
    (names : List String) (batchSize : Option ℤ) : BulkOutcome ι :=
  match M.bulkRefusal objs names batchSize with
  | some error => ⟨objs, queryset.rows, .error error⟩
  | none =>
      if objs.isEmpty then ⟨objs, queryset.rows, .ok 0⟩
      else
        let columns := M.bulkColumns names
        let objs := objs.map (M.bulkRead queryset.rows columns)
        match queryset.verdict with
        -- the UPDATEs are one transaction
        | some error => ⟨objs, queryset.rows, .error error⟩
        | none =>
            let stored := (batches (queryset.batchSize batchSize) (keyed objs)).foldl
              (fun acc batch =>
                (updateBatch queryset.selects columns batch acc.1,
                  acc.2 + countBatch queryset.selects batch acc.1))
              (queryset.rows, 0)
            ⟨objs, stored.1, .ok stored.2⟩

/-- `row.updated_on = now` -/
def stamp (now : FieldValue) (inst : Instance) : Instance := M.assign inst "updated_on" now

/-- `BaseQuerySet.stamp_and_update`, at the time it asks for. -/
def stampAndUpdate [DecidableEq ι] (queryset : QuerySet ι) (objs : List (Option ι × Instance))
    (fields : List String) (batchSize : Option ℤ) (now : FieldValue) : BulkOutcome ι :=
  M.bulkUpdate queryset (objs.map fun obj => (obj.1, M.stamp now obj.2)) (stamped fields) batchSize

/-! ### Columns -/

theorem flatten_batches {α : Type*} {size : ℕ} (hsize : 0 < size) (objs : List α) :
    (batches size objs).flatten = objs := by
  have htake : ∀ n, ((List.range n).map fun i => (objs.drop (i * size)).take size).flatten =
      objs.take (n * size) := by
    intro n
    induction n with
    | zero => simp
    | succ n ih =>
        rw [List.range_succ, List.map_append, List.flatten_append, ih, Nat.succ_mul, List.take_add]
        simp
  rw [batches, htake, List.take_of_length_le]
  have hdiv := Nat.div_add_mod (objs.length + size - 1) size
  have hmod := Nat.mod_lt (objs.length + size - 1) hsize
  rw [Nat.mul_comm] at hdiv
  omega

section

variable {M} {objs : List (Option ι × Instance)} {names : List String} {batchSize : Option ℤ}

theorem map_some_keyed (hkeyed : ∀ obj ∈ objs, obj.1.isSome = true) :
    (keyed objs).map (fun obj => some obj.1) = objs.map Prod.fst := by
  induction objs with
  | nil => rfl
  | cons obj rest ih =>
      obtain ⟨key, inst⟩ := obj
      obtain ⟨key, rfl⟩ := Option.isSome_iff_exists.mp (hkeyed (key, inst) (by simp))
      change some key :: (keyed rest).map _ = some key :: _
      rw [ih fun obj hobj => hkeyed obj (List.mem_cons_of_mem _ hobj)]

theorem nodup_keyed (hkeyed : ∀ obj ∈ objs, obj.1.isSome = true)
    (hnodup : (objs.map Prod.fst).Nodup) : ((keyed objs).map Prod.fst).Nodup := by
  refine .of_map some ?_
  rw [List.map_map]
  exact map_some_keyed hkeyed ▸ hnodup

theorem keyed_bulkRead (rows : ι → Row) (columns : List String) :
    keyed (objs.map (M.bulkRead rows columns)) =
      (keyed objs).map fun obj => (obj.1, columns.foldl (M.read (rows obj.1)) obj.2) := by
  rw [keyed, keyed, List.filterMap_map, List.map_filterMap]
  refine List.filterMap_congr fun obj _ => ?_
  obtain ⟨key, inst⟩ := obj
  cases key <;> rfl

theorem countP_keyed (p : ι → Bool) :
    (keyed objs).countP (fun obj => p obj.1) = objs.countP fun obj => obj.1.any p := by
  induction objs with
  | nil => rfl
  | cons obj rest ih =>
      obtain ⟨key, inst⟩ := obj
      cases key with
      | none => simpa [keyed] using ih
      | some key =>
          change ((key, inst) :: keyed rest).countP _ = _
          rw [List.countP_cons, List.countP_cons, ih]
          rfl

theorem mem_keyed {key : ι} {inst : Instance} : (key, inst) ∈ keyed objs ↔ (some key, inst) ∈ objs := by
  simp [keyed]

theorem bulkRefusal_eq_none (h : M.bulkRefusal objs names batchSize = none) :
    batchSize.any (· ≤ 0) = false ∧ (∀ obj ∈ objs, obj.1.isSome = true) ∧
      M.validNames names = true := by
  unfold bulkRefusal at h
  split at h
  · simp at h
  · rename_i hsize
    split at h
    · simp at h
    · rename_i hkeys
      split at h
      · simp at h
      · split at h
        · simp at h
        · rename_i hvalid
          refine ⟨by simpa using hsize, fun obj hobj => ?_, by simpa using hvalid⟩
          cases hkey : obj.1 with
          | some key => rfl
          | none => exact absurd (List.any_eq_true.mpr ⟨obj, hobj, by simp [hkey]⟩) hkeys

theorem batchSize_pos (queryset : QuerySet ι) (h : batchSize.any (· ≤ 0) = false) :
    0 < queryset.batchSize batchSize := by
  cases batchSize with
  | none => exact queryset.batchPos
  | some size =>
      have hsize : ¬ size ≤ 0 := by simpa using h
      have hpos := queryset.batchPos
      simp only [QuerySet.batchSize, Option.elim_some]
      omega

end

variable [DecidableEq ι] {selects : Row → Bool} {columns : List String} {rows : ι → Row}
  {key : ι}

theorem find?_key_eq_none {batch : List (ι × Instance)} (h : key ∉ batch.map Prod.fst) :
    batch.find? (·.1 == key) = none := by
  rw [List.find?_eq_none]
  rintro obj hobj heq
  exact h (List.mem_map.mpr ⟨obj, hobj, by simpa using heq⟩)

theorem updateBatch_of_not_mem {batch : List (ι × Instance)} (h : key ∉ batch.map Prod.fst) :
    updateBatch selects columns batch rows key = rows key := by
  rw [updateBatch, find?_key_eq_none h]

theorem exists_find?_key {batch : List (ι × Instance)} (h : key ∈ batch.map Prod.fst) :
    ∃ obj, batch.find? (·.1 == key) = some obj := by
  cases hfind : batch.find? (·.1 == key) with
  | some obj => exact ⟨obj, rfl⟩
  | none =>
      obtain ⟨obj, hobj, rfl⟩ := List.mem_map.mp h
      exact absurd (beq_self_eq_true obj.1) (List.find?_eq_none.mp hfind obj hobj)

theorem updateBatch_of_mem {batch : List (ι × Instance)} {inst : Instance}
    (hnodup : (batch.map Prod.fst).Nodup) (h : (key, inst) ∈ batch) :
    updateBatch selects columns batch rows key =
      if selects (rows key) then (rows key).write inst columns.contains else rows key := by
  obtain ⟨obj, hobj⟩ := exists_find?_key (List.mem_map_of_mem (f := Prod.fst) h)
  have hkey : obj.1 = key := by simpa using List.find?_some hobj
  rw [updateBatch, hobj,
    List.inj_on_of_nodup_map hnodup (List.mem_of_find?_eq_some hobj) h hkey]

theorem countBatch_of_nodup {batch : List (ι × Instance)} (h : (batch.map Prod.fst).Nodup) :
    countBatch selects batch rows = batch.countP fun obj => selects (rows obj.1) := by
  rw [countBatch, List.dedup_eq_self.mpr h, List.countP_map]
  rfl

/-- For objects of different rows it does not matter how they are batched. -/
theorem foldl_updateBatch {batches : List (List (ι × Instance))}
    (hnodup : (batches.flatten.map Prod.fst).Nodup) (acc : (ι → Row) × ℕ) :
    batches.foldl (fun acc batch => (updateBatch selects columns batch acc.1,
        acc.2 + countBatch selects batch acc.1)) acc =
      (updateBatch selects columns batches.flatten acc.1,
        acc.2 + batches.flatten.countP fun obj => selects (acc.1 obj.1)) := by
  induction batches generalizing acc with
  | nil => rfl
  | cons batch rest ih =>
      rw [List.flatten_cons, List.map_append, List.nodup_append] at hnodup
      obtain ⟨hbatch, hrest, hapart⟩ := hnodup
      have hsame : ∀ obj ∈ rest.flatten,
          updateBatch selects columns batch acc.1 obj.1 = acc.1 obj.1 := fun obj hobj =>
        updateBatch_of_not_mem fun h => hapart _ h _ (List.mem_map_of_mem hobj) rfl
      rw [List.foldl_cons, ih hrest, List.flatten_cons, Prod.mk.injEq]
      refine ⟨funext fun key => ?_, ?_⟩
      · by_cases hmem : key ∈ batch.map Prod.fst
        · rw [updateBatch_of_not_mem fun h => hapart key hmem key h rfl]
          obtain ⟨obj, hobj⟩ := exists_find?_key hmem
          simp only [updateBatch, List.find?_append, hobj, Option.some_or]
        · have hnone := find?_key_eq_none hmem
          simp only [updateBatch, List.find?_append, hnone, Option.none_or]
      · rw [countBatch_of_nodup hbatch, List.countP_append, Nat.add_assoc]
        congr 2
        exact List.countP_congr fun obj hobj => by dsimp only; rw [hsame obj hobj]

/-! ### One bulk update -/

variable {M} {queryset : QuerySet ι} {objs : List (Option ι × Instance)} {names : List String}
  {batchSize : Option ℤ} {count : ℕ}

/-- What a bulk update that goes through does to the row of each object: the
other objects, the batches and the order do not matter. -/
structure BulkStored (M : HistoryModel) (queryset : QuerySet ι) (objs : List (Option ι × Instance))
    (names : List String) (out : BulkOutcome ι) : Prop where
  valid : M.validNames names = true
  keyed : ∀ obj ∈ objs, obj.1.isSome = true
  rows : ∀ key inst, (some key, inst) ∈ objs → out.rows key =
    if queryset.selects (queryset.rows key) then
      (queryset.rows key).write ((M.bulkColumns names).foldl (M.read (queryset.rows key)) inst)
        (M.bulkColumns names).contains
    else queryset.rows key
  others : ∀ key, some key ∉ objs.map Prod.fst → out.rows key = queryset.rows key
  read : out.objs = objs.map (M.bulkRead queryset.rows (M.bulkColumns names))
  count : out.result =
    .ok (objs.countP fun obj => obj.1.any fun key => queryset.selects (queryset.rows key))

theorem bulkUpdate_stored (hnodup : (objs.map Prod.fst).Nodup)
    (hok : (M.bulkUpdate queryset objs names batchSize).result = .ok count) :
    M.BulkStored queryset objs names (M.bulkUpdate queryset objs names batchSize) := by
  unfold bulkUpdate at hok ⊢
  cases hrefusal : M.bulkRefusal objs names batchSize with
  | some error => simp [hrefusal] at hok
  | none =>
      obtain ⟨hsize, hkeyed, hvalid⟩ := bulkRefusal_eq_none hrefusal
      simp only [hrefusal] at hok ⊢
      split
      · rename_i hempty
        obtain rfl : objs = [] := by simpa using hempty
        exact ⟨hvalid, hkeyed, fun _ _ h => absurd h (by simp), fun _ _ => rfl, rfl, rfl⟩
      · rename_i hempty
        rw [if_neg hempty] at hok
        cases hverdict : queryset.verdict with
        | some error => simp [hverdict] at hok
        | none =>
            have hnodup' : (((ChangeHistory.keyed objs).map fun obj => (obj.1,
                (M.bulkColumns names).foldl (M.read (queryset.rows obj.1)) obj.2)).map
                  Prod.fst).Nodup := by
              rw [List.map_map]
              exact nodup_keyed hkeyed hnodup
            have hflat := flatten_batches (batchSize_pos queryset hsize)
              ((ChangeHistory.keyed objs).map fun obj => (obj.1,
                (M.bulkColumns names).foldl (M.read (queryset.rows obj.1)) obj.2))
            dsimp only
            rw [keyed_bulkRead, foldl_updateBatch (by rw [hflat]; exact hnodup'), hflat]
            refine ⟨hvalid, hkeyed, fun key inst hmem => ?_, fun key hnot => ?_, rfl, ?_⟩
            · exact updateBatch_of_mem hnodup'
                (List.mem_map.mpr ⟨(key, inst), mem_keyed.mpr hmem, rfl⟩)
            · refine updateBatch_of_not_mem fun hmem => hnot ?_
              rw [List.map_map] at hmem
              obtain ⟨⟨key, inst⟩, hobj, rfl⟩ := List.mem_map.mp hmem
              exact List.mem_map_of_mem (mem_keyed.mp hobj)
            · rw [Nat.zero_add, List.countP_map, ← countP_keyed]
              rfl

/-- What is not refused at the start is refused by the database or not at all. -/
theorem bulkUpdate_accepted (hrefusal : M.bulkRefusal objs names batchSize = none)
    (hverdict : queryset.verdict = none) :
    ∃ count, (M.bulkUpdate queryset objs names batchSize).result = .ok count := by
  unfold bulkUpdate
  rw [hrefusal, hverdict]
  dsimp only
  split
  · exact ⟨0, rfl⟩
  · exact ⟨_, rfl⟩

theorem deferred_stamp {now : FieldValue} {inst : Instance} (h : inst.deferred = []) :
    (M.stamp now inst).deferred = [] := by
  simp [stamp, assign, h]

/-- A bulk update of objects loaded whole fetches nothing, stamps them, writes
those of their rows that the queryset selects, and leaves the others. -/
structure StoredWhole (M : HistoryModel) (queryset : QuerySet ι) (plain : List (ι × Instance))
    (columns : List String) (now : FieldValue) (out : BulkOutcome ι) : Prop where
  objs : out.objs = plain.map fun obj => (some obj.1, M.stamp now obj.2)
  rows : ∀ obj ∈ plain, out.rows obj.1 =
    if queryset.selects (queryset.rows obj.1) then
      (queryset.rows obj.1).write (M.stamp now obj.2) columns.contains
    else queryset.rows obj.1
  others : ∀ key, key ∉ plain.map Prod.fst → out.rows key = queryset.rows key
  count : out.result = .ok (plain.countP fun obj => queryset.selects (queryset.rows obj.1))

theorem storedWhole {plain : List (ι × Instance)} {fields : List String} {now : FieldValue}
    (hnodup : (plain.map Prod.fst).Nodup) (hwhole : ∀ obj ∈ plain, obj.2.deferred = [])
    (hok : (M.stampAndUpdate queryset (plain.map fun obj => (some obj.1, obj.2)) fields
      batchSize now).result = .ok count) :
    M.StoredWhole queryset plain (M.bulkColumns (stamped fields)) now
      (M.stampAndUpdate queryset (plain.map fun obj => (some obj.1, obj.2)) fields batchSize
        now) := by
  rw [stampAndUpdate, List.map_map] at hok ⊢
  have hkeys : ((plain.map fun obj => (some obj.1, M.stamp now obj.2)).map Prod.fst).Nodup := by
    have hmap := hnodup.map (Option.some_injective ι)
    rwa [List.map_map] at hmap ⊢
  have hstored := bulkUpdate_stored hkeys hok
  have hread : ∀ obj ∈ plain, (M.bulkColumns (stamped fields)).foldl
      (M.read (queryset.rows obj.1)) (M.stamp now obj.2) = M.stamp now obj.2 := fun obj hobj =>
    foldl_read_of_loaded fun a _ => by simp [deferred_stamp (hwhole obj hobj)]
  refine ⟨?_, fun obj hobj => ?_, fun key hnot => ?_, ?_⟩
  · refine hstored.read.trans ?_
    rw [List.map_map]
    refine List.map_congr_left fun obj hobj => ?_
    simp only [Function.comp_apply, bulkRead, Option.elim_some, hread obj hobj]
  · have hrow := hstored.rows obj.1 (M.stamp now obj.2)
      (List.mem_map.mpr ⟨obj, hobj, rfl⟩)
    rwa [hread obj hobj] at hrow
  · refine hstored.others key fun hmem => hnot ?_
    rw [List.map_map] at hmem
    obtain ⟨obj, hobj, hkey⟩ := List.mem_map.mp hmem
    exact List.mem_map.mpr ⟨obj, hobj, Option.some.inj hkey⟩
  · refine hstored.count.trans ?_
    rw [List.countP_map]
    rfl

end HistoryModel

end NetixBackend.ChangeHistory
