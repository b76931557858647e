import Mathlib.Data.List.Pairwise
import NetixBackend.ChangeHistory.Model

/-!
What reading attributes does to an instance.

The recursion of `getattr` through `refresh_from_db` and `_history_values` has
a closed form: reading a deferred attribute loads it together with every
deferred tracked attribute, and the snapshot becomes the values in memory at
that moment (`read_eq`, `historyValues_eq`). Everything later proofs need
about a read is derived from it; in particular a read on an instance whose
tracked attributes are all loaded changes nothing but the attribute it fetches
and, possibly, the snapshot (`Reads`).
-/

namespace NetixBackend.ChangeHistory

open Python

namespace HistoryModel

variable (M : HistoryModel)

/-! ### Names and columns -/

theorem eq_of_spells {f g : Field} {name : String} (hf : f ∈ M.fields) (hg : g ∈ M.fields)
    (hfn : f.spells name = true) (hgn : g.spells name = true) : f = g := by
  by_contra hne
  let Apart (f g : Field) : Prop := ¬ ∃ name, f.spells name = true ∧ g.spells name = true
  have hsymm : Std.Symm Apart := ⟨fun _ _ h ⟨name, hf, hg⟩ => h ⟨name, hg, hf⟩⟩
  have hpairs : M.fields.Pairwise Apart := by
    refine M.clashFree.imp fun {f g} hclash => ?_
    rintro ⟨name, hf, hg⟩
    simp only [Field.clashes, Bool.or_eq_false_iff] at hclash
    simp only [Field.spells, Bool.or_eq_true, beq_iff_eq] at hg
    rcases hg with rfl | hg
    · rw [hclash.1] at hf
      exact Bool.false_ne_true hf
    · rw [hg, Option.any_some, hf] at hclash
      exact Bool.false_ne_true hclash.2.symm
  exact hpairs.forall hf hg hne ⟨name, hfn, hgn⟩

theorem getField_eq_some {name : String} {f : Field} (h : M.getField name = some f) :
    f ∈ M.fields ∧ f.spells name = true :=
  ⟨List.mem_of_find?_eq_some h, by simpa using List.find?_some h⟩

theorem getField_of_spells {name : String} {f : Field} (hf : f ∈ M.fields)
    (hspells : f.spells name = true) : M.getField name = some f := by
  cases hget : M.getField name with
  | none => exact absurd hspells (by simpa using List.find?_eq_none.mp hget f hf)
  | some g =>
      obtain ⟨hg, hgn⟩ := M.getField_eq_some hget
      rw [M.eq_of_spells hg hf hgn hspells]

/-- The field found under the attname of a name is the field of that name. -/
theorem getField_of_spells_historyAttname {name : String} {f : Field} (hf : f ∈ M.fields)
    (hspells : f.spells (M.historyAttname name) = true) : M.getField name = some f := by
  unfold historyAttname at hspells
  cases hget : M.getField name with
  | none =>
      rw [hget] at hspells
      rw [M.getField_of_spells hf hspells] at hget
      exact absurd hget (Option.some_ne_none f)
  | some g =>
      obtain ⟨hg, hgn⟩ := M.getField_eq_some hget
      rw [hget] at hspells
      cases hatt : g.attname with
      | none =>
          simp only [hatt, Option.getD_none] at hspells
          rw [M.eq_of_spells hg hf hgn hspells]
      | some attname =>
          simp only [hatt, Option.getD_some] at hspells
          rw [M.eq_of_spells hg hf (by simp [Field.spells, hatt]) hspells]

theorem historyAttname_ne_of_ne {name : String} (hne : name ≠ historyColumn) :
    M.historyAttname name ≠ historyColumn := by
  unfold historyAttname
  cases hget : M.getField name with
  | none => exact hne
  | some f =>
      obtain ⟨hf, -⟩ := M.getField_eq_some hget
      cases hatt : f.attname with
      | none => simpa [hatt] using hne
      | some attname =>
          intro heq
          have hspells : f.spells historyColumn = true := by
            simp [Field.spells, hatt, ← heq]
          rw [M.trailApart.1 f hf] at hspells
          exact Bool.false_ne_true hspells

theorem historyAttname_ne_historyColumn {name : String} (hname : name ∈ M.historyFields) :
    M.historyAttname name ≠ historyColumn :=
  M.historyAttname_ne_of_ne fun h => M.trailApart.2 (h ▸ hname)

theorem historyAttname_not_mem_autoColumns {name : String} (hname : name ∈ M.historyFields) :
    M.historyAttname name ∉ M.autoColumns := by
  intro hmem
  have hapart := M.autoApart _ hmem
  cases hget : M.getField name with
  | none =>
      have hself : M.historyAttname name = name := by rw [historyAttname, hget]
      rw [hself] at hapart
      exact hapart.2 hname
  | some f =>
      obtain ⟨hf, hspells⟩ := M.getField_eq_some hget
      have hatt : f.spells (M.historyAttname name) = true := by
        cases hattname : f.attname with
        | none => simpa [historyAttname, hget, hattname] using hspells
        | some attname => simp [historyAttname, hget, Field.spells, hattname]
      rw [hapart.1 f hf] at hatt
      exact Bool.false_ne_true hatt

theorem mem_trackedAttnames {name : String} (hname : name ∈ M.historyFields) :
    M.historyAttname name ∈ M.trackedAttnames := List.mem_map_of_mem hname

theorem historyColumn_not_tracked : historyColumn ∉ M.trackedAttnames := by
  intro hmem
  obtain ⟨name, hname, heq⟩ := List.mem_map.mp hmem
  exact M.historyAttname_ne_historyColumn hname heq

/-! ### The closed form of a read -/

/-- What `_history_values` returns when no read interferes. -/
def valuesOf (attrs : String → FieldValue) : Dict String JsonValue :=
  Dict.tabulate M.historyFields fun name => jsonSafe (attrs (M.historyAttname name))

theorem valuesOf_congr {attrs attrs' : String → FieldValue}
    (h : ∀ a ∈ M.trackedAttnames, attrs a = attrs' a) : M.valuesOf attrs = M.valuesOf attrs' :=
  Dict.tabulate_congr fun name hname => by rw [h _ (M.mem_trackedAttnames hname)]

theorem get?_valuesOf {attrs : String → FieldValue} {name : String}
    (hname : name ∈ M.historyFields) :
    (M.valuesOf attrs).get? name = some (jsonSafe (attrs (M.historyAttname name))) := by
  rw [valuesOf, Dict.get?_tabulate, if_pos hname]

/-- The columns a read of the attributes `extra` fetches: these and the
tracked ones, as far as they are deferred. -/
def due (inst : Instance) (extra : String → Bool) (attname : String) : Bool :=
  inst.deferred.contains attname && (extra attname || M.trackedAttnames.contains attname)

def fetch (row : Row) (extra : String → Bool) (inst : Instance) : Instance :=
  inst.loadColumns row (M.due inst extra)

def rebase (inst : Instance) : Instance :=
  { inst with snapshot := some (M.valuesOf inst.attrs) }

/-- The instance after every tracked attribute has been read. -/
def settle (row : Row) (inst : Instance) : Instance :=
  if inst.deferred.any M.trackedAttnames.contains then M.rebase (M.fetch row (fun _ => false) inst)
  else inst

theorem loadColumns_eq_self {inst : Instance} {row : Row} {cols : String → Bool}
    (h : ∀ a, cols a = false) : inst.loadColumns row cols = inst := by
  cases inst
  simp [Instance.loadColumns, h]

theorem deferred_fetch (row : Row) (extra : String → Bool) (inst : Instance) :
    (M.fetch row extra inst).deferred =
      inst.deferred.filter fun a => !(extra a || M.trackedAttnames.contains a) := by
  simp only [fetch, Instance.loadColumns]
  refine List.filter_congr fun a ha => ?_
  simp [due, ha]

theorem attrs_fetch_of_not_mem {row : Row} {extra : String → Bool} {inst : Instance} {a : String}
    (h : a ∉ inst.deferred) : (M.fetch row extra inst).attrs a = inst.attrs a := by
  simp [fetch, Instance.loadColumns, due, h]

theorem attrs_fetch_tracked {row : Row} (extra : String → Bool) {inst : Instance} {a : String}
    (h : a ∈ M.trackedAttnames) : (M.fetch row extra inst).attrs a =
      if a ∈ inst.deferred then row.cells a else inst.attrs a := by
  by_cases hmem : a ∈ inst.deferred <;> simp [fetch, Instance.loadColumns, due, h, hmem]

/-- Once the tracked attributes are loaded there is nothing more to fetch. -/
theorem fetch_fetch (row : Row) (extra : String → Bool) (inst : Instance) :
    M.fetch row (fun _ => false) (M.fetch row extra inst) = M.fetch row extra inst := by
  refine loadColumns_eq_self fun a => ?_
  rw [due, M.deferred_fetch]
  by_cases h : a ∈ M.trackedAttnames <;> simp [h]

theorem fetch_rebase (row : Row) (extra : String → Bool) (inst : Instance) :
    M.fetch row extra (M.rebase inst) =
      { M.fetch row extra inst with snapshot := some (M.valuesOf inst.attrs) } := rfl

theorem valuesOf_settle (row : Row) (inst : Instance) :
    M.valuesOf (M.settle row inst).attrs = M.valuesOf (M.fetch row (fun _ => false) inst).attrs := by
  unfold settle
  split
  · rfl
  · rename_i hany
    refine M.valuesOf_congr fun a ha => ?_
    rw [M.attrs_fetch_tracked _ ha, if_neg]
    intro hmem
    exact hany (List.any_eq_true.mpr ⟨a, hmem, by simpa using ha⟩)

theorem settle_of_mem {inst : Instance} {a : String} (ha : a ∈ M.trackedAttnames)
    (hmem : a ∈ inst.deferred) (row : Row) :
    M.settle row inst = M.rebase (M.fetch row (fun _ => false) inst) :=
  if_pos (List.any_eq_true.mpr ⟨a, hmem, by simpa using ha⟩)

/-- Fetching a tracked attribute fetches the tracked ones, no more. -/
theorem fetch_eq_of_tracked {a : String} (ha : a ∈ M.trackedAttnames) (row : Row)
    (inst : Instance) : M.fetch row (· == a) inst = M.fetch row (fun _ => false) inst := by
  refine congrArg (inst.loadColumns row) (funext fun b => ?_)
  obtain rfl | hb := eq_or_ne b a
  · simp [due, ha]
  · simp [due, beq_false_of_ne hb]

/-- What a read must do for `historyValues_eq`: fetch and re-baseline. -/
def ReadsAs (read : Instance → String → Instance) (row : Row) (inst : Instance) : Prop :=
  ∀ a, read inst a = if a ∈ inst.deferred then M.rebase (M.fetch row (· == a) inst) else inst

/-- A loop over tracked names: the first deferred one settles the instance,
every later read finds its attribute loaded. -/
theorem foldl_read {read : Instance → String → Instance} {row : Row} (n : ℕ)
    (hread : ∀ inst : Instance, inst.deferred.length ≤ n → M.ReadsAs read row inst)
    (names : List String) (hnames : ∀ name ∈ names, name ∈ M.historyFields) (inst : Instance)
    (hlen : inst.deferred.length ≤ n) (values : Dict String JsonValue) :
    names.foldl (fun acc name =>
        (read acc.1 (M.historyAttname name),
          acc.2.set name (jsonSafe ((read acc.1 (M.historyAttname name)).attrs
            (M.historyAttname name))))) (inst, values) =
      (if names.any (fun name => inst.deferred.contains (M.historyAttname name)) then
          M.settle row inst else inst,
        names.foldl (fun acc name => acc.set name
          (jsonSafe ((M.fetch row (fun _ => false) inst).attrs (M.historyAttname name)))) values) := by
  induction names generalizing inst values with
  | nil => rfl
  | cons name rest ih =>
      have htracked := M.mem_trackedAttnames (hnames name (by simp))
      have hrest : ∀ name ∈ rest, name ∈ M.historyFields := fun n hn => hnames n (by simp [hn])
      rw [List.foldl_cons, List.foldl_cons, hread inst hlen]
      split
      · -- a deferred attribute: after it the tracked ones are loaded, and the rest read as they are
        rename_i hmem
        let settled := M.rebase (M.fetch row (fun _ => false) inst)
        have hdeferred : settled.deferred =
            inst.deferred.filter fun a => !(false || M.trackedAttnames.contains a) :=
          M.deferred_fetch row (fun _ => false) inst
        have hlen' : settled.deferred.length ≤ n := by
          rw [hdeferred]
          exact (List.length_filter_le _ _).trans hlen
        have hfetch : (M.fetch row (fun _ => false) settled).attrs =
            (M.fetch row (fun _ => false) inst).attrs := by
          rw [M.fetch_rebase]
          change (M.fetch row _ (M.fetch row _ inst)).attrs = _
          rw [M.fetch_fetch]
        have hnone : (rest.any fun n => settled.deferred.contains (M.historyAttname n)) = false := by
          rw [List.any_eq_false]
          intro n hn
          rw [hdeferred]
          simp [M.mem_trackedAttnames (hrest n hn)]
        rw [M.fetch_eq_of_tracked htracked, ih hrest settled hlen', hnone, hfetch, List.any_cons,
          if_neg Bool.false_ne_true, if_pos (by simp [hmem]), M.settle_of_mem htracked hmem]
        rfl
      · rename_i hmem
        rw [ih hrest inst hlen, M.attrs_fetch_of_not_mem hmem]
        simp [hmem]

theorem any_tracked_deferred (inst : Instance) :
    (M.historyFields.any fun name => inst.deferred.contains (M.historyAttname name)) =
      inst.deferred.any M.trackedAttnames.contains := by
  rw [Bool.eq_iff_iff, List.any_eq_true, List.any_eq_true]
  constructor
  · rintro ⟨name, hname, hmem⟩
    exact ⟨_, by simpa using hmem, by simpa using M.mem_trackedAttnames hname⟩
  · rintro ⟨a, ha, hmem⟩
    obtain ⟨name, hname, rfl⟩ := List.mem_map.mp (by simpa using hmem : a ∈ M.trackedAttnames)
    exact ⟨name, hname, by simpa using ha⟩

theorem historyValues_of_reads {read : Instance → String → Instance} {row : Row} (n : ℕ)
    (hread : ∀ inst : Instance, inst.deferred.length ≤ n → M.ReadsAs read row inst)
    (inst : Instance) (hlen : inst.deferred.length ≤ n) :
    M.historyValues read none inst =
      (M.settle row inst, M.valuesOf (M.settle row inst).attrs) := by
  rw [M.valuesOf_settle]
  have hfold := M.foldl_read n hread M.historyFields (fun _ h => h) inst hlen Dict.empty
  rw [M.any_tracked_deferred] at hfold
  simp only [historyValues, Option.any_none, Bool.false_eq_true, if_false]
  rw [hfold]
  congr 1
  unfold settle
  split <;> rfl

theorem length_deferred_loadColumns_lt {inst : Instance} {a : String} (h : a ∈ inst.deferred)
    (row : Row) : (inst.loadColumns row (· == a)).deferred.length < inst.deferred.length :=
  List.length_filter_lt_length_iff_exists.mpr ⟨a, h, by simp⟩

/-- Loading one attribute and then the tracked ones is fetching both. -/
theorem fetch_loadColumns {inst : Instance} {a : String} (h : a ∈ inst.deferred) (row : Row) :
    M.fetch row (fun _ => false) (inst.loadColumns row (· == a)) = M.fetch row (· == a) inst := by
  simp only [fetch, Instance.loadColumns, due, Instance.mk.injEq, true_and]
  refine ⟨funext fun b => ?_, ?_, ?_⟩
  · obtain rfl | hb := eq_or_ne b a
    · simp [h]
    · by_cases hd : b ∈ inst.deferred <;> simp [hb, hd]
  · rw [List.filter_filter]
    refine List.filter_congr fun b hd => ?_
    obtain rfl | hb := eq_or_ne b a
    · simp [hd]
    · simp [hb, hd, Bool.and_comm]
  · have hc := M.historyColumn_not_tracked
    obtain rfl | ha := eq_or_ne historyColumn a
    · simp [h, hc]
    · simp [ha, hc]

theorem fetch_of_not_any {inst : Instance} (row : Row)
    (h : ¬ inst.deferred.any M.trackedAttnames.contains = true) :
    M.fetch row (fun _ => false) inst = inst := by
  refine loadColumns_eq_self fun b => ?_
  rw [Bool.not_eq_true, List.any_eq_false] at h
  cases hb : inst.deferred.contains b with
  | false => simp only [due, hb, Bool.false_and]
  | true =>
      have hnot := h b (by simpa using hb)
      simp only [due, hnot, Bool.or_false, Bool.and_false]

/-- Entering `refresh_from_db` for a deferred attribute: by induction on the
attributes still deferred, since the read loads one before it recurses. -/
theorem getattr_eq (row : Row) (depth : ℕ) :
    ∀ inst : Instance, inst.deferred.length ≤ depth →
      M.ReadsAs (M.getattr row depth) row inst := by
  induction depth with
  | zero =>
      intro inst hlen a
      have hnil : inst.deferred = [] := List.length_eq_zero_iff.mp (by omega)
      simp [getattr, hnil]
  | succ depth ih =>
      intro inst hlen a
      by_cases hmem : a ∈ inst.deferred
      · have hlt := length_deferred_loadColumns_lt hmem row
        rw [getattr, if_pos (by simpa using hmem), refreshFromDb,
          M.historyValues_of_reads depth ih _ (by omega), if_pos hmem]
        simp only [M.valuesOf_settle, M.fetch_loadColumns hmem]
        unfold settle
        split
        · rw [M.fetch_loadColumns hmem]
          rfl
        · rename_i hany
          rw [← M.fetch_of_not_any row hany, M.fetch_loadColumns hmem]
          rfl
      · rw [getattr, if_neg (by simpa using hmem), if_neg hmem]

/-- Reading an attribute: a deferred one is loaded together with the deferred
tracked ones, and the snapshot is taken anew. -/
theorem read_eq (row : Row) (inst : Instance) (a : String) :
    M.read row inst a =
      if a ∈ inst.deferred then M.rebase (M.fetch row (· == a) inst) else inst :=
  M.getattr_eq row _ inst le_rfl a

theorem historyValues_eq (row : Row) (inst : Instance) :
    M.historyValues (M.read row) none inst =
      (M.settle row inst, M.valuesOf (M.settle row inst).attrs) :=
  M.historyValues_of_reads inst.deferred.length
    (fun inst _ => M.read_eq row inst) inst le_rfl

/-! ### Reads with the tracked attributes loaded -/

def TrackedLoaded (inst : Instance) : Prop := ∀ a ∈ M.trackedAttnames, a ∉ inst.deferred

theorem trackedLoaded_of_deferred_nil {inst : Instance} (h : inst.deferred = []) :
    M.TrackedLoaded inst := fun a _ hmem => by simp [h] at hmem

theorem settle_of_trackedLoaded {inst : Instance} (h : M.TrackedLoaded inst) (row : Row) :
    M.settle row inst = inst := by
  rw [settle, if_neg]
  intro hany
  obtain ⟨a, hmem, ha⟩ := List.any_eq_true.mp hany
  exact h a (by simpa using ha) hmem

theorem historyValues_of_trackedLoaded {inst : Instance} (h : M.TrackedLoaded inst) (row : Row) :
    M.historyValues (M.read row) none inst = (inst, M.valuesOf inst.attrs) := by
  rw [M.historyValues_eq, M.settle_of_trackedLoaded h]

/-- `inst'` is `inst` after some reads, the trail apart: what was loaded is as
it was, and the snapshot is the old one or the values in memory. -/
structure Reads (inst inst' : Instance) : Prop where
  attrs : ∀ a, a ∉ inst.deferred → inst'.attrs a = inst.attrs a
  deferred : ∀ a, a ∈ inst'.deferred → a ∈ inst.deferred
  snapshot : inst'.snapshot = inst.snapshot ∨ inst'.snapshot = some (M.valuesOf inst.attrs)
  adding : inst'.adding = inst.adding

variable {M} {row : Row} {inst inst' inst'' : Instance}

theorem Reads.refl : M.Reads inst inst :=
  ⟨fun _ _ => rfl, fun _ h => h, .inl rfl, rfl⟩

theorem Reads.trackedLoaded (h : M.Reads inst inst') (hloaded : M.TrackedLoaded inst) :
    M.TrackedLoaded inst' := fun a ha hmem => hloaded a ha (h.deferred a hmem)

theorem Reads.valuesOf_eq (h : M.Reads inst inst') (hloaded : M.TrackedLoaded inst) :
    M.valuesOf inst'.attrs = M.valuesOf inst.attrs :=
  M.valuesOf_congr fun a ha => h.attrs a (hloaded a ha)

theorem Reads.trans (h : M.Reads inst inst') (h' : M.Reads inst' inst'')
    (hloaded : M.TrackedLoaded inst) : M.Reads inst inst'' where
  attrs a ha := by
    rw [h'.attrs a fun hmem => ha (h.deferred a hmem), h.attrs a ha]
  deferred a ha := h.deferred a (h'.deferred a ha)
  snapshot := by
    rcases h'.snapshot with hs | hs
    · rw [hs]; exact h.snapshot
    · rw [hs, h.valuesOf_eq hloaded]; exact .inr rfl
  adding := h'.adding.trans h.adding

theorem reads_read (row : Row) (hloaded : M.TrackedLoaded inst) (a : String) :
    M.Reads inst (M.read row inst a) := by
  rw [M.read_eq]
  split
  · refine ⟨fun b hb => M.attrs_fetch_of_not_mem hb, fun b hb => ?_, .inr ?_, rfl⟩
    · change b ∈ (M.fetch row _ inst).deferred at hb
      rw [M.deferred_fetch] at hb
      exact List.mem_of_mem_filter hb
    · change some (M.valuesOf (M.fetch row _ inst).attrs) = _
      rw [M.valuesOf_congr fun b hb => M.attrs_fetch_of_not_mem (hloaded b hb)]
  · exact .refl

/-- The columns of the trail apart, nothing a read fetches is the trail. -/
theorem due_historyColumn (extra : String → Bool) :
    M.due inst extra historyColumn = (inst.deferred.contains historyColumn && extra historyColumn) := by
  have hc : M.trackedAttnames.contains historyColumn = false := by
    simpa using M.historyColumn_not_tracked
  rw [due, hc, Bool.or_false]

theorem trail_read (a : String) : (M.read row inst a).trail =
    if a = historyColumn ∧ historyColumn ∈ inst.deferred then row.trail else inst.trail := by
  rw [M.read_eq]
  split
  · change (if M.due inst (· == a) historyColumn then row.trail else inst.trail) = _
    rw [due_historyColumn]
    by_cases ha : a = historyColumn
    · subst ha
      simp [*]
    · simp [ha, Ne.symm ha]
  · rename_i hmem
    rw [if_neg]
    rintro ⟨rfl, h⟩
    exact hmem h

theorem not_mem_deferred_read (row : Row) (inst : Instance) (a : String) :
    a ∉ (M.read row inst a).deferred := by
  rw [M.read_eq]
  split
  · change a ∉ (M.fetch row _ inst).deferred
    rw [M.deferred_fetch]
    simp
  · assumption

theorem read_of_loaded {a : String} (h : a ∉ inst.deferred) : M.read row inst a = inst := by
  rw [M.read_eq, if_neg h]

theorem reads_foldl (row : Row) (hloaded : M.TrackedLoaded inst) (cols : List String) :
    M.Reads inst (cols.foldl (M.read row) inst) := by
  induction cols generalizing inst with
  | nil => exact .refl
  | cons a cols ih =>
      have hread := M.reads_read row hloaded a
      exact hread.trans (ih (hread.trackedLoaded hloaded)) hloaded

theorem foldl_read_of_loaded {cols : List String} (h : ∀ a ∈ cols, a ∉ inst.deferred) :
    cols.foldl (M.read row) inst = inst := by
  induction cols with
  | nil => rfl
  | cons a cols ih =>
      rw [List.foldl_cons, read_of_loaded (h a (by simp))]
      exact ih fun b hb => h b (by simp [hb])

theorem not_mem_deferred_foldl (hloaded : M.TrackedLoaded inst) {cols : List String} {a : String}
    (ha : a ∈ cols) : a ∉ (cols.foldl (M.read row) inst).deferred := by
  induction cols generalizing inst with
  | nil => exact absurd ha (by simp)
  | cons b cols ih =>
      have hread := (M.reads_read row hloaded b).trackedLoaded hloaded
      rw [List.foldl_cons]
      rcases List.mem_cons.mp ha with rfl | ha
      · exact fun hmem => not_mem_deferred_read row _ a ((reads_foldl row hread cols).deferred a hmem)
      · exact ih hread ha

/-- What `self.change_history` reads as. -/
def trailSeen (row : Row) (inst : Instance) : Trail :=
  if historyColumn ∈ inst.deferred then row.trail else inst.trail

theorem historyColumn_mem_deferred_read {a : String} :
    historyColumn ∈ (M.read row inst a).deferred ↔
      historyColumn ∈ inst.deferred ∧ a ≠ historyColumn := by
  by_cases ha : a = historyColumn
  · subst ha
    simpa using M.not_mem_deferred_read row inst historyColumn
  · rw [M.read_eq]
    split
    · change historyColumn ∈ (M.fetch row _ inst).deferred ↔ _
      rw [M.deferred_fetch, List.mem_filter]
      simp [M.historyColumn_not_tracked, beq_false_of_ne (Ne.symm ha), ha]
    · simp [ha]

theorem trailSeen_fetch (row : Row) (extra : String → Bool) (inst : Instance) :
    trailSeen row (M.fetch row extra inst) = trailSeen row inst := by
  have hdeferred := M.deferred_fetch row extra inst
  have htrail : (M.fetch row extra inst).trail =
      if M.due inst extra historyColumn then row.trail else inst.trail := rfl
  simp only [trailSeen, hdeferred, htrail, due_historyColumn, List.mem_filter]
  by_cases hmem : historyColumn ∈ inst.deferred <;> cases hextra : extra historyColumn <;>
    simp [hmem, M.historyColumn_not_tracked]

theorem trailSeen_read (row : Row) (inst : Instance) (a : String) :
    trailSeen row (M.read row inst a) = trailSeen row inst := by
  simp only [trailSeen, historyColumn_mem_deferred_read, trail_read]
  by_cases hmem : historyColumn ∈ inst.deferred <;> by_cases ha : a = historyColumn <;>
    simp [hmem, ha]

theorem trailSeen_foldl (row : Row) (inst : Instance) (cols : List String) :
    trailSeen row (cols.foldl (M.read row) inst) = trailSeen row inst := by
  induction cols generalizing inst with
  | nil => rfl
  | cons a cols ih => rw [List.foldl_cons, ih, trailSeen_read]

end HistoryModel

end NetixBackend.ChangeHistory
