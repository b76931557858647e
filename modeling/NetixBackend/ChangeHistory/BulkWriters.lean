import NetixBackend.ChangeHistory.BulkUpdate
import NetixBackend.ChangeHistory.Writers

/-!
Many clients, many rows, saves and bulk updates.

A save that is up to date with its row accounts for what it moves. A bulk update
moves rows and adds nothing to any trail. So the trail of a row gains the
entries of the saves alone, and the row is what replaying these entries and the
bulk updates in their order gives (`Explained`): a tracked value that the trail
does not account for was stored by a bulk update, after the last entry about it.
-/

namespace NetixBackend.ChangeHistory

open Python Transition

/-- What wrote to a row: a save, by its entry, or a bulk update, by the tracked
values it stored. -/
inductive Written
  | save (entry : Entry)
  | bulk (values : String → Option JsonValue)

namespace Written

def entry? : Written → Option Entry
  | .save entry => some entry
  | .bulk _ => none

/-- The value of a tracked name afterwards. -/
def left (written : Written) (name : String) (value : JsonValue) : JsonValue :=
  match written with
  | .save entry => entry.recorded name value
  | .bulk values => (values name).getD value

/-- It is not about the name. -/
def Spares (written : Written) (name : String) : Prop :=
  match written with
  | .save entry => ∀ change ∈ entry.changes, change.field ≠ name
  | .bulk values => values name = none

end Written

/-- The value the last of `log` to write `name` left, starting from `value`. -/
def lastWritten (log : List Written) (name : String) (value : JsonValue) : JsonValue :=
  log.foldl (fun value written => written.left name value) value

def entriesOf (log : List Written) : List Entry := log.filterMap Written.entry?

theorem entriesOf_append (log log' : List Written) :
    entriesOf (log ++ log') = entriesOf log ++ entriesOf log' := List.filterMap_append

theorem entriesOf_map_save (entries : List Entry) :
    entriesOf (entries.map .save) = entries := by
  rw [entriesOf, List.filterMap_map]
  exact List.filterMap_some

theorem lastWritten_append (log log' : List Written) (name : String) (value : JsonValue) :
    lastWritten (log ++ log') name value = lastWritten log' name (lastWritten log name value) :=
  List.foldl_append

theorem lastWritten_map_save (entries : List Entry) (name : String) (value : JsonValue) :
    lastWritten (entries.map .save) name value = lastRecorded entries name value := by
  rw [lastWritten, List.foldl_map]
  rfl

theorem PyEqual.left {a b : JsonValue} (h : PyEqual a b) (written : Written) (name : String) :
    PyEqual (written.left name a) (written.left name b) := by
  cases written with
  | save entry => exact h.lastRecorded [entry] name
  | bulk values =>
      cases hvalue : values name with
      | none => simpa [Written.left, hvalue] using h
      | some value =>
          simp only [Written.left, hvalue, Option.getD_some]
          exact .refl

theorem PyEqual.lastWritten {a b : JsonValue} (h : PyEqual a b) (log : List Written)
    (name : String) : PyEqual (lastWritten log name a) (lastWritten log name b) := by
  induction log generalizing a b with
  | nil => exact h
  | cons written log ih => exact ih (h.left written name)

/-- Either the entries alone leave the value, or a bulk update left it and
nothing after it is about the name. -/
theorem lastWritten_cases (log : List Written) (name : String) (value : JsonValue) :
    lastWritten log name value = lastRecorded (entriesOf log) name value ∨
      ∃ before values after, log = before ++ .bulk values :: after ∧
        values name = some (lastWritten log name value) ∧
        ∀ written ∈ after, written.Spares name := by
  induction log using List.reverseRecOn with
  | nil => exact .inl rfl
  | append_singleton log written ih =>
      rw [lastWritten_append, entriesOf_append]
      have hone : lastWritten [written] name (lastWritten log name value) =
          written.left name (lastWritten log name value) := rfl
      rw [hone]
      cases written with
      | bulk values =>
          cases hvalue : values name with
          | some v =>
              exact .inr ⟨log, values, [], rfl, by simp [Written.left, hvalue], by simp⟩
          | none =>
              have hsame : (Written.bulk values).left name (lastWritten log name value) =
                  lastWritten log name value := by simp [Written.left, hvalue]
              rw [hsame]
              rcases ih with h | ⟨before, values', after, rfl, hvalues, hafter⟩
              · have hnone : entriesOf [Written.bulk values] = [] := rfl
                exact .inl (by rw [hnone, List.append_nil]; exact h)
              · refine .inr ⟨before, values', after ++ [.bulk values], by simp, hvalues, ?_⟩
                intro written hmem
                rcases List.mem_append.mp hmem with hmem | hmem
                · exact hafter written hmem
                · obtain rfl := List.mem_singleton.mp hmem
                  exact hvalue
      | save entry =>
          have hentries : lastRecorded (entriesOf log ++ entriesOf [Written.save entry]) name value =
              entry.recorded name (lastRecorded (entriesOf log) name value) := by
            rw [lastRecorded_append]
            rfl
          rw [hentries]
          simp only [Written.left, Entry.recorded]
          cases hfind : entry.changes.find? (·.field == name) with
          | some change => exact .inl rfl
          | none =>
              rcases ih with h | ⟨before, values, after, rfl, hvalues, hafter⟩
              · exact .inl h
              · refine .inr ⟨before, values, after ++ [.save entry], by simp, hvalues, ?_⟩
                intro written hmem
                rcases List.mem_append.mp hmem with hmem | hmem
                · exact hafter written hmem
                · obtain rfl := List.mem_singleton.mp hmem
                  exact fun change hchange => by simpa using List.find?_eq_none.mp hfind change hchange

namespace HistoryModel

variable (M : HistoryModel)

/-! ### What accounts for a row -/

/-- `log` is what was written between two states of the row, and it accounts
for them. -/
structure Explained (log : List Written) (row row' : Row) : Prop where
  /-- The trail gained the entries of the saves, up to the cap. -/
  trail : row'.trail.entries =
    CappedLog.pushAll M.historyMaxEntries row.trail.entries (entriesOf log)
  /-- Each tracked value is the one written last, by whichever path. -/
  values : ∀ name ∈ M.historyFields,
    PyEqual (lastWritten log name (M.stored row name)) (M.stored row' name)
  /-- What the trail does not account for was stored by a bulk update, after
  the last entry about it. -/
  gaps : ∀ name ∈ M.historyFields,
    PyEqual (lastRecorded (entriesOf log) name (M.stored row name)) (M.stored row' name) ∨
      ∃ before values after value, log = before ++ .bulk values :: after ∧
        values name = some value ∧ PyEqual value (M.stored row' name) ∧
        ∀ written ∈ after, written.Spares name

variable {M} {row row' row'' : Row} {inst : Instance} {log log' : List Written}

theorem Explained.of
    (htrail : row'.trail.entries =
      CappedLog.pushAll M.historyMaxEntries row.trail.entries (entriesOf log))
    (hvalues : ∀ name ∈ M.historyFields,
      PyEqual (lastWritten log name (M.stored row name)) (M.stored row' name)) :
    M.Explained log row row' where
  trail := htrail
  values := hvalues
  gaps name hname := by
    have hvalue := hvalues name hname
    rcases lastWritten_cases log name (M.stored row name) with h | ⟨before, values, after, rfl, h⟩
    · exact .inl (h ▸ hvalue)
    · exact .inr ⟨before, values, after, _, rfl, h.1, hvalue, h.2⟩

theorem Explained.refl (row : Row) : M.Explained [] row row := .of rfl fun _ _ => .refl

theorem Explained.trans (h : M.Explained log row row') (h' : M.Explained log' row' row'') :
    M.Explained (log ++ log') row row'' := by
  refine .of ?_ fun name hname => ?_
  · rw [entriesOf_append, CappedLog.pushAll_append, ← h.trail, h'.trail]
  · rw [lastWritten_append]
    exact ((h.values name hname).lastWritten log' name).trans (h'.values name hname)

theorem AccountedBy.explained {entries : List Entry} (h : M.AccountedBy entries row row') :
    M.Explained (entries.map .save) row row' := by
  refine .of ?_ fun name hname => ?_
  · rw [entriesOf_map_save, h.trail]
  · rw [lastWritten_map_save]
    exact h.values name hname

/-- The tracked values a bulk update of these columns stored. -/
def bulkValues (M : HistoryModel) (columns : List String) (row : Row) (name : String) :
    Option JsonValue :=
  if M.historyFields.contains name && columns.contains (M.historyAttname name) then
    some (M.stored row name)
  else none

theorem explained_bulk {columns : List String}
    (htrail : historyColumn ∈ columns → inst.trail.entries = row.trail.entries) :
    M.Explained [.bulk (M.bulkValues columns (row.write inst columns.contains))] row
      (row.write inst columns.contains) := by
  refine .of ?_ fun name hname => ?_
  · change (if columns.contains historyColumn then inst.trail else row.trail).entries =
      row.trail.entries
    split
    · rename_i hmem
      exact htrail (by simpa using hmem)
    · rfl
  · change PyEqual ((M.bulkValues columns _ name).getD _) _
    by_cases hmem : M.historyAttname name ∈ columns
    · rw [bulkValues, if_pos (by simp [hname, hmem])]
      exact .refl
    · rw [bulkValues, if_neg (by simp [hmem])]
      simp only [stored, Row.write, List.contains_eq_mem, hmem, decide_false,
        Bool.false_eq_true, if_false]
      exact .refl

/-! ### Runs -/

variable {ι : Type*} [DecidableEq ι]

/-- The rows, what the clients have loaded of them, and what has been written
to each row so far. -/
structure Table (ι : Type*) where
  rows : ι → Row
  clients : ℕ → Option (ι × Instance)
  written : ι → List Written := fun _ => []

inductive TableStep (ι : Type*)
  | load (client : ℕ) (key : ι)
  | assign (client : ℕ) (name : String) (value : FieldValue)
  | save (client : ℕ) (env : Env) (updateFields : Option (List String))
  | bulk (members : List (ℕ × ι × Instance)) (queryset : QuerySet ι) (fields : List String)
      (batchSize : Option ℤ) (now : FieldValue)

def Table.setClient (s : Table ι) (client : ℕ) (loaded : ι × Instance) : Table ι :=
  { s with clients := fun i => if i = client then some loaded else s.clients i }

/-- The members' objects as the call left them. -/
def returned (members : List (ℕ × ι × Instance)) (objs : List (Option ι × Instance))
    (clients : ℕ → Option (ι × Instance)) (client : ℕ) : Option (ι × Instance) :=
  match ((members.map Prod.fst).zip objs).lookup client with
  | some (some key, inst) => some (key, inst)
  | _ => clients client

def bulkObjs (members : List (ℕ × ι × Instance)) : List (Option ι × Instance) :=
  members.map fun member => (some member.2.1, member.2.2)

/-- Loads of whole rows, assignments to tracked fields, successful saves and
successful bulk updates of different rows, by any number of clients. -/
def tables (M : HistoryModel) (defaults : String → FieldValue) :
    System (Table ι) (TableStep ι) where
  init s := (∀ client, s.clients client = none) ∧ ∀ key, s.written key = []
  step s label t :=
    match label with
    | .load client key =>
        t = s.setClient client (key, M.fromDb (s.rows key) defaults M.columns)
    | .assign client name value => name ∈ M.historyFields ∧ ∃ key inst,
        s.clients client = some (key, inst) ∧
          t = s.setClient client (key, M.assign inst name value)
    | .save client env updateFields => ∃ key inst, s.clients client = some (key, inst) ∧
        ∃ out, out = M.save env (s.rows key) updateFields none inst ∧ out.raised = none ∧
          t = { s.setClient client (key, out.inst) with
                rows := Function.update s.rows key out.row
                written := Function.update s.written key
                  (s.written key ++ out.entry.toList.map .save) }
    | .bulk members queryset fields batchSize now => queryset.rows = s.rows ∧
        (∀ member ∈ members, s.clients member.1 = some member.2) ∧
        (members.map fun member => member.2.1).Nodup ∧
        ∃ out count,
          out = M.stampAndUpdate queryset (bulkObjs members) fields batchSize now ∧
          out.result = .ok count ∧
          t = { rows := out.rows
                clients := returned members out.objs s.clients
                written := fun key =>
                  if key ∈ members.map (fun member => member.2.1) ∧
                      queryset.selects (s.rows key) = true then
                    s.written key ++
                      [.bulk (M.bulkValues (M.bulkColumns (stamped fields)) (out.rows key))]
                  else s.written key }

/-- The condition on a step: what writes the trail back has the trail of the
row, and a save tells apart what it moves. -/
def upToDateTable (M : HistoryModel) (s : Table ι) : TableStep ι → Prop
  | .save client _ updateFields => ∀ key inst, s.clients client = some (key, inst) →
      M.UpToDate (s.rows key) updateFields inst
  | .bulk members _ fields _ _ => historyColumn ∈ M.bulkColumns (stamped fields) →
      ∀ member ∈ members, member.2.2.trail.entries = (s.rows member.2.1).trail.entries
  | _ => True

/-- Every client holds a stored instance with nothing deferred. -/
def HeldWhole (s : Table ι) : Prop :=
  ∀ client key inst, s.clients client = some (key, inst) →
    inst.deferred = [] ∧ inst.adding = false

variable {defaults : String → FieldValue} {s t : Table ι} {members : List (ℕ × ι × Instance)}

omit [DecidableEq ι] in
theorem HeldWhole.setClient (h : HeldWhole s) {client : ℕ} {key : ι}
    (hinst : inst.deferred = [] ∧ inst.adding = false) :
    HeldWhole (s.setClient client (key, inst)) := by
  intro i key' inst' hi
  simp only [Table.setClient] at hi
  split at hi
  · obtain ⟨rfl, rfl⟩ := Prod.mk.inj (Option.some.inj hi)
    exact hinst
  · exact h i key' inst' hi

omit [DecidableEq ι] in
/-- After a call a client holds what it held, or its own object as stamped. -/
theorem returned_cases {clients : ℕ → Option (ι × Instance)} {client : ℕ} {key : ι}
    {now : FieldValue}
    (h : returned members (members.map fun member => (some member.2.1, M.stamp now member.2.2))
      clients client = some (key, inst)) :
    clients client = some (key, inst) ∨
      ∃ member ∈ members, inst = M.stamp now member.2.2 := by
  unfold returned at h
  rw [List.zip_map'] at h
  split at h
  · rename_i key' inst' hlookup
    obtain ⟨_, _, hsplit, -⟩ := List.lookup_eq_some_iff.mp hlookup
    have hmem : (client, some key', inst') ∈ members.map fun member =>
        (member.1, some member.2.1, M.stamp now member.2.2) := by
      rw [hsplit]
      simp
    obtain ⟨member, hmember, heq⟩ := List.mem_map.mp hmem
    have hinst : M.stamp now member.2.2 = inst' := (Prod.mk.inj (Prod.mk.inj heq).2).2
    have hsame : inst' = inst := (Prod.mk.inj (Option.some.inj h)).2
    exact .inr ⟨member, hmember, hsame.symm.trans hinst.symm⟩
  · exact .inl h

/-! ### One bulk update -/

variable {queryset : QuerySet ι} {fields : List String} {batchSize : Option ℤ} {now : FieldValue}
  {count : ℕ}

theorem HeldWhole.storedWhole (hs : HeldWhole s)
    (hmembers : ∀ member ∈ members, s.clients member.1 = some member.2)
    (hnodup : (members.map fun member => member.2.1).Nodup)
    (hok : (M.stampAndUpdate queryset (bulkObjs members) fields batchSize now).result = .ok count) :
    M.StoredWhole queryset (members.map Prod.snd) (M.bulkColumns (stamped fields)) now
      (M.stampAndUpdate queryset (bulkObjs members) fields batchSize now) := by
  have hobjs : bulkObjs members = (members.map Prod.snd).map fun obj => (some obj.1, obj.2) := by
    rw [bulkObjs, List.map_map]
    rfl
  rw [hobjs] at hok ⊢
  refine HistoryModel.storedWhole ?_ (fun obj hobj => ?_) hok
  · rwa [List.map_map]
  · obtain ⟨member, hmember, rfl⟩ := List.mem_map.mp hobj
    exact (hs member.1 member.2.1 member.2.2 (hmembers member hmember)).1

theorem inductive_heldWhole (defaults : String → FieldValue)
    (guard : Table ι → TableStep ι → Prop) :
    ((tables M defaults).restrict guard).Inductive HeldWhole where
  init s h client key inst hinst := by simp [h.1 client] at hinst
  step s label t hs hstep := by
    obtain ⟨-, hstep⟩ := hstep
    cases label with
    | load client key =>
        subst hstep
        have hloaded := M.loaded_fromDb (s.rows key) defaults fun a ha => ha
        refine hs.setClient ⟨List.eq_nil_iff_forall_not_mem.mpr fun a ha => ?_, hloaded.adding⟩
        exact (hloaded.mem_deferred.mp ha).2 (hloaded.mem_deferred.mp ha).1
    | assign client name value =>
        obtain ⟨-, key, inst, hinst, rfl⟩ := hstep
        obtain ⟨hdeferred, hadding⟩ := hs client key inst hinst
        exact hs.setClient ⟨by simp [assign, hdeferred], hadding⟩
    | save client env updateFields =>
        obtain ⟨key, inst, hinst, out, rfl, hok, rfl⟩ := hstep
        obtain ⟨hdeferred, hadding⟩ := hs client key inst hinst
        have hsaved := saved_of_whollyLoaded hdeferred hadding hok
        have hnone : (M.save env (s.rows key) updateFields none inst).inst.deferred = [] := by
          refine List.eq_nil_iff_forall_not_mem.mpr fun a ha => ?_
          have hgone := hsaved.deferred a ha
          simp [hdeferred] at hgone
        exact hs.setClient ⟨hnone, hsaved.adding⟩
    | bulk members queryset fields batchSize now =>
        obtain ⟨-, hmembers, hnodup, out, count, rfl, hok, rfl⟩ := hstep
        intro client key inst hinst
        have hobjs : (M.stampAndUpdate queryset (bulkObjs members) fields batchSize now).objs =
            members.map fun member => (some member.2.1, M.stamp now member.2.2) :=
          (hs.storedWhole hmembers hnodup hok).objs.trans List.map_map
        simp only [hobjs] at hinst
        rcases returned_cases hinst with hheld | ⟨member, hmember, rfl⟩
        · exact hs client key inst hheld
        · obtain ⟨hdeferred, hadding⟩ :=
            hs member.1 member.2.1 member.2.2 (hmembers member hmember)
          exact ⟨deferred_stamp hdeferred, hadding⟩

/-! ### The rows of a run -/

/-- Between the two states `log` was written to the row, and accounts for it. -/
def ExplainedSince (M : HistoryModel) (s t : Table ι) (key : ι) : Prop :=
  ∃ log, t.written key = s.written key ++ log ∧ M.Explained log (s.rows key) (t.rows key)

omit [DecidableEq ι] in
theorem ExplainedSince.refl (s : Table ι) (key : ι) : M.ExplainedSince s s key :=
  ⟨[], by simp, .refl _⟩

omit [DecidableEq ι] in
theorem ExplainedSince.of_same {key : ι} (hwritten : t.written key = s.written key)
    (hrow : t.rows key = s.rows key) : M.ExplainedSince s t key :=
  ⟨[], by rw [hwritten, List.append_nil], by rw [hrow]; exact .refl _⟩

omit [DecidableEq ι] in
theorem ExplainedSince.trans {u : Table ι} {key : ι} (h : M.ExplainedSince s t key)
    (h' : M.ExplainedSince t u key) : M.ExplainedSince s u key := by
  obtain ⟨log, hwritten, hlog⟩ := h
  obtain ⟨log', hwritten', hlog'⟩ := h'
  exact ⟨log ++ log', by rw [hwritten', hwritten, List.append_assoc], hlog.trans hlog'⟩

theorem ExplainedSince.of_step {label : TableStep ι} (hs : HeldWhole s)
    (hstep : ((tables M defaults).restrict M.upToDateTable).step s label t) (key : ι) :
    M.ExplainedSince s t key := by
  obtain ⟨hguard, hstep⟩ := hstep
  cases label with
  | load client loaded =>
      subst hstep
      exact .refl s key
  | assign client name value =>
      obtain ⟨-, held, inst, -, rfl⟩ := hstep
      exact .refl s key
  | save client env updateFields =>
      obtain ⟨held, inst, hinst, out, rfl, hok, rfl⟩ := hstep
      obtain ⟨hdeferred, hadding⟩ := hs client held inst hinst
      have hsaved := AccountedBy.of_saved (saved_of_whollyLoaded hdeferred hadding hok) hadding
        hdeferred (hguard held inst hinst)
      by_cases hkey : key = held
      · subst hkey
        refine ⟨_, Function.update_self _ _ _, ?_⟩
        simp only [Function.update_self]
        exact hsaved.explained
      · exact .of_same (Function.update_of_ne hkey ..) (Function.update_of_ne hkey ..)
  | bulk members queryset fields batchSize now =>
      obtain ⟨hrows, hmembers, hnodup, out, count, rfl, hok, rfl⟩ := hstep
      have hstored := hs.storedWhole hmembers hnodup hok
      -- the row of an object that the queryset selects is written, every other row is left
      by_cases hmem : key ∈ members.map fun member => member.2.1
      · obtain ⟨member, hmember, rfl⟩ := List.mem_map.mp hmem
        have hrow := hstored.rows member.2 (List.mem_map_of_mem hmember)
        rw [hrows] at hrow
        by_cases hselects : queryset.selects (s.rows member.2.1) = true
        · refine ⟨_, if_pos ⟨hmem, hselects⟩, ?_⟩
          rw [if_pos hselects] at hrow
          simp only [hrow]
          exact explained_bulk fun hcolumn => hguard hcolumn member hmember
        · rw [if_neg hselects] at hrow
          exact .of_same (if_neg fun h => hselects h.2) hrow
      · have hother := hstored.others key (by rwa [List.map_map])
        rw [hrows] at hother
        exact .of_same (if_neg fun h => hmem h.1) hother

/-- In every run that is up to date, between any two of its states, a row is
what its saves and bulk updates wrote, in their order. -/
theorem explained_of_upToDate (defaults : String → FieldValue) {s t : Table ι}
    (hs : ((tables M defaults).restrict M.upToDateTable).Reachable s)
    (hrun : ((tables M defaults).restrict M.upToDateTable).Steps s t) (key : ι) :
    M.ExplainedSince s t key :=
  (inductive_heldWhole defaults M.upToDateTable).relates
    (R := fun s t => M.ExplainedSince s t key) (fun s => .refl s key) (fun _ _ _ => .trans)
    (fun _ _ _ hs hstep => .of_step hs hstep key)
    ((inductive_heldWhole defaults M.upToDateTable).reachable hs) hrun

/-! ### A widget relabelled in bulk -/

def widgetTable : Table Unit where
  rows _ := widgetRow
  clients _ := none

def renamedWidget : Instance := historyWidget.assign loadedWidget "label" (.str "after")

def relabellingTable : Table Unit :=
  (widgetTable.setClient 0 ((), loadedWidget)).setClient 0 ((), renamedWidget)

def widgetQuery : QuerySet Unit where
  rows _ := widgetRow
  maxBatchSize := 1
  batchPos := Nat.one_pos

theorem explained_relabellingTable :
    ∃ t, (tables historyWidget fun _ => .none).step relabellingTable
        (.bulk [(0, (), renamedWidget)] widgetQuery ["label"] none (.temporal "12:00")) t ∧
      historyWidget.ExplainedSince relabellingTable t () := by
  let runs := (tables (ι := Unit) historyWidget fun _ => .none).restrict
    historyWidget.upToDateTable
  have hload : runs.step widgetTable (.load 0 ()) (widgetTable.setClient 0 ((), loadedWidget)) :=
    ⟨trivial, rfl⟩
  have hassign : runs.step (widgetTable.setClient 0 ((), loadedWidget))
      (.assign 0 "label" (.str "after")) relabellingTable :=
    ⟨trivial, by decide, (), loadedWidget, rfl, rfl⟩
  have hinit : runs.Reachable widgetTable := .of_init ⟨fun _ => rfl, fun _ => rfl⟩
  obtain ⟨count, hcount⟩ : ∃ count, (historyWidget.stampAndUpdate widgetQuery
      (bulkObjs [(0, (), renamedWidget)]) ["label"] none (.temporal "12:00")).result = .ok count :=
    bulkUpdate_accepted (by decide) rfl
  have hstep : (tables historyWidget fun _ => .none).step relabellingTable
      (.bulk [(0, (), renamedWidget)] widgetQuery ["label"] none (.temporal "12:00")) _ :=
    ⟨rfl, by simp [relabellingTable, Table.setClient], by simp, _, count, rfl, hcount, rfl⟩
  refine ⟨_, hstep, explained_of_upToDate (fun _ => .none) ((hinit.next hload).next hassign)
    (.single ⟨_, ?_, hstep⟩) ()⟩
  intro _ member hmember
  obtain rfl := List.mem_singleton.mp hmember
  rfl

end HistoryModel

end NetixBackend.ChangeHistory
