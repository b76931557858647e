import NetixBackend.ChangeHistory.SingleWriter
import NetixBackend.Python.CappedLog

/-!
Several clients, each with its own instance of one row.

The trail is a single JSON value: a client reads it whole when it loads the
row and writes it back whole when it saves, and the data columns beside it can
be written one by one. A save adds to the trail that is in the row only if the
client's copy is that trail, and records what it moves in the row only if its
snapshot tells the moved values apart (`UpToDate`). In every run whose saves
meet this the row's trail accounts for the row (`Accounted`); two clients that
load before either saves are enough to break it.
-/

namespace NetixBackend.ChangeHistory

open Python Transition

/-- The value of a tracked name after one more entry. -/
def Entry.recorded (entry : Entry) (name : String) (value : JsonValue) : JsonValue :=
  ((entry.changes.find? (·.field == name)).map Change.new).getD value

/-- The value the last of `log` to record `name` left, starting from `value`. -/
def lastRecorded (log : List Entry) (name : String) (value : JsonValue) : JsonValue :=
  log.foldl (fun value entry => entry.recorded name value) value

/-- A chain of values Python calls equal, one by one: `True`, `1`, `1.0`. -/
def PyEqual : JsonValue → JsonValue → Prop :=
  Relation.ReflTransGen fun a b => a.pyNe b = false

theorem lastRecorded_append (log log' : List Entry) (name : String) (value : JsonValue) :
    lastRecorded (log ++ log') name value =
      lastRecorded log' name (lastRecorded log name value) := List.foldl_append

/-- Replayed from values that are equal, a log leaves equal values. -/
theorem PyEqual.lastRecorded {a b : JsonValue} (h : PyEqual a b) (log : List Entry)
    (name : String) : PyEqual (lastRecorded log name a) (lastRecorded log name b) := by
  induction log generalizing a b with
  | nil => exact h
  | cons entry log ih =>
      have hentry : PyEqual (entry.recorded name a) (entry.recorded name b) := by
        unfold Entry.recorded
        cases entry.changes.find? (·.field == name) with
        | none => exact h
        | some change => exact .refl
      exact ih hentry

/-- Either no entry of the log is about the name, or the last recorded value is
one that an entry records. -/
theorem lastRecorded_eq (log : List Entry) (name : String) (value : JsonValue) :
    lastRecorded log name value = value ∨ ∃ entry ∈ log, ∃ change ∈ entry.changes,
      change.field = name ∧ change.new = lastRecorded log name value := by
  induction log generalizing value with
  | nil => exact .inl rfl
  | cons entry log ih =>
      change lastRecorded log name (entry.recorded name value) = value ∨ ∃ entry' ∈ entry :: log,
        ∃ change ∈ entry'.changes, change.field = name ∧
          change.new = lastRecorded log name (entry.recorded name value)
      rcases ih (entry.recorded name value) with h | ⟨entry', hentry', hrest⟩
      · rw [h]
        unfold Entry.recorded
        cases hfind : entry.changes.find? (·.field == name) with
        | none => exact .inl rfl
        | some change =>
            exact .inr ⟨entry, by simp, change, List.mem_of_find?_eq_some hfind,
              by simpa using List.find?_some hfind, rfl⟩
      · exact .inr ⟨entry', List.mem_cons_of_mem _ hentry', hrest⟩

namespace HistoryModel

variable (M : HistoryModel)

/-- `log` is what the trail gained between two states of the row, and it
accounts for them. -/
structure AccountedBy (log : List Entry) (row row' : Row) : Prop where
  /-- Entries were added, and none was lost but to the cap. -/
  trail : row'.trail.entries = CappedLog.pushAll M.historyMaxEntries row.trail.entries log
  whole : 0 < M.historyMaxEntries →
    (row.trail.entries.length + log.length : ℤ) ≤ M.historyMaxEntries →
      row'.trail.entries = row.trail.entries ++ log
  /-- Each tracked value is the one recorded last. -/
  values : ∀ name ∈ M.historyFields,
    PyEqual (lastRecorded log name (M.stored row name)) (M.stored row' name)
  /-- In other words, what is not as it was is as some added entry says. -/
  recorded : ∀ name ∈ M.historyFields,
    PyEqual (M.stored row name) (M.stored row' name) ∨
      ∃ entry ∈ log, ∃ change ∈ entry.changes, change.field = name ∧
        PyEqual change.new (M.stored row' name)

def Accounted (row row' : Row) : Prop := ∃ log, M.AccountedBy log row row'

structure UpToDate (row : Row) (updateFields : Option (List String)) (inst : Instance) :
    Prop where
  /-- The trail the save writes back is the one in the row. -/
  trail : M.Records updateFields inst ∨ M.stores updateFields historyColumn = true →
    inst.trail.entries = row.trail.entries
  /-- A value that moves the row has moved since the client's snapshot too, and
  is named as the diff looks for it. -/
  values : ∀ name ∈ M.historyFields, M.stores updateFields (M.historyAttname name) = true →
    (M.stored row name).pyNe (M.current inst name) = true →
      M.selects updateFields name = true ∧
        ∃ old, inst.seen name = some old ∧ old.pyNe (M.current inst name) = true

/-! ### Accounts -/

variable {M} {row row' row'' : Row} {inst : Instance} {env : Env}
  {updateFields : Option (List String)} {out : SaveOutcome}

theorem AccountedBy.of {log : List Entry}
    (htrail : row'.trail.entries = CappedLog.pushAll M.historyMaxEntries row.trail.entries log)
    (hvalues : ∀ name ∈ M.historyFields,
      PyEqual (lastRecorded log name (M.stored row name)) (M.stored row' name)) :
    M.AccountedBy log row row' where
  trail := htrail
  whole hcap hlen := by rw [htrail, CappedLog.pushAll_of_length_le hcap hlen]
  values := hvalues
  recorded name hname := by
    rcases lastRecorded_eq log name (M.stored row name) with h | ⟨entry, hentry, change, hmem, hrest⟩
    · exact .inl (h ▸ hvalues name hname)
    · exact .inr ⟨entry, hentry, change, hmem, hrest.1, hrest.2 ▸ hvalues name hname⟩

theorem Accounted.refl (row : Row) : M.Accounted row row := ⟨[], .of rfl fun _ _ => .refl⟩

theorem Accounted.trans (h : M.Accounted row row') (h' : M.Accounted row' row'') :
    M.Accounted row row'' := by
  obtain ⟨log, h⟩ := h
  obtain ⟨log', h'⟩ := h'
  refine ⟨log ++ log', .of ?_ fun name hname => ?_⟩
  · rw [CappedLog.pushAll_append, ← h.trail, h'.trail]
  · rw [lastRecorded_append]
    exact ((h.values name hname).lastRecorded log' name).trans (h'.values name hname)

/-- A client whose trail and snapshot are the row's is up to date, whatever it
assigned. -/
theorem InStep.upToDate (h : M.InStep row inst) (hdeferred : inst.deferred = [])
    (hnamed : M.NamedByField) : M.UpToDate row updateFields inst where
  trail _ := by
    have htrail := h.trail
    simp only [trailSeen, hdeferred, List.not_mem_nil, if_false] at htrail
    rw [htrail]
  values name hname hstores hne :=
    ⟨M.selects_of_stores hnamed hname hstores, _, h.seen name hname, hne⟩

/-! ### One save -/

/-- An entry either names a tracked field, with its current value as the new
one, or leaves its recorded value alone. -/
theorem recorded_of_entryFor {entry : Entry} (hadding : inst.adding = false)
    (hentry : M.entryFor env updateFields inst = some entry) (name : String) (value : JsonValue) :
    (M.selects updateFields name = true ∧ entry.recorded name value = M.current inst name) ∨
      (entry.recorded name value = value ∧ ∀ change ∈ entry.changes, change.field ≠ name) := by
  unfold Entry.recorded
  cases hfind : entry.changes.find? (·.field == name) with
  | none => exact .inr ⟨rfl, by simpa using List.find?_eq_none.mp hfind⟩
  | some change =>
      have hfield : change.field = name := by simpa using List.find?_some hfind
      obtain ⟨name', -, old, -, -, hsel, rfl⟩ :=
        ((M.changes_of_entryFor hadding hentry).1 change).mp (List.mem_of_find?_eq_some hfind)
      obtain rfl : name' = name := hfield
      exact .inl ⟨hsel, rfl⟩

/-- What a save that is up to date adds accounts for what it moves. -/
theorem AccountedBy.of_saved (hsaved : M.Saved env row updateFields inst out)
    (hadding : inst.adding = false) (hdeferred : inst.deferred = [])
    (hcurrent : M.UpToDate row updateFields inst) : M.AccountedBy out.entry.toList row out.row := by
  have hfields := Instance.writtenFields_of_existing hadding updateFields
  have htrail : trailSeen row inst = inst.trail := by simp [trailSeen, hdeferred]
  have hstored : ∀ name ∈ M.historyFields, M.stored out.row name =
      if M.stores updateFields (M.historyAttname name) then M.current inst name
      else M.stored row name := fun name hname => by
    rw [stored, hsaved.cells _ (M.mem_trackedAttnames hname), hfields]
    split <;> rfl
  have hselects : ∀ name ∈ M.historyFields, M.selects updateFields name = true →
      M.stores updateFields (M.historyAttname name) = true :=
    fun name hname => M.stores_of_selects hname hsaved.valid
  have hrow := hsaved.rowTrail
  rw [hsaved.entry, hfields] at hrow
  rw [hsaved.entry]
  cases hentry : M.entryFor env updateFields inst with
  | none =>
      refine .of ?_ fun name hname => ?_
      · rw [hrow, hentry, trailAfter, htrail]
        split
        · rename_i hstores
          exact hcurrent.trail (.inr (by simpa using hstores))
        · rfl
      · rw [hstored name hname]
        split
        · rename_i hstores
          refine .single (Bool.eq_false_iff.mpr fun hne => ?_)
          obtain ⟨hsel, old, hold, hmoved⟩ := hcurrent.values name hname hstores hne
          have hnone := (M.entryFor_eq_none_iff hadding).mp hentry name hname old hold hmoved
          rw [hsel] at hnone
          exact Bool.false_ne_true hnone.symm
        · exact .refl
  | some entry =>
      have hrecords := (M.isSome_entryFor_iff hadding).mp (by rw [hentry]; rfl)
      refine .of ?_ fun name hname => ?_
      · rw [hrow, hentry, Option.isSome_some, Bool.true_or, if_pos rfl, trailAfter, htrail,
          hcurrent.trail (.inl hrecords)]
        rfl
      · change PyEqual (entry.recorded name (M.stored row name)) _
        rw [hstored name hname]
        rcases recorded_of_entryFor hadding hentry name (M.stored row name) with
          ⟨hsel, hrec⟩ | ⟨hrec, hnot⟩
        · rw [if_pos (hselects name hname hsel), hrec]
          exact .refl
        · rw [hrec]
          split
          · rename_i hstores
            refine .single (Bool.eq_false_iff.mpr fun hne => ?_)
            obtain ⟨hsel, old, hold, hmoved⟩ := hcurrent.values name hname hstores hne
            have hmem := ((M.changes_of_entryFor hadding hentry).1 _).mpr
              ⟨name, hname, old, hold, hmoved, hsel, rfl⟩
            exact hnot _ hmem rfl
          · exact .refl

theorem Accounted.of_saved (hsaved : M.Saved env row updateFields inst out)
    (hadding : inst.adding = false) (hdeferred : inst.deferred = [])
    (hcurrent : M.UpToDate row updateFields inst) : M.Accounted row out.row :=
  ⟨_, .of_saved hsaved hadding hdeferred hcurrent⟩

/-! ### Runs -/

structure Store where
  row : Row
  clients : ℕ → Option Instance

inductive ClientStep
  | load (client : ℕ)
  | assign (client : ℕ) (name : String) (value : FieldValue)
  | save (client : ℕ) (env : Env) (updateFields : Option (List String))

def Store.setClient (s : Store) (client : ℕ) (inst : Instance) : Store :=
  { s with clients := fun i => if i = client then some inst else s.clients i }

/-- Loads of the whole row, assignments to tracked fields and successful saves
by any number of clients, in any order. -/
def writers (M : HistoryModel) (defaults : String → FieldValue) : System Store ClientStep where
  init s := ∀ client, s.clients client = none
  step s label t :=
    match label with
    | .load client => t = s.setClient client (M.fromDb s.row defaults M.columns)
    | .assign client name value => name ∈ M.historyFields ∧ ∃ inst,
        s.clients client = some inst ∧ t = s.setClient client (M.assign inst name value)
    | .save client env updateFields => ∃ inst, s.clients client = some inst ∧
        ∃ out, out = M.save env s.row updateFields none inst ∧ out.raised = none ∧
          t = { s.setClient client out.inst with row := out.row }

variable {defaults : String → FieldValue} {guard : Store → ClientStep → Prop} {s : Store}

theorem reachable_load (client : ℕ) (hs : ((writers M defaults).restrict guard).Reachable s)
    (hguard : guard s (.load client)) :
    ((writers M defaults).restrict guard).Reachable
      (s.setClient client (M.fromDb s.row defaults M.columns)) :=
  hs.next ⟨hguard, rfl⟩

theorem reachable_clientAssign (client : ℕ) (name : String) (value : FieldValue)
    (hs : ((writers M defaults).restrict guard).Reachable s)
    (hguard : guard s (.assign client name value)) (hname : name ∈ M.historyFields)
    (hinst : s.clients client = some inst) :
    ((writers M defaults).restrict guard).Reachable
      (s.setClient client (M.assign inst name value)) :=
  hs.next ⟨hguard, hname, inst, hinst, rfl⟩

/-- The condition on a step: a save is up to date with the row. -/
def upToDateStep (M : HistoryModel) (s : Store) : ClientStep → Prop
  | .save client _ updateFields =>
      ∀ inst, s.clients client = some inst → M.UpToDate s.row updateFields inst
  | _ => True

def WhollyLoaded (s : Store) : Prop :=
  ∀ client inst, s.clients client = some inst → inst.deferred = [] ∧ inst.adding = false

theorem WhollyLoaded.setClient {s : Store} (h : WhollyLoaded s) {client : ℕ}
    (hinst : inst.deferred = [] ∧ inst.adding = false) : WhollyLoaded (s.setClient client inst) := by
  intro i inst' hi
  simp only [Store.setClient] at hi
  split at hi
  · obtain rfl := Option.some.inj hi
    exact hinst
  · exact h i inst' hi

theorem saved_of_whollyLoaded (hdeferred : inst.deferred = []) (hadding : inst.adding = false)
    (hok : (M.save env row updateFields none inst).raised = none) :
    M.Saved env row updateFields inst (M.save env row updateFields none inst) :=
  save_ok (M.trackedLoaded_of_deferred_nil hdeferred) (by simp [hadding]) hok

theorem inductive_whollyLoaded (defaults : String → FieldValue)
    (guard : Store → ClientStep → Prop) :
    ((writers M defaults).restrict guard).Inductive WhollyLoaded where
  init s h client inst hinst := by simp [h client] at hinst
  step s label t hs hstep := by
    obtain ⟨-, hstep⟩ := hstep
    cases label with
    | load client =>
        subst hstep
        have hloaded := M.loaded_fromDb s.row defaults fun a ha => ha
        refine hs.setClient ⟨List.eq_nil_iff_forall_not_mem.mpr fun a ha => ?_, hloaded.adding⟩
        exact (hloaded.mem_deferred.mp ha).2 (hloaded.mem_deferred.mp ha).1
    | assign client name value =>
        obtain ⟨-, inst, hinst, rfl⟩ := hstep
        obtain ⟨hdeferred, hadding⟩ := hs client inst hinst
        exact hs.setClient ⟨by simp [assign, hdeferred], hadding⟩
    | save client env updateFields =>
        obtain ⟨inst, hinst, out, rfl, hok, rfl⟩ := hstep
        obtain ⟨hdeferred, hadding⟩ := hs client inst hinst
        have hsaved := saved_of_whollyLoaded hdeferred hadding hok
        refine hs.setClient ⟨List.eq_nil_iff_forall_not_mem.mpr fun a ha => ?_, hsaved.adding⟩
        have hgone := hsaved.deferred a ha
        simp [hdeferred] at hgone

theorem Accounted.of_step {defaults : String → FieldValue} {s t : Store} {label : ClientStep}
    (hs : WhollyLoaded s)
    (hstep : ((writers M defaults).restrict M.upToDateStep).step s label t) :
    M.Accounted s.row t.row := by
  obtain ⟨hguard, hstep⟩ := hstep
  cases label with
  | load client =>
      subst hstep
      exact .refl s.row
  | assign client name value =>
      obtain ⟨-, inst, -, rfl⟩ := hstep
      exact .refl s.row
  | save client env updateFields =>
      obtain ⟨inst, hinst, out, rfl, hok, rfl⟩ := hstep
      obtain ⟨hdeferred, hadding⟩ := hs client inst hinst
      exact .of_saved (saved_of_whollyLoaded hdeferred hadding hok) hadding hdeferred
        (hguard inst hinst)

/-- In every run whose saves are up to date, the trail accounts for the row
between any two states of the run. -/
theorem accounted_of_upToDate (defaults : String → FieldValue) {s t : Store}
    (hs : ((writers M defaults).restrict M.upToDateStep).Reachable s)
    (hrun : ((writers M defaults).restrict M.upToDateStep).Steps s t) :
    M.Accounted s.row t.row :=
  (inductive_whollyLoaded defaults M.upToDateStep).relates (R := fun s t => M.Accounted s.row t.row)
    (fun s => .refl s.row) (fun _ _ _ => .trans) (fun _ _ _ => .of_step)
    ((inductive_whollyLoaded defaults M.upToDateStep).reachable hs) hrun

/-! ### A run that loses an entry -/

def loadedWidget : Instance :=
  historyWidget.fromDb widgetRow (fun _ => .none) historyWidget.columns

/-- Two clients have loaded the widget; one edits its label, the other its
status. -/
def sharedWidget : Store :=
  (((Store.setClient ⟨widgetRow, fun _ => none⟩ 0 loadedWidget).setClient 1 loadedWidget).setClient
    0 (historyWidget.assign loadedWidget "label" (.str "after"))).setClient
      1 (historyWidget.assign loadedWidget "status" (.int 2))

def Store.savedBy (s : Store) (client : ℕ) (stamp : String) (names : List String) : Store :=
  let out := historyWidget.save ⟨stamp, {}⟩ s.row (some names) none
    ((s.clients client).getD loadedWidget)
  { s.setClient client out.inst with row := out.row }

theorem sharedWidget_reachable :
    ((writers historyWidget fun _ => .none).restrict historyWidget.upToDateStep).Reachable
      sharedWidget := by
  have hinit : ((writers historyWidget fun _ => .none).restrict
      historyWidget.upToDateStep).Reachable ⟨widgetRow, fun _ => none⟩ := .of_init fun _ => rfl
  have hloaded := reachable_load 1 (reachable_load 0 hinit trivial) trivial
  have hlabel := reachable_clientAssign 0 "label" (.str "after") hloaded trivial (by decide) rfl
  exact reachable_clientAssign 1 "status" (.int 2) hlabel trivial (by decide) rfl

theorem savedBy_step {client : ℕ} {inst : Instance} (s : Store) (stamp : String)
    (names : List String) (hinst : s.clients client = some inst)
    (hok : (historyWidget.save ⟨stamp, {}⟩ s.row (some names) none inst).raised = none) :
    (writers historyWidget fun _ => .none).step s (.save client ⟨stamp, {}⟩ (some names))
      (s.savedBy client stamp names) :=
  ⟨inst, hinst, _, rfl, hok, by simp [Store.savedBy, hinst]⟩

/-- The second client writes back the trail it loaded, and the first client's
entry is gone. -/
theorem first_entry_overwritten :
    (writers historyWidget fun _ => .none).Reachable (sharedWidget.savedBy 0 "noon" ["label"]) ∧
      (writers historyWidget fun _ => .none).Steps (sharedWidget.savedBy 0 "noon" ["label"])
        ((sharedWidget.savedBy 0 "noon" ["label"]).savedBy 1 "one" ["status"]) ∧
      ¬ historyWidget.Accounted (sharedWidget.savedBy 0 "noon" ["label"]).row
        ((sharedWidget.savedBy 0 "noon" ["label"]).savedBy 1 "one" ["status"]).row := by
  refine ⟨?_, ?_, ?_⟩
  · exact sharedWidget_reachable.of_restrict.next (savedBy_step _ _ _ rfl rfl)
  · exact .single ⟨_, savedBy_step _ _ _ rfl rfl⟩
  · rintro ⟨log, h⟩
    have hfirst : (sharedWidget.savedBy 0 "noon" ["label"]).row.trail.entries.map Entry.stamp =
        ["noon"] := by decide +kernel
    have hsecond : ((sharedWidget.savedBy 0 "noon" ["label"]).savedBy 1 "one"
        ["status"]).row.trail.entries.map Entry.stamp = ["one"] := by decide +kernel
    have hfirstLen := congrArg List.length hfirst
    have hsecondLen := congrArg List.length hsecond
    simp only [List.length_map, List.length_singleton] at hfirstLen hsecondLen
    have hcap : historyWidget.historyMaxEntries = 50 := rfl
    have hlen := CappedLog.length_pushAll
      (sharedWidget.savedBy 0 "noon" ["label"]).row.trail.entries log
      (show 0 < historyWidget.historyMaxEntries by decide) (by omega)
    rw [← h.trail] at hlen
    have hnil : log = [] := List.length_eq_zero_iff.mp (by omega)
    have hsame := h.whole (by decide) (by simp [hnil]; omega)
    rw [hsame, hnil, List.append_nil, hfirst] at hsecond
    exact absurd hsecond (by decide)

/-- The first of the two saves is up to date and accounted for. -/
theorem accounted_first_save :
    historyWidget.Accounted sharedWidget.row (sharedWidget.savedBy 0 "noon" ["label"]).row := by
  refine accounted_of_upToDate (fun _ => .none) sharedWidget_reachable
    (.single ⟨.save 0 ⟨"noon", {}⟩ (some ["label"]), ?_, savedBy_step _ _ _ rfl rfl⟩)
  intro inst hinst
  obtain rfl := Option.some.inj (show some _ = some inst from hinst)
  have hloaded : historyWidget.InStep widgetRow loadedWidget :=
    .of_loaded (s := ⟨widgetRow, loadedWidget⟩) ⟨_, _, fun _ ha => ha, by decide, rfl⟩
  exact (hloaded.assign (by decide)).upToDate (by decide +kernel) (by decide)

end HistoryModel

end NetixBackend.ChangeHistory
