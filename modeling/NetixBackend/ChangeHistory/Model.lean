import NetixBackend.ChangeHistory.JsonSafe

/-!
`ChangeHistoryModel`: the instance, the stored row, and what a load, a read,
an assignment and a save do to them.

Three copies of a tracked column move independently: the attribute in memory,
the snapshot the next diff is taken against, and the cell of the stored row.
The functions below follow the source method by method. What they need of
Django is stated here too: `modelSave` is `Model.save`, reading a deferred
attribute calls the instance's own `refresh_from_db(fields=[attname])`, and
`Row.write` stores the in-memory values of the named columns and no others.
Of the primary key only its name is modelled, and whether a new instance has
been given one. The columns that fill themselves on save are modelled by their
names: nothing here reads them, and a load holds all of them. One that is
deferred or read is to be given among the fields.

Attributes are addressed by their attname. A tracked name without a column (a
plain attribute) has a cell too: a full save counts as storing it, a partial
save cannot name it. The trail column is kept apart from the others because
the save itself writes it.
-/

namespace NetixBackend.ChangeHistory

open Python

def historyColumn : String := "change_history"

/-- What `_meta.get_field` returns: a reverse accessor has no attname, and
only a concrete field has a column, named by its attname. -/
structure Field where
  name : String
  attname : Option String
  concrete : Bool := true
  flatchoices : List (JsonValue × String) := []
  columnNamed : concrete = true → attname.isSome := by simp

/-- `_meta.get_field` finds a field under its name and under its attname. -/
def Field.spells (f : Field) (name : String) : Bool := f.name == name || f.attname == some name

def Field.clashes (f g : Field) : Bool := f.spells g.name || g.attname.any f.spells

/-- One field that moved within an entry. -/
structure Change where
  field : String
  old : JsonValue
  new : JsonValue
  oldDisplay : Option String := none
  newDisplay : Option String := none

inductive Action
  | created
  | updated
  | deleted
  | restored
  deriving DecidableEq, Repr

structure ChangeActor where
  userId : Option ℤ := none
  name : String := ""
  source : String := "system"
  reason : String := ""
  deriving DecidableEq, Repr

/-- One entry of the trail. Entries recorded before `reason` existed have no
such key. -/
structure Entry where
  stamp : String
  action : Action
  source : String
  byUser : Option ℤ
  byName : String
  reason : Option String
  changes : List Change

/-- The value of the trail column; `none` is JSON null. -/
abbrev Trail := Option (List Entry)

/-- `self.change_history or []`. -/
def Trail.entries (trail : Trail) : List Entry := trail.getD []

/-- A class mixing in `ChangeHistoryModel`, by its declarations. -/
structure HistoryModel where
  /-- Every field of the model but the primary key, the trail and the columns
  that fill themselves. -/
  fields : List Field
  /-- The columns that fill themselves on save (`auto_now`): `update_fields`
  may name them. -/
  autoColumns : List String := []
  historyFields : List String
  historyMaxEntries : ℤ := 50
  primaryKey : String := "id"
  /-- The primary key carries a default, so Django inserts a new instance
  without trying an UPDATE first. -/
  pkDefault : Bool := false
  /-- Django's field check: no two fields share a name or an attname. -/
  clashFree : fields.Pairwise fun f g => f.clashes g = false
  /-- The trail column is a field of its own, and the trail is not tracked. -/
  trailApart : (∀ f ∈ fields, f.spells historyColumn = false) ∧
    historyColumn ∉ historyFields
  /-- So are the columns that fill themselves. -/
  autoApart : ∀ name ∈ autoColumns, (∀ f ∈ fields, f.spells name = false) ∧
    name ∉ historyFields := by decide

structure Row where
  cells : String → FieldValue
  trail : Trail

/-- An instance in memory: its attributes, the attnames `__dict__` does not
hold, its copy of the trail, the snapshot, `_state.adding`, and whether a new
one has been given a primary key. -/
structure Instance where
  attrs : String → FieldValue
  deferred : List String := []
  trail : Trail := some []
  snapshot : Option (Dict String JsonValue) := none
  adding : Bool := false
  pkSet : Bool := false

/-- What an entry takes from outside the instance: `now()` and `get_actor()`. -/
structure Env where
  now : String
  actor : ChangeActor := {}

inductive PyError
  | integrityError (message : String)
  | validationError (message : String)
  | valueError
  | databaseError
  | other (name : String)
  deriving DecidableEq, Repr

/-- The columns of `cols` read from the row, as `Model.refresh_from_db` and the
loading of a deferred attribute do it. -/
def Instance.loadColumns (inst : Instance) (row : Row) (cols : String → Bool) : Instance :=
  { inst with
    attrs := fun attname => if cols attname then row.cells attname else inst.attrs attname
    deferred := inst.deferred.filter fun attname => !cols attname
    trail := if cols historyColumn then row.trail else inst.trail }

/-- The columns of `cols` stored with their in-memory values. -/
def Row.write (row : Row) (inst : Instance) (cols : String → Bool) : Row where
  cells := fun attname => if cols attname then inst.attrs attname else row.cells attname
  trail := if cols historyColumn then inst.trail else row.trail

namespace HistoryModel

variable (M : HistoryModel)

def getField (name : String) : Option Field := M.fields.find? (·.spells name)

/-- The attribute holding the raw value: `shift_id` for a `shift` foreign key,
the name itself where there is no field or the field has no attname. -/
def historyAttname (name : String) : String :=
  match M.getField name with
  | some f => f.attname.getD name
  | none => name

def trackedAttnames : List String := M.historyFields.map M.historyAttname

/-- The attribute of a name is assigned: `__dict__` holds it from now. -/
def assign (inst : Instance) (name : String) (value : FieldValue) : Instance :=
  { inst with
    attrs := fun attname =>
      if attname = M.historyAttname name then value else inst.attrs attname
    deferred := inst.deferred.filter fun attname => attname != M.historyAttname name }

/-- `_history_values`, given how an attribute is read. -/
def historyValues (read : Instance → String → Instance) (loaded : Option (List String))
    (inst : Instance) : Instance × Dict String JsonValue :=
  M.historyFields.foldl
    (fun acc name =>
      let attname := M.historyAttname name
      if loaded.any fun names => !names.contains name && !names.contains attname then acc
      else
        let inst := read acc.1 attname
        (inst, acc.2.set name (jsonSafe (inst.attrs attname))))
    (inst, Dict.empty)

/-- `refresh_from_db` restricted to `cols`: load them, then re-baseline. -/
def refreshFromDb (read : Instance → String → Instance) (row : Row) (cols : String → Bool)
    (inst : Instance) : Instance :=
  let (settled, values) := M.historyValues read none (inst.loadColumns row cols)
  { settled with snapshot := some values }

/-- Reading an attribute: a deferred one enters `refresh_from_db`, which reads
every tracked attribute in turn. Each load leaves one deferred attribute less,
so `depth` loads can be nested at most. -/
def getattr (row : Row) : ℕ → Instance → String → Instance
  | 0, inst, _ => inst
  | depth + 1, inst, attname =>
      if inst.deferred.contains attname then
        M.refreshFromDb (getattr row depth) row (· == attname) inst
      else inst

/-- Reading an attribute, at the depth that suffices. -/
def read (row : Row) (inst : Instance) (attname : String) : Instance :=
  M.getattr row inst.deferred.length inst attname

def columns : List String :=
  (M.fields.filter (·.concrete)).filterMap (·.attname) ++ [historyColumn]

/-- `Model.from_db`: the row's values under the loaded names, the rest
deferred. `defaults` are the class attributes, for names without a column. -/
def modelFromDb (row : Row) (defaults : String → FieldValue) (loaded : List String) :
    Instance where
  attrs := fun attname => if loaded.contains attname then row.cells attname else defaults attname
  deferred := M.columns.filter fun attname => !loaded.contains attname
  trail := if loaded.contains historyColumn then row.trail else none

/-- `from_db`: the baseline holds the loaded names. -/
def fromDb (row : Row) (defaults : String → FieldValue) (loaded : List String) : Instance :=
  let (inst, values) :=
    M.historyValues (M.read row) (some loaded) (M.modelFromDb row defaults loaded)
  { inst with snapshot := some values }

def historyDisplay (name : String) (value : JsonValue) : Option String :=
  match M.getField name with
  | none => none
  | some f => (f.flatchoices.find? fun choice => choice.1.pyEq value).map Prod.snd

def change (name : String) (old new : JsonValue) : Change where
  field := name
  old := old
  new := new
  oldDisplay := M.historyDisplay name old
  newDisplay := M.historyDisplay name new

def historyEntry (env : Env) (action : Action) (changes : List Change) : Entry where
  stamp := env.now
  action := action
  source := env.actor.source
  byUser := env.actor.userId
  byName := env.actor.name
  reason := some env.actor.reason
  changes := changes

def actionFor (changes : List Change) : Action :=
  match changes.find? (·.field == "is_deleted") with
  | some change => if change.new.truthy then .deleted else .restored
  | none => .updated

/-- Whether the save-time diff looks at a tracked name under `update_fields`. -/
def selects (updateFields : Option (List String)) (name : String) : Bool :=
  match updateFields with
  | none => true
  | some names => names.contains (M.historyAttname name) || names.contains name

/-- The changes between a snapshot and the current values. -/
def diff (updateFields : Option (List String)) (snapshot current : Dict String JsonValue) :
    List Change :=
  current.items.filterMap fun (name, value) =>
    match snapshot.get? name with
    | some old =>
        if old.pyNe value && M.selects updateFields name then some (M.change name old value)
        else none
    | none => none

/-- The entry a save appends, from the snapshot and the current values. -/
def entryOf (env : Env) (updateFields : Option (List String)) (adding : Bool)
    (snapshot : Option (Dict String JsonValue)) (current : Dict String JsonValue) :
    Option Entry :=
  if adding then
    let changes := (current.items.filter fun (_, value) => !isEmptyMarker value).map
      fun (name, value) => M.change name .null value
    some (historyEntry env .created changes)
  else
    match snapshot with
    -- an in-memory instance saved as an update has no earlier state
    | none => none
    | some snapshot =>
        let changes := M.diff updateFields snapshot current
        if changes.isEmpty then none else some (historyEntry env (actionFor changes) changes)

/-- `_build_history_entry`. The snapshot is fetched after the current values
have been read. -/
def buildHistoryEntry (env : Env) (row : Row) (updateFields : Option (List String))
    (inst : Instance) : Instance × Option Entry :=
  if M.historyFields.isEmpty then (inst, none)
  else
    let (inst, current) := M.historyValues (M.read row) none inst
    (inst, M.entryOf env updateFields inst.adding inst.snapshot current)

/-- The columns `update_fields` names, in either spelling. -/
def namedColumns (names : List String) : List String :=
  (M.fields.filter fun f => f.concrete && names.any f.spells).filterMap (·.attname) ++
    if names.contains historyColumn then [historyColumn] else []

/-- Django refuses an `update_fields` naming anything but a column. -/
def validNames (names : List String) : Bool :=
  names.all fun name =>
    name == historyColumn || M.autoColumns.contains name ||
      M.fields.any fun f => f.concrete && f.spells name

/-- The columns a save writes: the named ones, else every loaded one. -/
def writes (inst : Instance) (updateFields : Option (List String)) (attname : String) : Bool :=
  match updateFields with
  | none => !inst.deferred.contains attname
  | some names => (M.namedColumns names).contains attname

structure ModelSaved where
  inst : Instance
  row : Row
  raised : Option PyError

/-- `Model.save`. `verdict` is what the database answers to the statement. -/
def modelSave (row : Row) (updateFields : Option (List String)) (verdict : Option PyError)
    (inst : Instance) : ModelSaved :=
  -- an empty `update_fields` skips the save
  if updateFields = some [] then ⟨inst, row, none⟩
  else if updateFields.any fun names => !M.validNames names then
    ⟨inst, row, some .valueError⟩
  -- no UPDATE can be forced without a key, and one for a row that is not there
  -- yet affects no row
  else if updateFields.isSome && inst.adding && !M.pkDefault then
    ⟨inst, row, some (if inst.pkSet then .databaseError else .valueError)⟩
  else
    -- an INSERT stores every column
    let updateFields := if inst.adding then none else updateFields
    -- the values are read off the instance, a deferred one from the row
    let inst := (updateFields.elim [] M.namedColumns).foldl (M.read row) inst
    match verdict with
    | some error => ⟨inst, row, some error⟩
    | none =>
        ⟨{ inst with adding := false }, row.write inst (M.writes inst updateFields), none⟩

/-- `_sync_history_snapshot`: re-baseline what the save wrote. -/
def syncHistorySnapshot (row : Row) (updateFields : Option (List String)) (inst : Instance) :
    Instance :=
  let (inst, values) := M.historyValues (M.read row) none inst
  match updateFields with
  | none => { inst with snapshot := some values }
  | some names =>
      let written := values.filterKeys fun name =>
        names.contains name || names.contains (M.historyAttname name)
      { inst with snapshot := some ((inst.snapshot.getD Dict.empty).update written) }

/-- What a save leaves behind; `entry` is the entry it appended, if any. -/
structure SaveOutcome where
  inst : Instance
  row : Row
  raised : Option PyError
  entry : Option Entry

/-- `history.append(entry)`, then `history[-cap:]`. -/
def appendEntry (history : List Entry) (entry : Entry) : List Entry :=
  sliceFrom (-M.historyMaxEntries) (history ++ [entry])

/-- The first half of `save`: everything before `super().save`. -/
def prepareSave (env : Env) (row : Row) (updateFields : Option (List String))
    (inst : Instance) : Instance × Option (List String) × Option Entry :=
  let (inst, entry) := M.buildHistoryEntry env row updateFields inst
  match entry with
  | none => (inst, updateFields, none)
  | some entry =>
      let inst := M.read row inst historyColumn
      ({ inst with trail := some (M.appendEntry inst.trail.entries entry) },
        updateFields.map (· ++ [historyColumn]), some entry)

/-- `ChangeHistoryModel.save`. -/
def save (env : Env) (row : Row) (updateFields : Option (List String))
    (verdict : Option PyError) (inst : Instance) : SaveOutcome :=
  let (inst, superFields, entry) := M.prepareSave env row updateFields inst
  let wasAdding := inst.adding
  let saved := M.modelSave row superFields verdict inst
  match saved.raised with
  | some error => ⟨saved.inst, saved.row, some error, entry⟩
  | none =>
      ⟨M.syncHistorySnapshot saved.row (if wasAdding then none else updateFields) saved.inst,
        saved.row, none, entry⟩

end HistoryModel

/-! ### The model of the test suite -/

def historyWidget : HistoryModel where
  fields := [
    { name := "is_deleted", attname := some "is_deleted" },
    { name := "label", attname := some "label" },
    { name := "status", attname := some "status",
      flatchoices := [(.int 1, "PRESENT"), (.int 2, "ABSENT")] },
    { name := "owner", attname := some "owner_id" },
    { name := "payload", attname := some "payload" }]
  autoColumns := ["created_on", "updated_on"]
  historyFields := ["label", "status", "owner", "is_deleted"]
  clashFree := by decide
  trailApart := by decide

/-- The row of a widget whose creation left no trail behind. -/
def widgetRow : Row where
  cells
    | "label" => .str "before"
    | "status" => .int 1
    | "is_deleted" => .bool false
    | "payload" => .str ""
    | _ => .none
  trail := some []

end NetixBackend.ChangeHistory
