import NetixBackend.Effects.Transaction
import NetixBackend.Views.Identity

/-!
The table a view writes, and the model and serializer code it writes through.

The code of a serializer's `create` and `update`, of a model's `save` and
`soft_delete`, is the adopter's or Django's. Whatever it is, what it does to
the table is a sequence of row writes after which it may raise, both chosen
by looking at the table: an `Effect`. Nothing more is said of it here; a
result that needs more names it as a hypothesis.

The table keeps, beside its rows, the log of the rows that were written. What
a request wrote is the part of the log it added (`Confines`).
-/

namespace NetixBackend.Views

open Python Effects

/-- An attribute of a row: a plain value, or a related model instance. -/
inductive Value
  | plain (value : JsonValue)
  | related (pk : ℤ) (text : String)

/-- The attributes of a row by name, `validated_data` among them. -/
abbrev Row := Dict String Value

def Value.isNone : Value → Bool
  | .plain .null => true
  | _ => false

/-- `str(value) == str(n)`. -/
def Value.sameTextAsInt (n : ℤ) : Value → Bool
  | .plain value => value.sameTextAsInt n
  | .related _ text => text = toString n

structure Instance where
  pk : ℕ
  row : Row

inductive Write
  | insert (row : Row)
  | update (pk : ℕ) (row : Row)

def Write.row : Write → Row
  | .insert row | .update _ row => row

structure Database where
  rows : List (ℕ × Row) := []
  /-- The rows written, oldest first. -/
  written : List Row := []

def Database.nextPk (db : Database) : ℕ :=
  db.rows.foldr (fun entry least => max (entry.1 + 1) least) 0

def Database.apply (db : Database) : Write → Database
  | .insert row =>
      { rows := db.rows ++ [(db.nextPk, row)], written := db.written ++ [row] }
  | .update pk row =>
      { rows := db.rows.map fun entry => if entry.1 = pk then (pk, row) else entry
        written := db.written ++ [row] }

/-- What a piece of foreign code does to the table: it writes, then returns or
raises. -/
structure Effect where
  writes : List Write := []
  raised : Option Raised := none

/-- Run foreign code; every write commits as it is made. -/
def perform (code : Database → Effect) : Tx Raised Database Unit := fun db =>
  (match (code db).raised with
    | some error => .error error
    | none => .ok (),
  (code db).writes.foldl Database.apply db)

structure Model where
  /-- The names `_meta.get_field` resolves; `none` for a class with no `_meta`. -/
  fields : Option (List String) := none
  /-- `validate_soft_delete`, when the model has one. -/
  validateSoftDelete : Option (Instance → Database → Effect) := none
  /-- `soft_delete`, when the model has one. -/
  softDelete : Option (Instance → Database → Effect) := none
  /-- `save(update_fields=...)` of an instance. -/
  save : Instance → List String → Database → Effect := fun target _ _ =>
    { writes := [.update target.pk target.row] }

/-- `field_name.split("__", 1)[0]`. -/
def firstSegment : List Char → List Char
  | '_' :: '_' :: _ => []
  | c :: rest => c :: firstSegment rest
  | [] => []

/-- `_probe_model_field`: an `organization_id` column may be spelled
`organization` when it is a foreign key. -/
def modelHasField (model : Model) (fieldName : String) : Bool :=
  match model.fields with
  | none => false
  | some fields =>
      let name := firstSegment fieldName.toList
      String.ofList name ∈ fields ∨
        ("_id".toList <:+ name ∧ String.ofList (name.take (name.length - 3)) ∈ fields)

structure SerializerClass where
  /-- `Meta.model`, or the class's own `model`. -/
  model : Option Model := none
  /-- The validated attributes of one object of the body, given `partial`, the
  instance and the table; or the error of `is_valid(raise_exception=True)`. -/
  validate : Bool → Option Instance → JsonValue → Database → Except Raised Row
  /-- `create(validated_data)`. -/
  create : Row → Database → Effect
  /-- `update(instance, validated_data)`. -/
  update : Instance → Row → Database → Effect
  /-- Whether `serializer.data` can be rendered after the save. -/
  represent : Database → Except Raised Unit := fun _ => .ok ()

/-- A serializer that `is_valid` has passed. The instance is that of an
update; a list body has none. -/
structure Serializer where
  cls : SerializerClass
  target : Option Instance
  validatedData : List Row

/-- The serializer's `save(**kwargs)`: the keyword arguments overlay every
validated row, and each row is created, or updates the instance. -/
def Serializer.save (serializer : Serializer) (kwargs : Row) : Tx Raised Database Unit :=
  Tx.each serializer.validatedData fun attrs =>
    match serializer.target with
    | some target => perform (serializer.cls.update target (attrs.update kwargs))
    | none => perform (serializer.cls.create (attrs.update kwargs))

/-! ### Rows written -/

/-- Between the two tables only rows satisfying `P` were written. -/
def Confines (P : Row → Prop) (db db' : Database) : Prop :=
  ∃ new, db'.written = db.written ++ new ∧ ∀ row ∈ new, P row

instance (P : Row → Prop) : Std.Refl (Confines P) where
  refl _ := ⟨[], (List.append_nil _).symm, List.forall_mem_nil _⟩

instance (P : Row → Prop) : IsTrans Database (Confines P) where
  trans db db' db'' := by
    rintro ⟨new, hnew, hP⟩ ⟨new', hnew', hP'⟩
    refine ⟨new ++ new', ?_, List.forall_mem_append.mpr ⟨hP, hP'⟩⟩
    rw [hnew', hnew, List.append_assoc]

variable {P : Row → Prop}

theorem confines_apply (db : Database) {w : Write} (h : P w.row) : Confines P db (db.apply w) := by
  cases w with
  | insert row => exact ⟨[row], rfl, List.forall_mem_singleton.mpr h⟩
  | update pk row => exact ⟨[row], rfl, List.forall_mem_singleton.mpr h⟩

/-- The run lemma: a sequence of writes is confined when each of them is. -/
theorem confines_foldl {writes : List Write} (db : Database) (h : ∀ w ∈ writes, P w.row) :
    Confines P db (writes.foldl Database.apply db) := by
  induction writes generalizing db with
  | nil => exact Std.Refl.refl db
  | cons w rest ih =>
      rw [List.forall_mem_cons] at h
      exact IsTrans.trans _ _ _ (confines_apply db h.1) (ih _ h.2)

theorem within_perform {code : Database → Effect} (h : ∀ db, ∀ w ∈ (code db).writes, P w.row) :
    Tx.Within (Confines P) (perform code) := fun db => confines_foldl db (h db)

end NetixBackend.Views
