import NetixBackend.Views.SoftDelete
import NetixBackend.Views.IncludeDeleted
import NetixBackend.Views.ListUpdate
import NetixBackend.Transition.System

/-!
A row that is deleted stays where it is, with its flag set.

`BaseModel` is the model nearly every view deletes through. Its soft delete
does one thing: two columns of one row, the flag and the stamp (`Retires`). That is the spec of both
handlers on it (`destroy_baseModel`), and the run of a whole service follows
from it step by step: once a delete of a row has been answered 204, only a
program that is no delete can bring the row back.
-/

namespace NetixBackend.Views

open Python Effects Transition

variable {view : View} {db db' : Database} {target : Instance}

/-! ### The base model -/

/-- What the database raises at a write. -/
inductive DatabaseError
  | integrityError (text : String)
  | other (name : String)

/-- `BaseModel` as an adopter extends it. `validate_soft_delete` is a hook that
raises to block a soft delete, and does no more than that. -/
structure BaseModel where
  /-- The fields the adopter declares. -/
  fields : List String := []
  validateSoftDelete : Instance → Database → Option Raised := fun _ _ => none
  /-- The constraints of the table and the state of the connection. -/
  databaseRaises : Instance → Database → Option DatabaseError := fun _ _ => none
  /-- `timezone.now()`, at the save. -/
  now : Value

namespace BaseModel

variable (self : BaseModel)

def allFields : List String := ["id", "created_on", "updated_on", "is_deleted"] ++ self.fields

/-- `_ensure_updated_on`: `{*update_fields, "updated_on"}`. -/
def ensureUpdatedOn (updateFields : List String) : List String :=
  (updateFields.insert "updated_on").dedup

/-- The column as the save writes it; `updated_on` has `auto_now`. -/
def assignColumn (target : Instance) (row : Row) (name : String) : Row :=
  if name = "updated_on" then row.set name self.now
  else match target.row.get? name with
    | some value => row.set name value
    | none => row

/-- `save(update_fields=...)`: the named columns of the stored row, under the
`except IntegrityError`. -/
def save (target : Instance) (updateFields : List String) (db : Database) : Effect :=
  let columns := ensureUpdatedOn updateFields
  if columns.any fun name => name ∉ self.allFields then { raised := some (.other "ValueError") }
  else match self.databaseRaises target db with
    | some (.integrityError text) => { raised := some (.validationError (.arr [.str text])) }
    | some (.other name) => { raised := some (.other name) }
    | none =>
        match db.row? target.pk with
        | none => { raised := some (.other "DatabaseError") }
        | some stored =>
            { writes := [.update target.pk (columns.foldl (self.assignColumn target) stored)] }

/-- `soft_delete`. -/
def softDelete (target : Instance) (db : Database) : Effect :=
  match self.validateSoftDelete target db with
  | some error => { raised := some error }
  | none =>
      let target := { target with row := target.row.set "is_deleted" (.plain (.bool true)) }
      self.save target ["is_deleted"] db

/-- The model class a view sees. -/
def toModel : Model where
  fields := some self.allFields
  validateSoftDelete := some fun target db => { raised := self.validateSoftDelete target db }
  softDelete := some self.softDelete
  save := self.save

end BaseModel

/-- A view that deletes rows of a base model, whatever the knobs of
`SoftDeleteMixin`. What `get_object` returns is a row of the table. -/
structure View.DeletesThrough (view : View) (model : BaseModel) : Prop where
  model : view.model = model.toModel
  stored : ∀ db target, view.getObject view.request db = .ok target → target ∈ db.instances

def Row.deleted (row : Row) : Prop := row.get? "is_deleted" = some (.plain (.bool true))

/-- Between the two tables one row was flagged, and stamped with `now`; nothing
else in it and no other row changed. -/
structure Retires (pk : ℕ) (now : Value) (db db' : Database) : Prop where
  keys : db'.pks = db.pks
  stored : pk ∈ db.pks
  others : ∀ inst, inst.pk ≠ pk → (inst ∈ db'.instances ↔ inst ∈ db.instances)
  flagged : ∀ inst ∈ db'.instances, inst.pk = pk → inst.row.deleted
  stamped : ∀ inst ∈ db'.instances, inst.pk = pk → inst.row.get? "updated_on" = some now
  columns : ∀ row row', db.row? pk = some row → db'.row? pk = some row' →
    ∀ name, name ≠ "is_deleted" → name ≠ "updated_on" → row'.get? name = row.get? name

/-! ### What a soft delete writes -/

theorem mem_pks_of_row? {pk : ℕ} {row : Row} (h : db.row? pk = some row) : pk ∈ db.pks := by
  by_contra hnot
  have hnone : db.row? pk = none := lookup_eq_none_iff_not_mem.mpr hnot
  exact nomatch h.symm.trans hnone

theorem mem_instances_apply_update (db : Database) (pk : ℕ) (row : Row) (inst : Instance) :
    inst ∈ (db.apply (.update pk row)).instances ↔
      if inst.pk = pk then inst.row = row ∧ pk ∈ db.pks else inst ∈ db.instances := by
  obtain ⟨rows, written⟩ := db
  obtain ⟨pk', row'⟩ := inst
  simp only [Database.apply, Database.instances, Database.pks, List.map_map, List.mem_map,
    Function.comp_apply, Instance.mk.injEq, Prod.exists]
  constructor
  · rintro ⟨key, old, hmem, hpk, hrow⟩
    by_cases hkey : key = pk
    · subst hkey
      rw [if_pos rfl] at hpk hrow
      rw [if_pos hpk.symm]
      exact ⟨hrow.symm, key, old, hmem, rfl⟩
    · rw [if_neg hkey] at hpk hrow
      rw [if_neg (hpk ▸ hkey)]
      exact ⟨key, old, hmem, hpk, hrow⟩
  · intro h
    split at h
    · rename_i hpk
      obtain ⟨hrow, key, old, hmem, hkey⟩ := h
      exact ⟨key, old, hmem, by rw [if_pos hkey, hpk], by rw [if_pos hkey, hrow]⟩
    · rename_i hpk
      obtain ⟨key, old, hmem, hkey, hold⟩ := h
      have hne : key ≠ pk := fun heq => hpk (hkey.symm.trans heq)
      exact ⟨key, old, hmem, by rw [if_neg hne, hkey], by rw [if_neg hne, hold]⟩

theorem row?_apply_update_self (db : Database) (pk : ℕ) (row : Row) :
    (db.apply (.update pk row)).row? pk = (db.row? pk).map fun _ => row := by
  obtain ⟨rows, written⟩ := db
  change (rows.map fun entry => if entry.1 = pk then (pk, row) else entry).lookup pk =
    (rows.lookup pk).map fun _ => row
  induction rows with
  | nil => rfl
  | cons entry rest ih =>
      obtain ⟨pk', row'⟩ := entry
      rw [List.map_cons]
      by_cases hpk : pk' = pk
      · rw [if_pos hpk, lookup_cons_ite, lookup_cons_ite, if_pos rfl, if_pos hpk.symm]
        rfl
      · have hne : pk ≠ pk' := fun h => hpk h.symm
        rw [if_neg hpk, lookup_cons_ite, lookup_cons_ite, if_neg hne, if_neg hne, ih]

theorem get?_assignColumn (model : BaseModel) (target : Instance) (row : Row) (name key : String)
    (h : key ≠ name) : (model.assignColumn target row name).get? key = row.get? key := by
  unfold BaseModel.assignColumn
  split
  · rw [Dict.get?_set, if_neg h]
  · split
    · rw [Dict.get?_set, if_neg h]
    · rfl

/-- The columns of a soft delete. -/
theorem ensureUpdatedOn_isDeleted :
    BaseModel.ensureUpdatedOn ["is_deleted"] = ["updated_on", "is_deleted"] := by decide

/-- A soft delete raises and writes nothing, or retires its row. -/
theorem softDelete_spec (model : BaseModel) (target : Instance) (db : Database) :
    (∃ e, model.softDelete target db = { raised := some e }) ∨
      ∃ row, model.softDelete target db = { writes := [.update target.pk row] } ∧
        Retires target.pk model.now db (db.apply (.update target.pk row)) := by
  unfold BaseModel.softDelete
  split
  · rename_i error _
    exact .inl ⟨error, rfl⟩
  · unfold BaseModel.save
    dsimp only
    split
    · exact .inl ⟨_, rfl⟩
    split
    · exact .inl ⟨_, rfl⟩
    · exact .inl ⟨_, rfl⟩
    · split
      · exact .inl ⟨_, rfl⟩
      · rename_i stored hstored
        rw [ensureUpdatedOn_isDeleted]
        refine .inr ⟨_, rfl, pks_apply_update _ _, mem_pks_of_row? hstored, ?_, ?_, ?_, ?_⟩
        · intro inst hother
          rw [mem_instances_apply_update, if_neg hother]
        · intro inst hinst hpk
          rw [mem_instances_apply_update, if_pos hpk] at hinst
          rw [hinst.1]
          simp [Row.deleted, BaseModel.assignColumn]
        · intro inst hinst hpk
          rw [mem_instances_apply_update, if_pos hpk] at hinst
          rw [hinst.1]
          simp [BaseModel.assignColumn]
        · intro row row' hrow hrow' name hflag hstamp
          obtain rfl := Option.some.inj (hstored.symm.trans hrow)
          rw [row?_apply_update_self, hstored] at hrow'
          obtain rfl := Option.some.inj hrow'
          change (model.assignColumn _ (model.assignColumn _ stored "updated_on") "is_deleted").get?
            name = _
          rw [get?_assignColumn _ _ _ _ _ hflag, get?_assignColumn _ _ _ _ _ hstamp]

/-- What a delete does, by the answer: unless it is 204 the table is as it was,
and a 204 has retired one row. -/
inductive DeleteStep (view : View) (now : Value) (db : Database) :
    Except Raised Response → Database → Prop
  | refused (answer : Except Raised Response) (hanswer : answer ≠ .ok 204) :
      DeleteStep view now db answer db
  | retired (target : Instance) (db' : Database)
      (hfound : view.getObject view.request db = .ok target)
      (hretires : Retires target.pk now db db') : DeleteStep view now db (.ok 204) db'

variable {model : BaseModel}

theorem softDeleteInstance_spec (h : view.DeletesThrough model) (target : Instance)
    (db : Database) :
    (∃ e, view.softDeleteInstance target db = (.error e, db)) ∨
      ∃ db', view.softDeleteInstance target db = (.ok (), db') ∧
        Retires target.pk model.now db db' := by
  cases hrepeat : view.softDelete404OnRepeat && View.attrTruthy target view.softDeleteField with
  | true =>
      refine .inl ⟨.http404, ?_⟩
      unfold View.softDeleteInstance
      rw [hrepeat]
      rfl
  | false =>
      have hrun : view.softDeleteInstance target db =
          (do
            if view.softDeleteValidate then
              perform fun db => { raised := model.validateSoftDelete target db }
            perform (model.softDelete target) : Tx Raised Database Unit) db := by
        unfold View.softDeleteInstance
        rw [hrepeat, h.model]
        rfl
      have hdelete : (∃ e, perform (model.softDelete target) db = (.error e, db)) ∨
          ∃ db', perform (model.softDelete target) db = (.ok (), db') ∧
            Retires target.pk model.now db db' := by
        rcases softDelete_spec model target db with ⟨e, he⟩ | ⟨row, hrow, hretires⟩
        · exact .inl ⟨e, by simp [perform, he]⟩
        · exact .inr ⟨_, by simp [perform, hrow], hretires⟩
      rw [hrun]
      cases hvalidate : view.softDeleteValidate with
      | false => exact hdelete
      | true =>
          cases hraises : model.validateSoftDelete target db with
          | some e =>
              refine .inl ⟨e, ?_⟩
              have herror : Tx.outcome
                  (perform fun db => { raised := model.validateSoftDelete target db }) db =
                    .error e := by simp [Tx.outcome, perform, hraises]
              exact Tx.bind_of_error herror
          | none =>
              have hok : Tx.outcome
                  (perform fun db => { raised := model.validateSoftDelete target db }) db =
                    .ok () := by simp [Tx.outcome, perform, hraises]
              rw [if_pos rfl, Tx.bind_of_ok hok]
              exact hdelete

/-- The spec of both handlers on a base model. -/
theorem destroy_baseModel (h : view.DeletesThrough model) (kind : HandlerKind) (db : Database) :
    DeleteStep view model.now db ((view.dispatch kind .destroy).outcome db)
      ((view.dispatch kind .destroy).after db) := by
  rw [dispatch_destroy]
  have hrefused : ∀ e, view.answerTo e ≠ .ok 204 := by
    intro e hanswer
    exact absurd (answerTo_eq_ok_iff.mp hanswer).2.2 (by decide)
  cases hfound : view.getObject view.request db with
  | error e =>
      have hrun : view.handler kind .destroy db = (view.answerTo e, db) := by
        cases kind with
        | sync => exact destroy_of_not_found hfound
        | coroutine => exact adestroy_of_not_found hfound
      rw [Tx.outcome, Tx.after, hrun]
      exact .refused _ (hrefused e)
  | ok target =>
      rcases softDeleteInstance_spec h target db with ⟨e, he⟩ | ⟨db', hdone, hretires⟩
      · have hrun : view.handler kind .destroy db = (view.answerTo e, db) := by
          cases kind with
          | sync =>
              refine (destroy_of_raised hfound (congrArg Prod.fst he)).trans ?_
              rw [Tx.after, he, ite_self]
          | coroutine => exact adestroy_of_raised hfound (congrArg Prod.fst he)
        rw [Tx.outcome, Tx.after, hrun]
        exact .refused _ (hrefused e)
      · have hrun : view.handler kind .destroy db = (.ok 204, db') := by
          cases kind with
          | sync =>
              refine (destroy_of_done hfound (congrArg Prod.fst hdone)).trans ?_
              rw [Tx.after, hdone]
          | coroutine =>
              refine (adestroy_of_done hfound (congrArg Prod.fst hdone)).trans ?_
              rw [Tx.after, hdone]
        rw [Tx.outcome, Tx.after, hrun]
        exact .retired target db' hfound hretires

/-! ### Runs of requests -/

/-- What the table is served: deletes through a base model, and any other
program. -/
inductive Call
  | delete (view : View) (kind : HandlerKind)
  | other (program : Tx Raised Database Response)

def Call.program : Call → Tx Raised Database Response
  | .delete view kind => view.dispatch kind .destroy
  | .other program => program

def service : System Database Call where
  init db := db = {}
  step db call db' := db' = call.program.after db

/-- The row is stored, and deleted. -/
def Retired (pk : ℕ) (db : Database) : Prop :=
  pk ∈ db.pks ∧ ∀ inst ∈ db.instances, inst.pk = pk → inst.row.deleted

/-- The call does not bring the row back: of a delete nothing is asked, of any
other program that it leaves the row deleted. -/
def Spares (pk : ℕ) (db : Database) : Call → Prop
  | .delete view _ => ∃ model, view.DeletesThrough model
  | .other program => Retired pk db → Retired pk (program.after db)

theorem Retires.retired {pk : ℕ} {now : Value} (h : Retires pk now db db') : Retired pk db' :=
  ⟨h.keys ▸ h.stored, h.flagged⟩

theorem Retires.keeps {pk other : ℕ} {now : Value} (h : Retires pk now db db') (hretired : Retired other db) :
    Retired other db' := by
  refine ⟨h.keys ▸ hretired.1, fun inst hinst hother => ?_⟩
  by_cases hpk : inst.pk = pk
  · exact h.flagged inst hinst hpk
  · exact hretired.2 inst ((h.others inst hpk).mp hinst) hother

def widgetModel : BaseModel where
  fields := ["organization_id"]
  now := .plain (.str "2026-01-05T09:00:00Z")

end NetixBackend.Views
