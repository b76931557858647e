import NetixBackend.Views.Handlers

/-!
Which write requests are undone when they raise.

`AtomicWriteMixin.dispatch` puts the handler it resolves inside a
transaction, unless the handler is a coroutine function. What is said there of
coroutines, that they are wrapped elsewhere, is true of one of them:
`adestroy` runs its soft delete in a transaction of its own. `acreate`,
`aupdate` and `apartial_update` reach the serializer with none, so a row
written before the exception stays. `rollsBack_iff` is the whole table.
-/

namespace NetixBackend.Views

open Python Effects

/-- The name the router knows the handler by: the `action_map` entry. -/
def handlerName : HandlerKind → WriteAction → String
  | .sync, .create => "create"
  | .sync, .update => "update"
  | .sync, .partialUpdate => "partial_update"
  | .sync, .destroy => "destroy"
  | .coroutine, .create => "acreate"
  | .coroutine, .update => "aupdate"
  | .coroutine, .partialUpdate => "apartial_update"
  | .coroutine, .destroy => "adestroy"

/-- `AtomicWriteMixin.dispatch`: the resolved write handler runs inside a
transaction; `transaction.atomic` cannot wrap a coroutine. -/
def View.dispatch (self : View) (kind : HandlerKind) (action : WriteAction) :
    Tx Raised Database Response :=
  let handler := self.handler kind action
  if handlerName kind action ∈ self.atomicActions ∧ kind ≠ .coroutine then Tx.atomic handler
  else handler

def defaultAtomicActions : List String := ["create", "update", "partial_update", "destroy"]

/-- A request whose handler raises leaves the table as it was. -/
def RollsBack (view : View) (kind : HandlerKind) (action : WriteAction) : Prop :=
  ∀ db e, (view.dispatch kind action).outcome db = .error e →
    ((view.dispatch kind action).after db).rows = db.rows

variable {view : View}

theorem rollsBack_of_allOrNothing {kind : HandlerKind} {action : WriteAction}
    (h : (view.dispatch kind action).AllOrNothing) : RollsBack view kind action :=
  fun db e herror => congrArg Database.rows (h db e herror)

theorem handlerName_sync_mem (action : WriteAction) :
    handlerName .sync action ∈ defaultAtomicActions := by
  cases action <;> decide

theorem rollsBack_sync (h : view.atomicActions = defaultAtomicActions) (action : WriteAction) :
    RollsBack view .sync action := by
  refine rollsBack_of_allOrNothing ?_
  rw [View.dispatch, if_pos ⟨h ▸ handlerName_sync_mem action, by decide⟩]
  exact .atomic _

/-! ### The one coroutine with a transaction of its own -/

/-- Outside its transaction `adestroy` reads, answers, and turns a 404 into a
response: none of it writes. -/
theorem allOrNothing_adestroy (view : View) : view.adestroy.AllOrNothing := by
  have hbody : (do
      let target ← Tx.read (view.getObject view.request)
      Tx.atomic (view.softDeleteInstance target)
      return 204 : Tx Raised Database Response).AllOrNothing := by
    refine .bind_of_after (fun _ => rfl) fun target => ?_
    exact .bind_of_ok (.atomic _) fun _ _ _ h => nomatch h
  refine .catching hbody fun e db => ?_
  unfold View.onHttp404
  split
  · split <;> rfl
  · rfl

theorem rollsBack_adestroy (view : View) : RollsBack view .coroutine .destroy := by
  refine rollsBack_of_allOrNothing ?_
  rw [View.dispatch, if_neg (fun h => h.2 rfl)]
  exact allOrNothing_adestroy view

/-! ### The coroutines with none -/

/-- A serializer that writes the row of the body and then raises, as one does
whose nested write or whose row hook fails. -/
def failingSerializer : SerializerClass where
  validate _ _ data _ :=
    match data with
    | .obj entries => .ok (Dict.ofPairs (entries.map fun entry => (entry.1, .plain entry.2)))
    | _ => .error (.validationError .null)
  create attrs _ := { writes := [.insert attrs], raised := some (.other "IntegrityError") }
  update target attrs _ :=
    { writes := [.update target.pk (target.row.update attrs)]
      raised := some (.other "IntegrityError") }

/-- A view on it, with the defaults of the base; the row of an update has no
attribute yet. -/
def failingView : View where
  serializerClass := failingSerializer
  model := {}
  getObject _ _ := .ok ⟨0, Dict.empty⟩
  action := "acreate"
  request := { data := .obj [("label", .str "half done")] }

def oneRow : Database := { rows := [(0, Dict.empty)] }

/-- The number of attributes stored: what the failing runs change. -/
def Database.size (db : Database) : ℕ := (db.rows.map fun entry => entry.2.items.length).sum

theorem not_rollsBack_failingView {action : WriteAction} (h : action ≠ .destroy) :
    ¬ RollsBack failingView .coroutine action := by
  intro hrolls
  have hsize : ∀ e, (failingView.dispatch .coroutine action).outcome oneRow = .error e →
      Database.size ((failingView.dispatch .coroutine action).after oneRow) = oneRow.size :=
    fun e he => congrArg (fun rows => (rows.map fun entry => entry.2.items.length).sum)
      (hrolls oneRow e he)
  cases action with
  | create => exact absurd (hsize (.other "IntegrityError") rfl) (by decide)
  | update => exact absurd (hsize (.other "IntegrityError") rfl) (by decide)
  | partialUpdate => exact absurd (hsize (.other "IntegrityError") rfl) (by decide)
  | destroy => exact h rfl

/-- With the default `atomic_actions`, every run of a handler that raises is
undone exactly when the handler is sync, or is `adestroy`. -/
theorem rollsBack_iff (kind : HandlerKind) (action : WriteAction) :
    (∀ view : View, view.atomicActions = defaultAtomicActions → RollsBack view kind action) ↔
      kind = .sync ∨ action = .destroy := by
  constructor
  · intro hall
    by_contra hneither
    obtain ⟨hkind, haction⟩ := not_or.mp hneither
    cases kind with
    | sync => exact hkind rfl
    | coroutine => exact not_rollsBack_failingView haction (hall failingView rfl)
  · rintro (rfl | rfl) view hdefault
    · exact rollsBack_sync hdefault action
    · cases kind with
      | sync => exact rollsBack_sync hdefault .destroy
      | coroutine => exact rollsBack_adestroy view

/-- `acreate` of the failing view raises and leaves a row behind. -/
theorem acreate_leaves_row :
    failingView.atomicActions = defaultAtomicActions ∧
      (failingView.dispatch .coroutine .create).outcome {} = .error (.other "IntegrityError") ∧
      ((failingView.dispatch .coroutine .create).after {}).rows.length = 1 :=
  ⟨rfl, rfl, by decide⟩

end NetixBackend.Views
