import NetixBackend.Views.Atomicity

/-!
The two soft-delete handlers.

`destroy` and `adestroy` are the same steps with the transaction in different
places: around the `try` in one, inside it in the other. An exception that
leaves the handler is undone by both. The 404 that becomes a response does not
leave it, so what a hook wrote before raising that 404 is kept by the first and
undone by the second; `destroy_agrees_iff` says that nothing else tells the
two apart. The lookup only reads, and is one for both.
-/

namespace NetixBackend.Views

open Python Effects

/-- The hooks of the soft delete wrote rows, then raised the 404 that the view
answers itself. -/
structure WritesThen404 (view : View) (db : Database) (target : Instance) : Prop where
  found : view.getObject view.request db = .ok target
  raised : (view.softDeleteInstance target).outcome db = .error .http404
  answered : view.consistentEnvelope = false
  wrote : (view.softDeleteInstance target).after db ≠ db

variable {view : View} {db db' : Database} {target : Instance}

/-- What the handlers make of an exception of the lookup or of the soft delete. -/
def View.answerTo (view : View) : Raised → Except Raised Response
  | .http404 => if view.consistentEnvelope then .error .http404 else .ok 404
  | error => .error error

theorem onHttp404_eq (view : View) (e : Raised) (db : Database) :
    view.onHttp404 e db = (view.answerTo e, db) := by
  cases e with
  | http404 =>
      change (if view.consistentEnvelope then Tx.raise Raised.http404 else pure 404) db =
        (if view.consistentEnvelope then .error .http404 else .ok 404, db)
      by_cases henvelope : view.consistentEnvelope = true
      · rw [if_pos henvelope, if_pos henvelope]
        rfl
      · rw [if_neg henvelope, if_neg henvelope]
        rfl
  | _ => rfl

theorem answerTo_eq_ok_iff {e : Raised} {response : Response} :
    view.answerTo e = .ok response ↔
      e = .http404 ∧ view.consistentEnvelope = false ∧ response = 404 := by
  cases e with
  | http404 => cases henvelope : view.consistentEnvelope <;> simp [View.answerTo, henvelope, eq_comm]
  | _ => simp [View.answerTo]

/-- The lookup reads only, so a run of either handler is a run of what follows
it. -/
theorem destroy_of_found (hfound : view.getObject view.request db = .ok target) :
    view.destroy db = Tx.atomic (Tx.catching (do
      view.softDeleteInstance target
      return 204) view.onHttp404) db := by
  have hread : Tx.outcome (Tx.read (view.getObject view.request)) db = .ok target := hfound
  simp only [View.destroy, Tx.atomic, Tx.catching]
  rw [Tx.bind_of_ok hread]
  rfl

theorem adestroy_of_found (hfound : view.getObject view.request db = .ok target) :
    view.adestroy db = Tx.catching (do
      Tx.atomic (view.softDeleteInstance target)
      return 204) view.onHttp404 db := by
  have hread : Tx.outcome (Tx.read (view.getObject view.request)) db = .ok target := hfound
  simp only [View.adestroy, Tx.catching]
  rw [Tx.bind_of_ok hread]
  rfl

theorem destroy_of_not_found {e : Raised} (hmissing : view.getObject view.request db = .error e) :
    view.destroy db = (view.answerTo e, db) := by
  have hread : Tx.outcome (Tx.read (view.getObject view.request)) db = .error e := hmissing
  simp only [View.destroy, Tx.atomic, Tx.catching]
  rw [Tx.bind_of_error hread]
  dsimp only
  rw [onHttp404_eq]
  cases view.answerTo e <;> rfl

theorem adestroy_of_not_found {e : Raised} (hmissing : view.getObject view.request db = .error e) :
    view.adestroy db = (view.answerTo e, db) := by
  have hread : Tx.outcome (Tx.read (view.getObject view.request)) db = .error e := hmissing
  simp only [View.adestroy, Tx.catching]
  rw [Tx.bind_of_error hread]
  exact onHttp404_eq view e _

theorem destroy_of_done (hfound : view.getObject view.request db = .ok target)
    (hdone : (view.softDeleteInstance target).outcome db = .ok ()) :
    view.destroy db = (.ok 204, (view.softDeleteInstance target).after db) := by
  rw [destroy_of_found hfound]
  simp only [Tx.atomic, Tx.catching]
  rw [Tx.bind_of_ok hdone]
  rfl

theorem adestroy_of_done (hfound : view.getObject view.request db = .ok target)
    (hdone : (view.softDeleteInstance target).outcome db = .ok ()) :
    view.adestroy db = (.ok 204, (view.softDeleteInstance target).after db) := by
  have hatomic := Tx.atomic_of_ok hdone
  rw [adestroy_of_found hfound]
  simp only [Tx.catching]
  rw [Tx.bind_of_ok (a := ()) (Tx.outcome_atomic.trans hdone), Tx.after, hatomic]
  rfl

/-- The sync handler undoes the hooks when their exception leaves it. -/
theorem destroy_of_raised {e : Raised} (hfound : view.getObject view.request db = .ok target)
    (hraised : (view.softDeleteInstance target).outcome db = .error e) :
    view.destroy db = (view.answerTo e,
      if (view.answerTo e).isOk then (view.softDeleteInstance target).after db else db) := by
  rw [destroy_of_found hfound]
  simp only [Tx.atomic, Tx.catching]
  rw [Tx.bind_of_error hraised]
  dsimp only
  rw [onHttp404_eq]
  cases view.answerTo e <;> rfl

/-- The coroutine undoes them whenever they raise. -/
theorem adestroy_of_raised {e : Raised} (hfound : view.getObject view.request db = .ok target)
    (hraised : (view.softDeleteInstance target).outcome db = .error e) :
    view.adestroy db = (view.answerTo e, db) := by
  have hatomic := Tx.atomic_of_error hraised
  rw [adestroy_of_found hfound]
  simp only [Tx.catching]
  rw [Tx.bind_of_error (Tx.outcome_atomic.trans hraised), Tx.after, hatomic]
  exact onHttp404_eq view e db

/-- A delete served by either handler, inside whatever transaction `dispatch`
adds. -/
theorem dispatch_destroy (view : View) (kind : HandlerKind) :
    view.dispatch kind .destroy = view.handler kind .destroy := by
  cases kind with
  | coroutine => exact if_neg fun h => h.2 rfl
  | sync =>
      unfold View.dispatch
      by_cases hlisted : handlerName .sync .destroy ∈ view.atomicActions ∧
          HandlerKind.sync ≠ .coroutine
      · rw [if_pos hlisted]
        exact Tx.atomic_atomic _
      · rw [if_neg hlisted]

/-- The handlers give one answer, and leave one table unless the hooks wrote
before raising the 404 that the view answers itself. -/
theorem destroy_same_iff (view : View) (db : Database) :
    (view.destroy db).1 = (view.adestroy db).1 ∧
      ((view.destroy db).2 = (view.adestroy db).2 ↔ ¬ ∃ target, WritesThen404 view db target) := by
  cases hfound : view.getObject view.request db with
  | error e =>
      rw [destroy_of_not_found hfound, adestroy_of_not_found hfound]
      refine ⟨rfl, iff_of_true rfl ?_⟩
      rintro ⟨target, hwrites⟩
      exact nomatch hfound.symm.trans hwrites.found
  | ok target =>
      have hsame : ∀ target', WritesThen404 view db target' → target' = target := by
        intro target' hwrites
        exact Except.ok.inj (hwrites.found.symm.trans hfound)
      cases hdelete : (view.softDeleteInstance target).outcome db with
      | ok u =>
          rw [destroy_of_done hfound hdelete, adestroy_of_done hfound hdelete]
          refine ⟨rfl, iff_of_true rfl ?_⟩
          rintro ⟨target', hwrites⟩
          obtain rfl := hsame target' hwrites
          exact nomatch hdelete.symm.trans hwrites.raised
      | error e =>
          rw [destroy_of_raised hfound hdelete, adestroy_of_raised hfound hdelete]
          refine ⟨rfl, ?_⟩
          constructor
          · rintro hafter ⟨target', hwrites⟩
            obtain rfl := hsame target' hwrites
            obtain rfl := Except.error.inj (hdelete.symm.trans hwrites.raised)
            refine hwrites.wrote ?_
            have hanswer : view.answerTo .http404 = .ok 404 :=
              answerTo_eq_ok_iff.mpr ⟨rfl, hwrites.answered, rfl⟩
            simpa [hanswer, Except.isOk, Except.toBool] using hafter
          · intro hnone
            cases hanswer : view.answerTo e with
            | error e' => simp [Except.isOk, Except.toBool]
            | ok response =>
                obtain ⟨rfl, henvelope, -⟩ := answerTo_eq_ok_iff.mp hanswer
                by_contra hafter
                exact hnone ⟨target, hfound, hdelete, henvelope, by
                  simpa [Except.isOk, Except.toBool] using hafter⟩

/-- Sync or async, a delete gives one answer; the tables differ exactly when the
hooks wrote before raising the 404 that the view answers itself, and then the
sync handler keeps what they wrote and the coroutine undoes it. -/
theorem destroy_agrees_iff (view : View) (db : Database) :
    (view.dispatch .sync .destroy).outcome db = (view.dispatch .coroutine .destroy).outcome db ∧
      ((view.dispatch .sync .destroy).after db = (view.dispatch .coroutine .destroy).after db ↔
        ¬ ∃ target, WritesThen404 view db target) ∧
      ∀ target, WritesThen404 view db target →
        view.dispatch .sync .destroy db =
            (.ok 404, (view.softDeleteInstance target).after db) ∧
          view.dispatch .coroutine .destroy db = (.ok 404, db) := by
  rw [dispatch_destroy, dispatch_destroy]
  obtain ⟨hanswer, hafter⟩ := destroy_same_iff view db
  refine ⟨hanswer, hafter, fun target hwrites => ?_⟩
  have h404 : view.answerTo .http404 = .ok 404 :=
    answerTo_eq_ok_iff.mpr ⟨rfl, hwrites.answered, rfl⟩
  refine ⟨(destroy_of_raised hwrites.found hwrites.raised).trans ?_,
    (adestroy_of_raised hwrites.found hwrites.raised).trans ?_⟩
  · rw [h404]
    rfl
  · rw [h404]

/-- A model whose `soft_delete` files a row of its own before it looks its
parent up and does not find it. -/
def orphanedView : View where
  serializerClass := failingSerializer
  model := { softDelete := some fun _ _ =>
    { writes := [.insert Dict.empty], raised := some .http404 } }
  getObject _ _ := .ok ⟨0, Dict.empty⟩
  action := "destroy"
  request := {}

example : ((orphanedView.dispatch .sync .destroy).after oneRow).rows.length = 2 ∧
    ((orphanedView.dispatch .coroutine .destroy).after oneRow).rows.length = 1 := by decide

end NetixBackend.Views
