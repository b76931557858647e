import NetixBackend.ChangeHistory.Actor
import NetixBackend.ChangeHistory.Saves

/-!
Stated reasons.

`ChangeHistorySerializerMixin.validate` takes `change_reason` out of a row and
parks it on the serializer; `save` folds it onto the bound actor around the
write. For a list both belong to the one child that sees every row: each row
parks its reason over the last, and the list is written by calling `create` on
the child, so `save` never folds any of them.

What an entry says is therefore the bound actor's reason, and the row's own
only through the fold (`reasonsLand_iff`).
-/

namespace NetixBackend.ChangeHistory

open Python Effects

variable {σ ρ α : Type}

/-! ### Serializers -/

/-- A row once its declared fields are validated: the value under
`change_reason`, where the key is there, and the other items. -/
structure Attrs where
  changeReason : Option String
  rest : Dict String FieldValue

def trim (text : String) : String := String.ofList (strip text.toList)

/-- A class mixing `ChangeHistorySerializerMixin` into a `ModelSerializer`, by
its model and by what its declared fields make of a row. -/
structure HistorySerializer (ρ : Type) where
  model : HistoryModel
  /-- The attributes of an instance built without arguments. -/
  defaults : String → FieldValue
  /-- The text a row states under `change_reason`. -/
  stated : ρ → Option String
  toInternalValue : ρ → Except PyError Attrs
  /-- A `CharField` trims its text; one that is not required may be left out. -/
  trims : ∀ row attrs, toInternalValue row = .ok attrs →
    attrs.changeReason = (stated row).map trim

/-- `request.data`: a list or one row. -/
inductive Body (ρ : Type)
  | one (row : ρ)
  | many (rows : List ρ)

def Body.rows : Body ρ → List ρ
  | .one row => [row]
  | .many rows => rows

/-- What the clock and the database answer to a save. -/
structure Answer where
  now : String
  verdict : Option PyError

/-- The serializer's `_change_reason`, once there is one, and the saves made. -/
structure Saving where
  changeReason : Option String := none
  saved : List HistoryModel.SaveOutcome := []

/-- There is no row before an INSERT. -/
def noRow : Row where
  cells _ := .none
  trail := none

namespace HistorySerializer

variable (self : HistorySerializer ρ) (answer : ℕ → Answer) (kwargs : Dict String FieldValue)

/-- `Model(**validated_data)`. -/
def newInstance (rest : Dict String FieldValue) : Instance where
  attrs := rest.items.foldl
    (fun values item => Function.update values (self.model.historyAttname item.1) item.2)
    self.defaults
  adding := true

/-- `ModelSerializer.create`; the model has no field `change_reason`. -/
def create (attrs : Attrs) : Act Saving Unit :=
  if attrs.changeReason.isSome then Tx.raise (.other "TypeError")
  else do
    let out ← Tx.read fun s =>
      let answer := answer s.vars.saved.length
      .ok (self.model.save { now := answer.now, actor := s.getActor } noRow none answer.verdict
        (self.newInstance attrs.rest))
    Tx.write fun s => { s with vars := { s.vars with saved := s.vars.saved ++ [out] } }
    match out.raised with
    | none => return ()
    | some error => Tx.raise error

def validate (attrs : Attrs) : Act Saving Attrs := do
  Tx.write fun s =>
    { s with vars := { s.vars with changeReason := some (attrs.changeReason.getD "") } }
  return { attrs with changeReason := none }

/-- `Serializer.run_validation`. -/
def runValidation (row : ρ) : Act Saving Attrs := do
  let attrs ← Tx.ofExcept (self.toInternalValue row)
  validate attrs

/-- `{**attrs, **kwargs}`. -/
def withKwargs (attrs : Attrs) : Attrs := { attrs with rest := attrs.rest.update kwargs }

/-- `ChangeHistorySerializerMixin.save`. -/
def save (attrs : Attrs) : Act Saving Unit := do
  let reason ← Tx.read fun s => .ok (s.vars.changeReason.getD "")
  if reason = "" then self.create answer (withKwargs kwargs attrs)
  else reasonContext (some reason) fun _ => self.create answer (withKwargs kwargs attrs)

/-- `ListSerializer.run_validation`: every row is validated, whatever the
others; of the errors, raised together, the first stands for all. -/
def runListValidation : List ρ → Act Saving (List Attrs)
  | [] => return []
  | row :: rest => fun s =>
      let (first, s) := self.runValidation row s
      let (others, s) := runListValidation rest s
      (do return (← first) :: (← others), s)

/-- `ListSerializer.save`: the child's `create` for each row, not its `save`. -/
def listSave (rows : List Attrs) : Act Saving Unit :=
  Tx.each rows fun attrs => self.create answer (withKwargs kwargs attrs)

/-- `get_serializer`: a new one. -/
def getSerializer : Act Saving Unit := Tx.write fun s => { s with vars := {} }

/-- `CreateListModelMixin.create`. -/
def createListModel (body : Body ρ) : Act Saving Unit := do
  getSerializer
  match body with
  | .one row =>
      let attrs ← self.runValidation row
      self.save answer kwargs attrs
  | .many rows =>
      let validated ← self.runListValidation rows
      self.listSave answer kwargs validated

/-! ### What a row is owed -/

/-- The entry of a row's save is a `created` one and carries the row's reason;
a model that tracks nothing writes none. -/
structure Landed (serializer : HistorySerializer ρ) (row : ρ) (out : HistoryModel.SaveOutcome) :
    Prop where
  created : serializer.model.historyFields ≠ [] →
    ∃ entry, out.entry = some entry ∧ entry.action = .created
  reason : ∀ entry, out.entry = some entry →
    entry.reason = some (normalizeReason (serializer.stated row))

/-- The condition: what the bound actor brings along is what the row states,
unless the row is alone and states something. -/
def KeepsReasons (actor : ChangeActor) : Body ρ → Prop
  | .one row => normalizeReason (self.stated row) = "" → actor.reason = ""
  | .many rows => ∀ row ∈ rows, normalizeReason (self.stated row) = actor.reason

/-- What any save of a new instance leaves, under a bound actor. -/
structure Stamped (serializer : HistorySerializer ρ) (actor : ChangeActor)
    (out : HistoryModel.SaveOutcome) : Prop where
  created : serializer.model.historyFields ≠ [] →
    ∃ entry, out.entry = some entry ∧ entry.action = .created
  untracked : serializer.model.historyFields = [] → out.entry = none
  reason : ∀ entry, out.entry = some entry → entry.reason = some actor.reason

end HistorySerializer

/-! ### Reasons -/

theorem normalizeReason_trim (reason : Option String) :
    normalizeReason (some ((reason.map trim).getD "")) = normalizeReason reason := by
  cases reason with
  | none => rfl
  | some text => simp [normalizeReason, trim, strip_strip]

theorem normalizeReason_trim_eq_empty_iff (reason : Option String) :
    normalizeReason reason = "" ↔ (reason.map trim).getD "" = "" := by
  cases reason with
  | none => simp [normalizeReason]
  | some text => simp [normalizeReason, trim, maxReasonLength, String.ofList_eq_empty_iff]

/-! ### One save -/

theorem HistoryModel.reason_entryFor {M : HistoryModel} {env : Env}
    {updateFields : Option (List String)} {inst : Instance} {entry : Entry}
    (h : M.entryFor env updateFields inst = some entry) : entry.reason = some env.actor.reason := by
  unfold entryFor entryOf at h
  split at h
  · simp at h
  · split at h
    · rw [← Option.some.inj h, historyEntry]
    · split at h
      · simp at h
      · simp only [Option.ite_none_left_eq_some, Option.some.injEq] at h
        rw [← h.2, historyEntry]

namespace HistorySerializer

variable {self : HistorySerializer ρ} {answer : ℕ → Answer} {kwargs : Dict String FieldValue}
  {s : Session Saving} {attrs : Attrs} {actor : ChangeActor} {out : HistoryModel.SaveOutcome}
  {row : ρ} {rows : List ρ}

theorem stamped_save (self : HistorySerializer ρ) (answer : Answer) (actor : ChangeActor)
    (rest : Dict String FieldValue)
    (hok : (self.model.save { now := answer.now, actor := actor } noRow none answer.verdict
      (self.newInstance rest)).raised = none) :
    self.Stamped actor (self.model.save { now := answer.now, actor := actor } noRow none
      answer.verdict (self.newInstance rest)) := by
  have hloaded : self.model.TrackedLoaded (self.newInstance rest) :=
    self.model.trackedLoaded_of_deferred_nil rfl
  have hentry := (HistoryModel.save_ok hloaded (fun _ => .inl (by simp)) hok).entry
  refine ⟨fun hfields => ?_, fun hfields => ?_, fun entry hsome => ?_⟩
  · obtain ⟨entry, hsome, haction, -⟩ :=
      self.model.entryFor_of_adding (show (self.newInstance rest).adding = true from rfl) hfields
    exact ⟨entry, hentry.trans hsome, haction⟩
  · rw [hentry, HistoryModel.entryFor, if_pos (by simp [hfields])]
  · exact HistoryModel.reason_entryFor (hentry.symm.trans hsome)

theorem Stamped.landed_iff (h : self.Stamped actor out) :
    self.Landed row out ↔
      self.model.historyFields = [] ∨ normalizeReason (self.stated row) = actor.reason := by
  constructor
  · intro hlanded
    by_cases hfields : self.model.historyFields = []
    · exact .inl hfields
    · obtain ⟨entry, hentry, -⟩ := h.created hfields
      have hreason := (hlanded.reason entry hentry).symm.trans (h.reason entry hentry)
      exact .inr (Option.some.inj hreason)
  · rintro (hfields | hreason)
    · have hnone := h.untracked hfields
      exact ⟨fun hne => absurd hfields hne, fun entry hentry => by simp [hnone] at hentry⟩
    · exact ⟨h.created, fun entry hentry => by rw [h.reason entry hentry, hreason]⟩

/-- The saves of a list are all stamped with the same actor. -/
theorem forall₂_landed_iff {outs : List HistoryModel.SaveOutcome}
    (h : ∀ out ∈ outs, self.Stamped actor out) (hlen : outs.length = rows.length) :
    List.Forall₂ self.Landed rows outs ↔
      self.model.historyFields = [] ∨
        ∀ row ∈ rows, normalizeReason (self.stated row) = actor.reason := by
  induction rows generalizing outs with
  | nil =>
      obtain rfl := List.length_eq_zero_iff.mp hlen
      simp
  | cons row rows ih =>
      cases outs with
      | nil => simp at hlen
      | cons out outs =>
          rw [List.forall_mem_cons] at h
          rw [List.forall₂_cons, h.1.landed_iff, ih h.2 (by simpa using hlen), ← or_and_left,
            List.forall_mem_cons]

/-! ### The binding -/

/-- Nothing is bound, and no token used. -/
def Still (s s' : Session σ) : Prop := s'.actor = s.actor

instance : Std.Refl (Still (σ := σ)) where
  refl _ := rfl

instance : IsTrans (Session σ) Still where
  trans _ _ _ h h' := h'.trans h

/-- Validation parks reasons on the serializer and saves nothing. -/
structure Parks (s s' : Session Saving) : Prop where
  still : Still s s'
  saved : s'.vars.saved = s.vars.saved

instance : Std.Refl Parks where
  refl _ := ⟨rfl, rfl⟩

instance : IsTrans (Session Saving) Parks where
  trans _ _ _ h h' := ⟨h'.still.trans h.still, h'.saved.trans h.saved⟩

/-- The binding is the one there was; tokens may have been used. -/
def Restores (s s' : Session σ) : Prop := s'.actor.value = s.actor.value

instance : Std.Refl (Restores (σ := σ)) where
  refl _ := rfl

instance : IsTrans (Session σ) Restores where
  trans _ _ _ h h' := h'.trans h

theorem Still.restores {s s' : Session σ} (h : Still s s') : Restores s s' := congrArg ContextVar.value h

theorem Still.getActor_eq {s s' : Session σ} (h : Still s s') : s'.getActor = s.getActor :=
  congrArg (fun var => (var.get none).getD {}) h

theorem parks_runValidation (row : ρ) : Tx.Within Parks (self.runValidation row) :=
  Tx.Within.bind (.ofExcept _) fun _ _ =>
    Tx.Within.bind (show Tx.Within Parks (Tx.write _) from fun _ => ⟨rfl, rfl⟩) fun _ _ => .pure

theorem parks_runListValidation (rows : List ρ) :
    Tx.Within Parks (self.runListValidation rows) := by
  induction rows with
  | nil => exact .pure
  | cons row rest ih =>
      intro s
      exact IsTrans.trans _ _ _ (parks_runValidation row s)
        (ih (Tx.after (self.runValidation row) s))

theorem still_write {f : Session σ → Session σ} (h : ∀ s, (f s).actor = s.actor) :
    Tx.Within Still (Tx.write f : Act σ Unit) := h

theorem still_create (attrs : Attrs) : Tx.Within Still (self.create answer attrs) := by
  unfold create
  split
  · exact .raise
  · refine Tx.Within.bind (.read _) fun out _ =>
      Tx.Within.bind (still_write fun _ => rfl) fun _ _ => ?_
    split
    · exact .pure
    · exact .raise

theorem still_listSave (validated : List Attrs) :
    Tx.Within Still (self.listSave answer kwargs validated) :=
  .each fun _ _ => still_create _

/-- A block around a body that binds nothing runs it under the block's actor,
and gives back the binding it found. -/
theorem bracket_of_still {body : Act σ α} (hbody : Tx.Within Still body) (kind : BlockKind)
    (bound : ChangeActor) (s : Session σ) :
    ∃ t : Session σ, t.getActor = bound ∧ t.vars = s.vars ∧
      Tx.outcome (bracket kind (some bound) body) s = Tx.outcome body t ∧
      (Tx.after (bracket kind (some bound) body) s).vars = (Tx.after body t).vars ∧
      (Tx.after (bracket kind (some bound) body) s).actor.value = s.actor.value := by
  let own := s.actor.fresh
  let t : Session σ := { s with actor := (s.actor.set (some bound)).2 }
  have hstill : (Tx.after body t).actor = t.actor := hbody t
  have hminted : (Tx.after body t).actor.tokens own =
      { context := s.actor.context, old := s.actor.value } := by
    rw [hstill]
    exact Function.update_self ..
  obtain ⟨var', hreset, hvalue⟩ : ∃ var', (Tx.after body t).actor.reset own = .ok var' ∧
      var'.value = s.actor.value :=
    ⟨_, ContextVar.reset_of_unused (by rw [hminted]) (by rw [hminted, hstill]; rfl),
      by rw [hminted]⟩
  have hrun : bracket kind (some bound) body s =
      Tx.finalizing (Tx.finalizing body (resetActor (some own)))
        (Tx.write fun u => u.endBlock kind own s.getActor t.getActor) t := rfl
  refine ⟨t, rfl, rfl, ?_⟩
  rw [Tx.outcome, Tx.after, hrun]
  rcases hbodyrun : body t with ⟨result, u⟩
  simp only [Tx.after, hbodyrun] at hreset
  simp only [Tx.finalizing, Tx.outcome, Tx.after, Tx.write, resetActor, hbodyrun, hreset]
  exact ⟨trivial, rfl, hvalue⟩

/-! ### The body -/

theorem create_ok (hok : Tx.outcome (self.create answer attrs) s = .ok ()) :
    ∃ out, self.Stamped s.getActor out ∧
      (Tx.after (self.create answer attrs) s).vars.saved = s.vars.saved ++ [out] := by
  unfold create at hok ⊢
  split at hok
  · simp [Tx.outcome, Tx.raise] at hok
  · rename_i hreason
    rw [if_neg hreason]
    obtain ⟨out, hread, hrest, hafter⟩ := Tx.outcome_bind_ok hok
    obtain rfl := Except.ok.inj hread
    obtain ⟨-, -, hlast, hafter'⟩ := Tx.outcome_bind_ok hrest
    refine ⟨_, stamped_save self (answer s.vars.saved.length) s.getActor attrs.rest ?_, ?_⟩
    · by_contra hraised
      obtain ⟨error, herror⟩ := Option.ne_none_iff_exists'.mp hraised
      simp [herror, Tx.outcome, Tx.raise] at hlast
    · rw [hafter, hafter']
      split
      · rfl
      · rfl

theorem runValidation_ok (hok : Tx.outcome (self.runValidation row) s = .ok attrs) :
    (Tx.after (self.runValidation row) s).vars.changeReason =
      some (((self.stated row).map trim).getD "") := by
  obtain ⟨attrs', hattrs, hrest, hafter⟩ := Tx.outcome_bind_ok hok
  have hvalid : self.toInternalValue row = .ok attrs' := hattrs
  rw [← self.trims row attrs' hvalid]
  exact congrArg (·.vars.changeReason) hafter

theorem runListValidation_ok {validated : List Attrs}
    (hok : Tx.outcome (self.runListValidation rows) s = .ok validated) :
    validated.length = rows.length := by
  induction rows generalizing s validated with
  | nil => rw [← Except.ok.inj hok]; rfl
  | cons row rest ih =>
      obtain ⟨first, -, hrest⟩ := exists_of_bind_ok hok
      obtain ⟨others, hothers, hvalidated⟩ := exists_of_bind_ok hrest
      rw [← Except.ok.inj hvalidated, List.length_cons, List.length_cons, ih hothers]

/-- The step lemma along the rows of a list: the actor stays, and each save is
stamped with it. -/
theorem listSave_ok {validated : List Attrs}
    (hok : Tx.outcome (self.listSave answer kwargs validated) s = .ok ()) :
    ∃ outs, outs.length = validated.length ∧ (∀ out ∈ outs, self.Stamped s.getActor out) ∧
      (Tx.after (self.listSave answer kwargs validated) s).vars.saved = s.vars.saved ++ outs := by
  induction validated generalizing s with
  | nil => exact ⟨[], rfl, by simp, by simp [listSave, Tx.each, Tx.after, Tx.ret]⟩
  | cons attrs rest ih =>
      obtain ⟨_, hfirst, hrest, hafter⟩ := Tx.outcome_bind_ok
        (m := self.create answer (withKwargs kwargs attrs))
        (f := fun _ => self.listSave answer kwargs rest) hok
      obtain ⟨out, hstamped, hsaved⟩ := create_ok hfirst
      obtain ⟨outs, hlen, houts, hsaved'⟩ := ih hrest
      have hactor := (@still_create ρ self answer (withKwargs kwargs attrs) s).getActor_eq
      rw [hactor] at houts
      refine ⟨out :: outs, by simp [hlen], List.forall_mem_cons.mpr ⟨hstamped, houts⟩, ?_⟩
      refine (congrArg (·.vars.saved) hafter).trans ?_
      rw [hsaved', hsaved, List.append_assoc, List.singleton_append]

/-- One row is saved under the actor with the row's reason, if it states one. -/
theorem save_ok {reason : String} (hreason : s.vars.changeReason = some reason)
    (hok : Tx.outcome (self.save answer kwargs attrs) s = .ok ()) :
    ∃ out, self.Stamped
        (if reason = "" then s.getActor
          else { s.getActor with reason := normalizeReason (some reason) }) out ∧
      (Tx.after (self.save answer kwargs attrs) s).vars.saved = s.vars.saved ++ [out] := by
  obtain ⟨reason', hread, hrest, hafter⟩ := Tx.outcome_bind_ok hok
  obtain rfl : reason = reason' := by simpa [Tx.outcome, Tx.read, hreason] using hread
  have hafter' : Tx.after (self.save answer kwargs attrs) s = _ := hafter
  rw [hafter']
  change Tx.outcome (if reason = "" then _ else _) s = _ at hrest
  change ∃ out, _ ∧ (Tx.after (if reason = "" then _ else _) s).vars.saved = _
  split at hrest
  · rename_i hempty
    rw [if_pos hempty, if_pos hempty]
    exact create_ok hrest
  · rename_i hstated
    rw [if_neg hstated, if_neg hstated]
    obtain ⟨t, hactor, hvars, houtcome, hafter, -⟩ := bracket_of_still
      (@still_create ρ self answer (withKwargs kwargs attrs)) (.reasonContext (some reason))
      { s.getActor with reason := normalizeReason (some reason) } s
    obtain ⟨out, hstamped, hsaved⟩ := create_ok (houtcome.symm.trans hrest)
    refine ⟨out, hactor ▸ hstamped, ?_⟩
    refine (congrArg Saving.saved hafter).trans ?_
    rw [hsaved, hvars]

/-! ### The request -/

theorem restores_save (attrs : Attrs) : Tx.Within Restores (self.save answer kwargs attrs) := by
  refine Tx.Within.bind (.read _) fun reason _ => ?_
  have hcreate := @still_create ρ self answer (withKwargs kwargs attrs)
  split
  · exact fun s => (hcreate s).restores
  · intro s
    obtain ⟨-, -, -, -, -, hvalue⟩ := bracket_of_still hcreate (.reasonContext (some reason))
      { s.getActor with reason := normalizeReason (some reason) } s
    exact hvalue

/-- However the request ends, the actor is bound that was bound before. -/
theorem restores_createListModel (body : Body ρ) :
    Tx.Within Restores (self.createListModel answer kwargs body) := by
  refine Tx.Within.bind (fun _ => rfl) fun _ _ => ?_
  cases body with
  | one row =>
      exact Tx.Within.bind (fun s => (parks_runValidation row s).still.restores)
        fun attrs _ => restores_save attrs
  | many rows =>
      exact Tx.Within.bind (fun s => (parks_runListValidation rows s).still.restores)
        fun validated _ s => (still_listSave validated s).restores

theorem landed_one_iff (hok : Tx.outcome (self.createListModel answer kwargs (.one row)) s = .ok ()) :
    List.Forall₂ self.Landed [row]
        (Tx.after (self.createListModel answer kwargs (.one row)) s).vars.saved ↔
      self.model.historyFields = [] ∨ self.KeepsReasons s.getActor (.one row) := by
  obtain ⟨_, -, hbody, hafter⟩ := Tx.outcome_bind_ok hok
  obtain ⟨attrs, hvalid, hsave, hafter'⟩ := Tx.outcome_bind_ok hbody
  have hparks := @parks_runValidation ρ self row (Tx.after getSerializer s)
  obtain ⟨out, hstamped, hsaved⟩ := save_ok (runValidation_ok hvalid) hsave
  have hactor : (Tx.after (self.runValidation row) (Tx.after getSerializer s)).getActor = s.getActor :=
    hparks.still.getActor_eq
  have hsaves : (Tx.after (self.createListModel answer kwargs (.one row)) s).vars.saved = [out] := by
    refine (congrArg (·.vars.saved) (hafter.trans hafter')).trans (hsaved.trans ?_)
    exact congrArg (· ++ [out]) hparks.saved
  rw [hsaves, List.forall₂_cons, hstamped.landed_iff]
  simp only [List.forall₂_nil_left_iff, and_true]
  refine or_congr_right ?_
  rw [KeepsReasons, normalizeReason_trim_eq_empty_iff]
  split
  · rename_i hempty
    have hnone := (normalizeReason_trim_eq_empty_iff (self.stated row)).mpr hempty
    rw [hnone, hactor]
    exact ⟨fun h _ => h.symm, fun h => (h hempty).symm⟩
  · rename_i hstated
    simp only [normalizeReason_trim]
    exact ⟨fun _ hempty => absurd hempty hstated, fun _ => trivial⟩

theorem landed_many_iff
    (hok : Tx.outcome (self.createListModel answer kwargs (.many rows)) s = .ok ()) :
    List.Forall₂ self.Landed rows
        (Tx.after (self.createListModel answer kwargs (.many rows)) s).vars.saved ↔
      self.model.historyFields = [] ∨ self.KeepsReasons s.getActor (.many rows) := by
  obtain ⟨_, -, hbody, hafter⟩ := Tx.outcome_bind_ok hok
  obtain ⟨validated, hvalid, hsave, hafter'⟩ := Tx.outcome_bind_ok hbody
  have hparks := @parks_runListValidation ρ self rows (Tx.after getSerializer s)
  obtain ⟨outs, hlen, houts, hsaved⟩ := listSave_ok hsave
  have hactor : (Tx.after (self.runListValidation rows) (Tx.after getSerializer s)).getActor =
      s.getActor := hparks.still.getActor_eq
  have hsaves : (Tx.after (self.createListModel answer kwargs (.many rows)) s).vars.saved = outs := by
    refine (congrArg (·.vars.saved) (hafter.trans hafter')).trans (hsaved.trans ?_)
    exact congrArg (· ++ outs) hparks.saved
  have hstamped : ∀ out ∈ outs, self.Stamped s.getActor out := hactor ▸ houts
  rw [hsaves]
  exact forall₂_landed_iff hstamped (hlen.trans (runListValidation_ok hvalid))

/-- For any body, whatever is answered and however it ends, the binding is
restored; and each stated reason is in the entry of its own row exactly under
`KeepsReasons`. -/
theorem reasonsLand_iff (self : HistorySerializer ρ) (answer : ℕ → Answer)
    (kwargs : Dict String FieldValue) (body : Body ρ) (s : Session Saving) :
    (Tx.after (self.createListModel answer kwargs body) s).actor.value = s.actor.value ∧
      (Tx.outcome (self.createListModel answer kwargs body) s = .ok () →
        (List.Forall₂ self.Landed body.rows
            (Tx.after (self.createListModel answer kwargs body) s).vars.saved ↔
          self.model.historyFields = [] ∨ self.KeepsReasons s.getActor body)) := by
  refine ⟨restores_createListModel body s, fun hok => ?_⟩
  cases body with
  | one row => exact landed_one_iff hok
  | many rows => exact landed_many_iff hok

/-! ### Two requests -/

/-- The serializer of the test suite, for rows of a reason and a label. -/
def widgetSerializer : HistorySerializer (Option String × String) where
  model := historyWidget
  defaults _ := .none
  stated := Prod.fst
  toInternalValue row :=
    .ok { changeReason := row.1.map trim, rest := Dict.empty.set "label" (.str row.2) }
  trims := by
    rintro row attrs h
    rw [← Except.ok.inj h]

/-- A context nobody is bound in. -/
def unbound : Session Saving where
  actor := .initial 0 none
  vars := {}

def atNoon : ℕ → Answer := fun _ => ⟨"noon", none⟩

theorem single_reason_lands :
    List.Forall₂ widgetSerializer.Landed [(some "  roster swap  ", "before")]
      (Tx.after (widgetSerializer.createListModel atNoon Dict.empty
        (.one (some "  roster swap  ", "before"))) unbound).vars.saved :=
  ((reasonsLand_iff widgetSerializer atNoon Dict.empty (.one (some "  roster swap  ", "before"))
    unbound).2 rfl).mpr (.inr fun _ => rfl)

/-- The same row, in a list: its reason is lost. -/
theorem listed_reason_lost :
    Tx.outcome (widgetSerializer.createListModel atNoon Dict.empty
        (.many [(some "  roster swap  ", "before")])) unbound = .ok () ∧
      ¬ List.Forall₂ widgetSerializer.Landed [(some "  roster swap  ", "before")]
        (Tx.after (widgetSerializer.createListModel atNoon Dict.empty
          (.many [(some "  roster swap  ", "before")])) unbound).vars.saved := by
  refine ⟨rfl, fun hlanded => ?_⟩
  rcases (landed_many_iff rfl).mp hlanded with htracked | hkept
  · exact absurd htracked (by decide)
  · have hreason := hkept _ (List.mem_singleton_self _)
    exact absurd hreason (by decide +kernel)

end HistorySerializer

end NetixBackend.ChangeHistory
