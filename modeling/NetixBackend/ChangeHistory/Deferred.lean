import NetixBackend.ChangeHistory.Saves

/-!
An instance loaded with columns deferred.

Which entry the next save appends depends on the order of assignments and
reads, because every read that has to fetch a column takes the snapshot anew.
`Ledger` is what that order comes down to: the values as they are, the values
at the last fetch, and the columns still to be fetched. `Follows` says the
instance follows its ledger through every assignment and read, and the save
adds one more fetch of its own while a tracked column is still deferred
(`Ledger.close`). A loaded and edited field is recorded with its loaded value
exactly when its value at the last fetch was the loaded one.
-/

namespace NetixBackend.ChangeHistory

open Python

/-- What happens to a loaded instance before it is saved. -/
inductive Touch
  | assign (name : String) (value : FieldValue)
  | read (attname : String)

/-- The values by attname, now and at the last fetch, and the deferred columns. -/
structure Ledger where
  values : String → FieldValue
  baseline : String → FieldValue
  deferred : List String

namespace HistoryModel

variable (M : HistoryModel)

def touch (row : Row) (inst : Instance) : Touch → Instance
  | .assign name value => M.assign inst name value
  | .read attname => M.read row inst attname

def openLedger (row : Row) (loaded : List String) : Ledger where
  values := row.cells
  baseline := row.cells
  deferred := M.columns.filter fun attname => !loaded.contains attname

/-- A fetch takes the baseline anew and brings in the tracked columns. -/
def fetchLedger (ledger : Ledger) (extra : String → Bool) : Ledger where
  values := ledger.values
  baseline := ledger.values
  deferred := ledger.deferred.filter fun attname =>
    !(extra attname || M.trackedAttnames.contains attname)

def touchLedger (ledger : Ledger) : Touch → Ledger
  | .assign name value =>
      { ledger with
        values := fun attname =>
          if attname = M.historyAttname name then value else ledger.values attname }
  | .read attname =>
      if ledger.deferred.contains attname then M.fetchLedger ledger (· == attname) else ledger

/-- The save's own reads: a tracked column still deferred is fetched first. -/
def closeLedger (ledger : Ledger) : Ledger :=
  if ledger.deferred.any M.trackedAttnames.contains then M.fetchLedger ledger fun _ => false
  else ledger

def ledgerAt (row : Row) (loaded : List String) (touches : List Touch) : Ledger :=
  M.closeLedger (touches.foldl M.touchLedger (M.openLedger row loaded))

/-- The instance follows its ledger, as far as the columns of `loaded` go. -/
structure Follows (row : Row) (loaded : List String) (ledger : Ledger) (inst : Instance) :
    Prop where
  deferred : inst.deferred = ledger.deferred
  values : ∀ a ∈ loaded, inst.attrs a = ledger.values a
  seen : ∀ name ∈ M.historyFields, M.historyAttname name ∈ loaded →
    inst.seen name = some (jsonSafe (ledger.baseline (M.historyAttname name)))
  loaded : ∀ a ∈ loaded, a ∉ inst.deferred
  trail : trailSeen row inst = row.trail
  adding : inst.adding = false

/-- The touches assign tracked fields that were loaded, and no others. -/
def AssignsLoaded (loaded : List String) (touches : List Touch) : Prop :=
  ∀ name value, Touch.assign name value ∈ touches →
    name ∈ M.historyFields ∧ M.historyAttname name ∈ loaded

def Assigned (touches : List Touch) (name : String) : Prop :=
  ∃ name' value, Touch.assign name' value ∈ touches ∧
    M.historyAttname name' = M.historyAttname name

/-- The save appended an entry to the stored trail that lists the field, from
its loaded value to the saved one. -/
def Listed (row : Row) (out : SaveOutcome) (name : String) : Prop :=
  ∃ entry, out.entry = some entry ∧
    out.row.trail = some (M.appendEntry row.trail.entries entry) ∧
      ∃ change ∈ entry.changes, change.field = name ∧ change.old = M.stored row name ∧
        change.new = M.stored out.row name

/-! ### Following the ledger -/

variable {M} {row : Row} {loaded : List String} {ledger : Ledger} {inst : Instance}

theorem Follows.of_load (defaults : String → FieldValue) (hcolumns : ∀ a ∈ loaded, a ∈ M.columns) :
    M.Follows row loaded (M.openLedger row loaded) (M.fromDb row defaults loaded) := by
  have hloaded := M.loaded_fromDb row defaults hcolumns
  refine ⟨hloaded.deferred, fun a ha => ?_, fun name hname ha => ?_, fun a ha hmem => ?_,
    hloaded.trail, hloaded.adding⟩
  · rw [hloaded.attrs, if_pos ha]
    rfl
  · rw [hloaded.seen name hname, if_pos ha]
    rfl
  · exact (hloaded.mem_deferred.mp hmem).2 ha

theorem Follows.fetch (h : M.Follows row loaded ledger inst) (extra : String → Bool) :
    M.Follows row loaded (M.fetchLedger ledger extra) (M.rebase (M.fetch row extra inst)) where
  deferred := by
    change (M.fetch row extra inst).deferred = _
    rw [M.deferred_fetch, h.deferred]
    rfl
  values a ha := by
    change (M.fetch row extra inst).attrs a = ledger.values a
    rw [M.attrs_fetch_of_not_mem (h.loaded a ha), h.values a ha]
  seen name hname ha := by
    change (M.valuesOf (M.fetch row extra inst).attrs).get? name = _
    rw [M.get?_valuesOf hname, M.attrs_fetch_of_not_mem (h.loaded _ ha), h.values _ ha]
    rfl
  loaded a ha hmem := by
    change a ∈ (M.fetch row extra inst).deferred at hmem
    rw [M.deferred_fetch] at hmem
    exact h.loaded a ha (List.mem_of_mem_filter hmem)
  trail := by
    change trailSeen row (M.fetch row extra inst) = row.trail
    rw [trailSeen_fetch, h.trail]
  adding := h.adding

theorem Follows.assign {name : String} {value : FieldValue}
    (h : M.Follows row loaded ledger inst) (hloaded : M.historyAttname name ∈ loaded) :
    M.Follows row loaded (M.touchLedger ledger (.assign name value)) (M.assign inst name value) := by
  -- a loaded attribute is not deferred, so assigning it uncovers nothing
  have hsame : (inst.deferred.filter fun a => a != M.historyAttname name) = inst.deferred := by
    refine List.filter_eq_self.mpr fun a ha => ?_
    have hne : a ≠ M.historyAttname name := fun heq => h.loaded _ hloaded (heq ▸ ha)
    simpa using hne
  refine ⟨hsame.trans h.deferred, fun a ha => ?_, h.seen, fun a ha hmem => ?_, ?_, h.adding⟩
  · simp only [HistoryModel.assign, touchLedger, h.values a ha]
  · exact h.loaded a ha (hsame ▸ hmem)
  · rw [← h.trail]
    simp only [trailSeen, HistoryModel.assign, hsame]

theorem Follows.read (h : M.Follows row loaded ledger inst) (a : String) :
    M.Follows row loaded (M.touchLedger ledger (.read a)) (M.read row inst a) := by
  rw [M.read_eq, touchLedger]
  by_cases hmem : a ∈ inst.deferred
  · rw [if_pos hmem, if_pos (by simpa [← h.deferred] using hmem)]
    exact h.fetch _
  · rw [if_neg hmem, if_neg (by simpa [← h.deferred] using hmem)]
    exact h

theorem Follows.close (h : M.Follows row loaded ledger inst) :
    M.Follows row loaded (M.closeLedger ledger) (M.settle row inst) := by
  rw [settle, closeLedger, h.deferred]
  split
  · exact h.fetch _
  · exact h

/-- The run lemma: a loaded instance follows its ledger through the touches. -/
theorem Follows.touches {touches : List Touch} (htouches : M.AssignsLoaded loaded touches)
    (h : M.Follows row loaded ledger inst) :
    M.Follows row loaded (touches.foldl M.touchLedger ledger)
      (touches.foldl (M.touch row) inst) := by
  induction touches generalizing ledger inst with
  | nil => exact h
  | cons touch touches ih =>
      have hrest : M.AssignsLoaded loaded touches :=
        fun name value hmem => htouches name value (List.mem_cons_of_mem _ hmem)
      cases touch with
      | assign name value =>
          exact ih hrest (h.assign (htouches name value (by simp)).2)
      | read a => exact ih hrest (h.read a)

/-! ### The save -/

theorem values_closeLedger (ledger : Ledger) : (M.closeLedger ledger).values = ledger.values := by
  unfold closeLedger
  split <;> rfl

/-- A loaded field is listed exactly when the diff looks at it and its value
at the last fetch was the loaded one. -/
theorem listed_iff {env : Env} {updateFields : Option (List String)} {verdict : Option PyError}
    {name : String} (h : M.Follows row loaded ledger inst)
    (hok : (M.save env row updateFields verdict inst).raised = none)
    (hname : name ∈ M.historyFields) (hloaded : M.historyAttname name ∈ loaded)
    (hstores : M.stores updateFields (M.historyAttname name) = true)
    (hmoved : (M.stored row name).pyNe (M.current inst name) = true) :
    M.Listed row (M.save env row updateFields verdict inst) name ↔
      M.selects updateFields name = true ∧
        jsonSafe ((M.closeLedger ledger).baseline (M.historyAttname name)) =
          M.stored row name := by
  let settled := M.settle row inst
  have hclosed : M.Follows row loaded (M.closeLedger ledger) settled := h.close
  have hfields := Instance.writtenFields_of_existing hclosed.adding updateFields
  have hcurrent : M.current settled name = M.current inst name := by
    rw [current, hclosed.values _ hloaded, values_closeLedger, ← h.values _ hloaded, current]
  rw [← hcurrent] at hmoved
  rw [← M.save_settle] at hok ⊢
  have hsaved := save_ok (M.trackedLoaded_settle row inst) (by simp [settled, hclosed.adding]) hok
  have hseen := hclosed.seen name hname hloaded
  constructor
  · rintro ⟨entry, hentry, -, change, hmem, hfield, hold, -⟩
    rw [hsaved.entry] at hentry
    obtain ⟨name', -, old, hseen', -, hsel, rfl⟩ :=
      ((M.changes_of_entryFor hclosed.adding hentry).1 change).mp hmem
    obtain rfl : name' = name := hfield
    rw [hseen, Option.some.injEq] at hseen'
    exact ⟨hsel, hseen'.trans hold⟩
  · rintro ⟨hsel, hbaseline⟩
    rw [hbaseline] at hseen
    obtain ⟨entry, hentry⟩ := M.exists_entryFor env hclosed.adding
      ⟨name, hname, _, hseen, hmoved, hsel⟩
    have hrow := hsaved.rowTrail
    rw [hsaved.entry, hentry, Option.isSome_some, Bool.true_or, if_pos rfl, trailAfter,
      hclosed.trail] at hrow
    refine ⟨entry, hsaved.entry.trans hentry, hrow, _,
      ((M.changes_of_entryFor hclosed.adding hentry).1 _).mpr
        ⟨name, hname, _, hseen, hmoved, hsel, rfl⟩, rfl, rfl, ?_⟩
    change M.current settled name = jsonSafe _
    rw [hsaved.cells _ (M.mem_trackedAttnames hname), hfields, hstores, if_pos rfl, current]

/-- Over every row, set of loaded columns and sequence of assignments and
reads: the save lists every loaded field it should exactly when each of them
is looked for under a name the save was given and had its loaded value at the
last fetch. -/
theorem deferred_load_listed_iff {env : Env} {defaults : String → FieldValue}
    {updateFields : Option (List String)} {verdict : Option PyError} {touches : List Touch}
    (hcolumns : ∀ a ∈ loaded, a ∈ M.columns) (htouches : M.AssignsLoaded loaded touches)
    (hinst : inst = touches.foldl (M.touch row) (M.fromDb row defaults loaded))
    (hok : (M.save env row updateFields verdict inst).raised = none) :
    (∀ name ∈ M.historyFields, M.historyAttname name ∈ loaded → M.Assigned touches name →
        M.stores updateFields (M.historyAttname name) = true →
          (M.stored row name).pyNe (M.current inst name) = true →
            M.Listed row (M.save env row updateFields verdict inst) name) ↔
      ∀ name ∈ M.historyFields, M.historyAttname name ∈ loaded → M.Assigned touches name →
        M.stores updateFields (M.historyAttname name) = true →
          (M.stored row name).pyNe (M.current inst name) = true →
            M.selects updateFields name = true ∧
              jsonSafe ((M.ledgerAt row loaded touches).baseline (M.historyAttname name)) =
                M.stored row name := by
  have hfollows : M.Follows row loaded (touches.foldl M.touchLedger (M.openLedger row loaded)) inst :=
    hinst ▸ (Follows.of_load defaults hcolumns).touches htouches
  refine forall₂_congr fun name hname => forall₄_congr fun hloaded _ hstores hmoved => ?_
  exact listed_iff hfollows hok hname hloaded hstores hmoved

/-! ### Two loads -/

def relabelling : List Touch := [.assign "label" (.str "after")]

def relabelledWidget (loaded : List String) : Instance :=
  relabelling.foldl (historyWidget.touch widgetRow)
    (historyWidget.fromDb widgetRow (fun _ => .none) loaded)

/-- `only("label")`: the save has to fetch the status, which re-baselines the
label it is about to compare. -/
theorem only_label_not_listed :
    ¬ historyWidget.Listed widgetRow
      (historyWidget.save ⟨"noon", {}⟩ widgetRow none none (relabelledWidget ["label"])) "label" ∧
      (historyWidget.save ⟨"noon", {}⟩ widgetRow none none (relabelledWidget ["label"])).raised =
        none ∧
      historyWidget.stores none (historyWidget.historyAttname "label") = true ∧
      (historyWidget.stored widgetRow "label").pyNe
        (historyWidget.current (relabelledWidget ["label"]) "label") = true := by
  refine ⟨?_, rfl, rfl, by decide +kernel⟩
  rintro ⟨entry, hentry, -⟩
  have hnone : (historyWidget.save ⟨"noon", {}⟩ widgetRow none none
      (relabelledWidget ["label"])).entry.isSome = false := by decide +kernel
  rw [hentry] at hnone
  exact absurd hnone Bool.noConfusion

def allButPayload : List String := ["is_deleted", "label", "status", "owner_id", "change_history"]

/-- `defer("payload")`: nothing has to be fetched and the label is listed. -/
theorem defer_payload_listed :
    historyWidget.Listed widgetRow
      (historyWidget.save ⟨"noon", {}⟩ widgetRow none none (relabelledWidget allButPayload))
      "label" := by
  have htouches : historyWidget.AssignsLoaded allButPayload relabelling := by
    intro name value hmem
    obtain ⟨rfl, rfl⟩ := Touch.assign.inj (List.mem_singleton.mp hmem)
    exact ⟨by decide, by decide⟩
  have hinst : relabelledWidget allButPayload = relabelling.foldl (historyWidget.touch widgetRow)
      (historyWidget.fromDb widgetRow (fun _ => .none) allButPayload) := rfl
  have hok : (historyWidget.save ⟨"noon", {}⟩ widgetRow none none
      (relabelledWidget allButPayload)).raised = none := rfl
  have hmoved : (historyWidget.stored widgetRow "label").pyNe
      (historyWidget.current (relabelledWidget allButPayload) "label") = true := by decide +kernel
  have hassigned : historyWidget.Assigned relabelling "label" :=
    ⟨"label", .str "after", by simp [relabelling], rfl⟩
  have hiff := deferred_load_listed_iff (by decide) htouches hinst hok
  refine hiff.mpr (fun name hname _ _ _ _ => ⟨rfl, ?_⟩) "label" (by decide) (by decide) hassigned
    rfl hmoved
  rfl

end HistoryModel

end NetixBackend.ChangeHistory
