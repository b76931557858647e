import NetixBackend.Env
import NetixBackend.Effects.Signals
import NetixBackend.Effects.Transaction
import NetixBackend.Transition.System

/-!
The statement timeout of new connections, behind a connection pool.

Processes connect through a pool that hands one server connection from client to
client and leaves its session settings as they are. `install` registers a
receiver that sets the ceiling on every new connection of its process. Whether
the ceiling that a client gets is its own, or one that some client before it has
left, is then a matter of what its process has installed, and of nothing that
any other process does.

The signal `connection_created` is not of this package: what keeps its receivers
is a parameter. It calls them in order and lets what one of them raises escape;
the connection is open by then, and stays under what has been set so far.
-/

namespace NetixBackend.DbTimeout

open Effects Transition

def dbStatementTimeoutMs : ℤ := 30000
def statementTimeoutEnv : String := "DB_STATEMENT_TIMEOUT_MS"

def migrationCommands : List String :=
  ["migrate", "makemigrations", "sqlmigrate", "showmigrations", "squashmigrations"]

/-- The command of `manage.py` comes second. -/
def isMigrationProcess : List String → Bool
  | _ :: command :: _ => command ∈ migrationCommands
  | _ => false

section Process

-- the receivers of `connection_created` by their `dispatch_uid`, each with its `timeout_ms`
variable (signal : Dispatcher String (Option ℤ))

structure Process where
  argv : List String
  environ : Environ
  table : signal.Table := signal.empty

variable {signal}

/-- The ceiling in milliseconds; 0 is none. -/
def Process.statementTimeoutMs (p : Process signal) (default : ℤ) : Except ConfigurationError ℤ :=
  if isMigrationProcess p.argv then .ok 0 else p.environ.int statementTimeoutEnv default

/-- The ceiling of a receiver, pinned or the one of the process. -/
def Process.ceiling (p : Process signal) (timeoutMs : Option ℤ) : Except ConfigurationError ℤ :=
  match timeoutMs with
  | some timeoutMs => .ok timeoutMs
  | none => p.statementTimeoutMs dbStatementTimeoutMs

inductive ConnectError
  | configuration (error : ConfigurationError)
  /-- The server refuses the value. -/
  | database

/-- What a session does to the `statement_timeout` of its server connection. -/
abbrev Session (α : Type) := Tx ConnectError ℤ α

section Connecting

-- the values that the server takes
variable (accepts : ℤ → Bool)

/-- `cursor.execute("SET statement_timeout = ...")` -/
def execute (ceiling : ℤ) : Session Unit := fun current =>
  if accepts ceiling then (.ok (), ceiling) else (.error .database, current)

def applyStatementTimeout (p : Process signal) (vendor : String) (timeoutMs : Option ℤ) : Session Unit :=
  if vendor ≠ "postgresql" then Tx.ret ()
  else (Tx.ofExcept ((p.ceiling timeoutMs).mapError .configuration)).andThen (execute accepts)

/-- The receivers of a new connection, up to the first that raises. -/
def connectionCreated (p : Process signal) (vendor : String) : Session Unit :=
  Tx.each (signal.receivers p.table) fun receiver =>
    applyStatementTimeout accepts p vendor receiver.2

end Connecting

def Process.install (p : Process signal) (timeoutMs : Option ℤ) (dispatchUid : String) :
    Process signal :=
  { p with table := signal.connect p.table dispatchUid timeoutMs }

def Process.uninstall (p : Process signal) (dispatchUid : String) : Process signal :=
  { p with table := signal.disconnect p.table dispatchUid }

/-! ### One connection -/

variable {accepts : ℤ → Bool} {p : Process signal} {current : ℤ}

/-- A receiver that can do its work. -/
def Process.Sets (accepts : ℤ → Bool) (p : Process signal) (timeoutMs : Option ℤ) (ceiling : ℤ) : Prop :=
  p.ceiling timeoutMs = .ok ceiling ∧ accepts ceiling = true

theorem apply_of_sets {timeoutMs : Option ℤ} {ceiling : ℤ} (h : p.Sets accepts timeoutMs ceiling)
    (current : ℤ) : applyStatementTimeout accepts p "postgresql" timeoutMs current = (.ok (), ceiling) := by
  unfold applyStatementTimeout
  rw [if_neg (by simp)]
  simp [Tx.andThen, Tx.ofExcept, Tx.read, Except.mapError, h.1, execute, h.2]

theorem sets_of_apply {timeoutMs : Option ℤ}
    (h : Tx.outcome (applyStatementTimeout accepts p "postgresql" timeoutMs) current = .ok ()) :
    ∃ ceiling, p.Sets accepts timeoutMs ceiling := by
  unfold applyStatementTimeout at h
  rw [if_neg (by simp)] at h
  cases hceiling : p.ceiling timeoutMs with
  | error error =>
      simp [Tx.outcome, Tx.andThen, Tx.ofExcept, Tx.read, Except.mapError, hceiling] at h
  | ok ceiling =>
      refine ⟨ceiling, hceiling, ?_⟩
      by_contra hrefused
      simp [Tx.outcome, Tx.andThen, Tx.ofExcept, Tx.read, Except.mapError, hceiling, execute,
        hrefused] at h

/-- A session leaves what was there, or a ceiling that one of the receivers sets. -/
def Process.Leaves (accepts : ℤ → Bool) (p : Process signal) (receivers : List (String × Option ℤ))
    (current after : ℤ) : Prop :=
  after = current ∨ ∃ receiver ∈ receivers, p.Sets accepts receiver.2 after

section

variable {receivers : List (String × Option ℤ)}

instance : Std.Refl (p.Leaves accepts receivers) := ⟨fun _ => .inl rfl⟩

instance : IsTrans ℤ (p.Leaves accepts receivers) :=
  ⟨fun _ _ _ hfirst hsecond => hsecond.elim (fun heq => heq ▸ hfirst) .inr⟩

theorem leaves_apply {receiver : String × Option ℤ} (hmem : receiver ∈ receivers) :
    Tx.Within (p.Leaves accepts receivers)
      (applyStatementTimeout accepts p "postgresql" receiver.2) := by
  intro current
  by_cases hsets : ∃ ceiling, p.Sets accepts receiver.2 ceiling
  · obtain ⟨ceiling, hceiling⟩ := hsets
    rw [Tx.after, apply_of_sets hceiling]
    exact .inr ⟨receiver, hmem, hceiling⟩
  · left
    unfold applyStatementTimeout
    rw [if_neg (by simp)]
    cases hceiling : p.ceiling receiver.2 with
    | error error => simp [Tx.after, Tx.andThen, Tx.ofExcept, Tx.read, Except.mapError]
    | ok ceiling =>
        have hrefused : accepts ceiling = false := by
          by_contra haccepted
          exact hsets ⟨ceiling, hceiling, by simpa using haccepted⟩
        simp [Tx.after, Tx.andThen, Tx.ofExcept, Tx.read, Except.mapError, execute, hrefused]

end

/-- The receivers one after another: they go through exactly if each can do its
work, and the last has the last word. -/
theorem each_receivers (receivers : List (String × Option ℤ)) (current : ℤ) :
    let session := Tx.each receivers fun receiver =>
      applyStatementTimeout accepts p "postgresql" receiver.2
    (Tx.outcome session current = .ok () ↔
      ∀ receiver ∈ receivers, ∃ ceiling, p.Sets accepts receiver.2 ceiling) ∧
    (Tx.outcome session current = .ok () →
      match receivers.getLast? with
      | none => Tx.after session current = current
      | some receiver => p.Sets accepts receiver.2 (Tx.after session current)) := by
  induction receivers generalizing current with
  | nil => exact ⟨⟨fun _ receiver hmem => absurd hmem List.not_mem_nil, fun _ => rfl⟩, fun _ => rfl⟩
  | cons receiver rest ih =>
      intro session
      by_cases hsets : ∃ ceiling, p.Sets accepts receiver.2 ceiling
      · obtain ⟨ceiling, hceiling⟩ := hsets
        have hrest : session current = (Tx.each rest fun receiver =>
            applyStatementTimeout accepts p "postgresql" receiver.2) ceiling := by
          change Tx.andThen _ _ current = _
          simp only [Tx.andThen, apply_of_sets hceiling]
        obtain ⟨hiff, hlast⟩ := ih ceiling
        have houtcome := congrArg Prod.fst hrest
        have hafter := congrArg Prod.snd hrest
        refine ⟨?_, fun hok => ?_⟩
        · rw [List.forall_mem_cons]
          refine (Iff.of_eq (congrArg (· = Except.ok ()) houtcome)).trans (hiff.trans ?_)
          exact ⟨fun h => ⟨⟨ceiling, hceiling⟩, h⟩, fun h => h.2⟩
        · have hrestLast := hlast (houtcome.symm.trans hok)
          cases rest with
          | nil =>
              change p.Sets accepts receiver.2 (session current).2
              rw [hafter]
              exact hceiling
          | cons next rest =>
              rw [List.getLast?_cons_cons]
              change match (next :: rest).getLast? with
                | none => (session current).2 = current
                | some receiver => p.Sets accepts receiver.2 (session current).2
              rw [hafter]
              cases hget : (next :: rest).getLast? with
              | none => exact absurd (List.getLast?_eq_none_iff.mp hget) (List.cons_ne_nil _ _)
              | some last =>
                  rw [hget] at hrestLast
                  exact hrestLast
      · have hfails : Tx.outcome session current ≠ .ok () := by
          intro hok
          obtain ⟨_, hfirst, -⟩ := Tx.outcome_bind_ok
            (m := applyStatementTimeout accepts p "postgresql" receiver.2) hok
          exact hsets (sets_of_apply hfirst)
        refine ⟨⟨fun hok => absurd hok hfails, fun h => ?_⟩, fun hok => absurd hok hfails⟩
        exact absurd (h receiver List.mem_cons_self) hsets

/-! ### The pool -/

variable (signal) in
structure Pool where
  processes : ℕ → Process signal
  /-- The `statement_timeout` of each server connection. -/
  servers : ℕ → ℤ

inductive PoolEvent
  | install (process : ℕ) (timeoutMs : Option ℤ) (dispatchUid : String)
  | uninstall (process : ℕ) (dispatchUid : String)
  | setenv (process : ℕ) (environ : Environ)
  /-- A process connects and is given a server connection. -/
  | connect (process : ℕ) (vendor : String) (server : ℕ)
  /-- A client leaves a setting of its own. -/
  | leave (server : ℕ) (timeout : ℤ)

def Pool.update (w : Pool signal) (process : ℕ) (p : Process signal) : Pool signal :=
  { w with processes := Function.update w.processes process p }

def Pool.next (accepts : ℤ → Bool) (w : Pool signal) : PoolEvent → Pool signal
  | .install process timeoutMs dispatchUid =>
      w.update process ((w.processes process).install timeoutMs dispatchUid)
  | .uninstall process dispatchUid => w.update process ((w.processes process).uninstall dispatchUid)
  | .setenv process environ => w.update process { w.processes process with environ := environ }
  | .connect process vendor server =>
      let session := connectionCreated accepts (w.processes process) vendor
      { w with servers := Function.update w.servers server (Tx.after session (w.servers server)) }
  | .leave server timeout => { w with servers := Function.update w.servers server timeout }

variable (signal) in
def pooling (accepts : ℤ → Bool) : System (Pool signal) PoolEvent where
  init w := ∀ process, (w.processes process).table = signal.empty
  step w event w' := w' = w.next accepts event

/-- What a process has registered and removed. -/
def PoolEvent.registration? (process : ℕ) : PoolEvent → Option (Registration String (Option ℤ))
  | .install process' timeoutMs dispatchUid =>
      if process' = process then some (.connect dispatchUid timeoutMs) else none
  | .uninstall process' dispatchUid =>
      if process' = process then some (.disconnect dispatchUid) else none
  | _ => none

def registrations (process : ℕ) (events : List PoolEvent) : List (Registration String (Option ℤ)) :=
  events.filterMap (PoolEvent.registration? process)

variable {w : Pool signal} {events : List PoolEvent}

/-- One event does to the receivers of a process what it registers there. -/
theorem table_next (w : Pool signal) (event : PoolEvent) (process : ℕ) :
    ((w.next accepts event).processes process).table =
      Registration.applyAll signal (w.processes process).table
        (event.registration? process).toList := by
  cases event with
  | install process' timeoutMs dispatchUid =>
      by_cases hprocess : process' = process
      · subst hprocess
        simp [Pool.next, Pool.update, PoolEvent.registration?, Registration.applyAll,
          Registration.apply, Process.install]
      · simp [Pool.next, Pool.update, PoolEvent.registration?, Registration.applyAll, hprocess,
          Function.update_of_ne (Ne.symm hprocess)]
  | uninstall process' dispatchUid =>
      by_cases hprocess : process' = process
      · subst hprocess
        simp [Pool.next, Pool.update, PoolEvent.registration?, Registration.applyAll,
          Registration.apply, Process.uninstall]
      · simp [Pool.next, Pool.update, PoolEvent.registration?, Registration.applyAll, hprocess,
          Function.update_of_ne (Ne.symm hprocess)]
  | setenv process' environ =>
      by_cases hprocess : process' = process
      · subst hprocess
        simp [Pool.next, Pool.update, PoolEvent.registration?, Registration.applyAll]
      · simp [Pool.next, Pool.update, PoolEvent.registration?, Registration.applyAll,
          Function.update_of_ne (Ne.symm hprocess)]
  | connect process' vendor server => rfl
  | leave server timeout => rfl

theorem table_inductive :
    (pooling signal accepts).traced.Inductive fun run => ∀ process,
      (run.1.processes process).table =
        Registration.applyAll signal signal.empty (registrations process run.2) where
  init := by
    rintro ⟨w, events⟩ ⟨hinit, rfl⟩ process
    exact hinit process
  step := by
    rintro ⟨w, events⟩ event ⟨w', events'⟩ h ⟨hstep, rfl⟩ process
    change w' = w.next accepts event at hstep
    have hprefix : (w.processes process).table =
        Registration.applyAll signal signal.empty (registrations process events) := h process
    have hevents : registrations process (events ++ [event]) =
        registrations process events ++ (event.registration? process).toList := by
      rw [registrations, List.filterMap_append]
      cases hregistration : event.registration? process <;> simp [registrations, hregistration]
    change (w'.processes process).table =
      Registration.applyAll signal signal.empty (registrations process (events ++ [event]))
    rw [hstep, table_next, hprefix, hevents, Registration.applyAll, Registration.applyAll,
      Registration.applyAll, List.foldl_append]

/-- The receivers of a process are those that stand. -/
theorem mem_receivers_iff (hkeyed : signal.Keyed)
    (h : (pooling signal accepts).traced.Reachable (w, events)) (process : ℕ)
    (dispatchUid : String) (timeoutMs : Option ℤ) :
    (dispatchUid, timeoutMs) ∈ signal.receivers (w.processes process).table ↔
      Registration.standing dispatchUid (registrations process events) = some timeoutMs := by
  rw [show (w.processes process).table = _ from table_inductive.reachable h process]
  exact Registration.mem_receivers_applyAll hkeyed (registrations process events)

/-- Through any history of a pool: what a process has registered under a name is
its own first `install` since its last `uninstall` of that name; the receivers of
a Postgres connection go through exactly when each of these can do its work; the
connection then runs under the ceiling of one of them, whatever a client has left
on the server connection, or, if nothing is registered, under just that; and if
one raises, it is left under what was there or the ceiling of one of them. -/
theorem connection_ceiling (hkeyed : signal.Keyed)
    (h : (pooling signal accepts).traced.Reachable (w, events)) (process : ℕ) :
    let standing := fun dispatchUid =>
      Registration.standing dispatchUid (registrations process events)
    let session := connectionCreated accepts (w.processes process) "postgresql"
    (∀ current, Tx.outcome session current = .ok () ↔
      ∀ dispatchUid timeoutMs, standing dispatchUid = some timeoutMs →
        ∃ ceiling, (w.processes process).Sets accepts timeoutMs ceiling) ∧
    (((∀ dispatchUid, standing dispatchUid = none) ∧ ∀ current, session current = (.ok (), current)) ∨
      ∃ dispatchUid timeoutMs, standing dispatchUid = some timeoutMs ∧
        ∀ current, Tx.outcome session current = .ok () →
          (w.processes process).Sets accepts timeoutMs (Tx.after session current)) ∧
    ∀ current, Tx.after session current = current ∨
      ∃ dispatchUid timeoutMs, standing dispatchUid = some timeoutMs ∧
        (w.processes process).Sets accepts timeoutMs (Tx.after session current) := by
  intro standing session
  let receivers := signal.receivers (w.processes process).table
  have hmem := mem_receivers_iff hkeyed h process
  have heach := fun current =>
    @each_receivers signal accepts (w.processes process) receivers current
  refine ⟨fun current => (heach current).1.trans ?_, ?_, fun current => ?_⟩
  · constructor
    · intro hsets dispatchUid timeoutMs hstanding
      exact hsets _ ((hmem dispatchUid timeoutMs).mpr hstanding)
    · intro hsets receiver hreceiver
      exact hsets receiver.1 receiver.2 ((hmem receiver.1 receiver.2).mp hreceiver)
  · cases hlast : receivers.getLast? with
    | none =>
        have hnil : receivers = [] := List.getLast?_eq_none_iff.mp hlast
        refine .inl ⟨fun dispatchUid => ?_, fun current => ?_⟩
        · refine Option.eq_none_iff_forall_ne_some.mpr fun timeoutMs hstanding => ?_
          have hreceiver : (dispatchUid, timeoutMs) ∈ receivers := (hmem _ _).mpr hstanding
          rw [hnil] at hreceiver
          exact List.not_mem_nil hreceiver
        · change Tx.each receivers _ current = _
          rw [hnil]
          rfl
    | some receiver =>
        have hreceiver : receiver ∈ receivers := List.mem_of_getLast? hlast
        refine .inr ⟨receiver.1, receiver.2, (hmem _ _).mp hreceiver, fun current hok => ?_⟩
        have hsets := (heach current).2 hok
        rw [hlast] at hsets
        exact hsets
  · have hwithin : Tx.Within ((w.processes process).Leaves accepts receivers) session :=
      .each fun receiver hreceiver => leaves_apply hreceiver
    rcases hwithin current with hsame | ⟨receiver, hreceiver, hsets⟩
    · exact .inl hsame
    · exact .inr ⟨receiver.1, receiver.2, (hmem _ _).mp hreceiver, hsets⟩

end Process

/-! ### Two clients of one server connection -/

abbrev exampleSignal : Dispatcher String (Option ℤ) := listDispatcher String (Option ℤ)

/-- A worker that installs twice under one name, and a migration. -/
def workerAndMigration : Pool exampleSignal where
  processes process :=
    if process = 0 then { argv := ["uvicorn", "app.asgi:application"], environ := fun _ => none }
    else { argv := ["manage.py", "migrate"], environ := fun _ => none }
  servers _ := 0

def sharedHistory : List PoolEvent :=
  [.install 0 none "db_timeout", .install 0 (some 5000) "db_timeout", .install 1 none "db_timeout",
    .leave 7 1, .connect 0 "postgresql" 7]

def sharedPool : Pool exampleSignal := sharedHistory.foldl (Pool.next fun _ => true) workerAndMigration

/-- A history is a run. -/
theorem reachable_foldl {signal : Dispatcher String (Option ℤ)} {accepts : ℤ → Bool}
    {w : Pool signal} (hinit : (pooling signal accepts).init w) (events : List PoolEvent) :
    (pooling signal accepts).traced.Reachable (events.foldl (Pool.next accepts) w, events) := by
  induction events using List.reverseRecOn with
  | nil => exact .of_init ⟨hinit, rfl⟩
  | append_singleton events event ih =>
      refine ih.next ⟨?_, rfl⟩
      change (events ++ [event]).foldl (Pool.next accepts) w =
        (events.foldl (Pool.next accepts) w).next accepts event
      rw [List.foldl_append]
      rfl

theorem connection_ceiling_sharedPool :
    sharedPool.servers 7 = 30000 ∧
      ∀ current, Tx.outcome (connectionCreated (fun _ => true) (sharedPool.processes 1) "postgresql")
          current = .ok () ↔
        ∀ dispatchUid timeoutMs,
          Registration.standing dispatchUid (registrations 1 sharedHistory) = some timeoutMs →
            ∃ ceiling, (sharedPool.processes 1).Sets (fun _ => true) timeoutMs ceiling := by
  have hinit : (pooling exampleSignal fun _ => true).init workerAndMigration := fun process => by
    change (if process = 0 then _ else _ : Process exampleSignal).table = exampleSignal.empty
    split <;> rfl
  exact ⟨by decide +kernel,
    (connection_ceiling listDispatcher_keyed (reachable_foldl hinit sharedHistory) 1).1⟩

/-- The migration clears the ceiling that the worker has left. -/
example : (sharedPool.next (fun _ => true) (.connect 1 "postgresql" 7)).servers 7 = 0 := by
  decide +kernel

end NetixBackend.DbTimeout
