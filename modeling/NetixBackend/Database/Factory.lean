import NetixBackend.Env
import NetixBackend.Python.Dict

/-!
Postgres `DATABASES` aliases.

Every knob of `postgres_database` is a literal, an environment read or `OMIT`.
What Django is given is a Python object of any kind, so the objects are a type
with the few operations the factories use; its equality is Python's `==`.
-/

namespace NetixBackend.Database

open Python

inductive Raised
  /-- `os.environ[var]` of a variable that is not set. -/
  | keyError (var : String)
  | typeError
  /-- Anything else, raised by a cast. -/
  | other (name : String)

/-- One environment read. -/
structure FromEnv (α : Type*) where
  var : String
  /-- `none` is `REQUIRED`. -/
  default : Option α := none
  cast : Option (α → Except Raised α) := none

/-- The Python objects an alias can hold. -/
class PyObject (α : Type*) where
  none : α
  bool : Bool → α
  int : ℤ → α
  str : String → α
  dict : Dict String α → α
  /-- A `FromEnv` that nobody resolved. -/
  fromEnv : FromEnv α → α
  /-- What `dict.update` reads from an object. -/
  entries : α → Except Raised (Dict String α)
  /-- `==` of two dicts does not look at the order of their keys. -/
  dict_congr : ∀ d e : Dict String α, (∀ key, d.get? key = e.get? key) → dict d = dict e
  entries_dict : ∀ d : Dict String α, ∃ e, entries (dict d) = .ok e ∧ ∀ key, e.get? key = d.get? key

/-- What a knob is set to. -/
inductive Value (α : Type*)
  | literal (object : α)
  | fromEnv (read : FromEnv α)

inductive Knob (α : Type*)
  | omitted
  | value (value : Value α)

variable {α : Type*} [PyObject α] (environ : Environ)

/-- Raw `os.environ`, not `Environ.lookup`: an empty variable stays empty. -/
def FromEnv.resolve (read : FromEnv α) : Except Raised α := do
  let raw ← match environ read.var, read.default with
    | some text, _ => .ok (PyObject.str text)
    | none, some default => .ok default
    | none, none => .error (.keyError read.var)
  match read.cast with
  | some cast => cast raw
  | none => .ok raw

/-- `_resolve`. -/
def resolve : Value α → Except Raised α
  | .literal object => .ok object
  | .fromEnv read => read.resolve environ

/-- `_put`. -/
def put (entry : Dict String α) (key : String) : Knob α → Except Raised (Dict String α)
  | .omitted => .ok entry
  | .value value => do
      let object ← resolve environ value
      .ok (entry.set key object)

/-- `_override`. -/
def override (entry : Dict String α) (key : String) : Knob α → Except Raised (Dict String α)
  | .omitted => .ok (entry.filterKeys (· ≠ key))
  | .value value => do
      let object ← resolve environ value
      .ok (entry.set key object)

/-- The object a knob is set to, a `FromEnv` being one too. -/
def Value.object : Value α → α
  | .literal object => object
  | .fromEnv read => PyObject.fromEnv read

/-- A knob is stored as it is, unresolved. -/
def putRaw (entry : Dict String α) (key : String) : Knob α → Dict String α
  | .omitted => entry
  | .value value => entry.set key value.object

/-- `_options` once a member is set. A `FromEnv` is no mapping to merge. -/
def mergeOptions (prepareThreshold connectTimeout options : Knob α) :
    Except Raised (Dict String α) := do
  let resolved ← put environ (putRaw Dict.empty "prepare_threshold" prepareThreshold)
    "connect_timeout" connectTimeout
  match options with
  | .omitted => .ok resolved
  | .value (.literal object) => do
      let members ← PyObject.entries object
      .ok (resolved.update members)
  | .value (.fromEnv _) => .error .typeError

/-- `_options`. -/
def options (prepareThreshold connectTimeout options : Knob α) :
    Except Raised (Option (Dict String α)) :=
  match prepareThreshold, connectTimeout, options with
  | .omitted, .omitted, .omitted => .ok none
  | _, _, _ => (mergeOptions environ prepareThreshold connectTimeout options).map some

/-- `_ordered`. -/
def ordered (entry : Dict String α) (keyOrder : Option (List String)) : Dict String α :=
  match keyOrder with
  | none => entry
  | some keys =>
      let ordered := Dict.ofPairs (keys.filterMap fun key => (entry.get? key).map (key, ·))
      ordered.update entry

/-- The keyword arguments of a call. -/
abbrev Keywords (α : Type*) := Dict String (Knob α)

/-- The defaults in the signature of `postgres_database`. -/
def signature : List (String × Knob α) := [
  ("engine", .value (.literal (PyObject.str "django.db.backends.postgresql"))),
  ("name", .value (.fromEnv { var := "POSTGRES_NAME" })),
  ("user", .value (.fromEnv { var := "POSTGRES_USER" })),
  ("password", .value (.fromEnv { var := "POSTGRES_PASSWORD" })),
  ("host", .value (.fromEnv { var := "POSTGRES_HOST" })),
  ("port", .value (.fromEnv { var := "POSTGRES_PORT" })),
  ("atomic_requests", .value (.literal (PyObject.bool false))),
  ("disable_server_side_cursors", .value (.literal (PyObject.bool true))),
  ("conn_max_age", .value (.literal (PyObject.int 0))),
  ("conn_health_checks", .omitted),
  ("prepare_threshold", .value (.literal PyObject.none)),
  ("connect_timeout", .omitted),
  ("options", .omitted),
  ("test", .omitted)]

/-- The value of a parameter in a call. -/
def argument (kw : Keywords α) (name : String) : Knob α :=
  (kw.get? name).getD ((signature.lookup name).getD .omitted)

/-- The parameters that have a key of their own in the alias, in its order. -/
def topKnobs : List (String × String) := [
  ("engine", "ENGINE"),
  ("name", "NAME"),
  ("user", "USER"),
  ("password", "PASSWORD"),
  ("host", "HOST"),
  ("port", "PORT"),
  ("conn_max_age", "CONN_MAX_AGE"),
  ("conn_health_checks", "CONN_HEALTH_CHECKS"),
  ("atomic_requests", "ATOMIC_REQUESTS"),
  ("disable_server_side_cursors", "DISABLE_SERVER_SIDE_CURSORS")]

/-- The arguments of a call that have a key of their own, under that key. -/
def topPairs (kw : Keywords α) : List (String × Knob α) :=
  topKnobs.map fun knob => (knob.2, argument kw knob.1)

def putAll (entry : Dict String α) (pairs : List (String × Knob α)) :
    Except Raised (Dict String α) :=
  pairs.foldlM (fun entry pair => put environ entry pair.1 pair.2) entry

def overrideAll (entry : Dict String α) (pairs : List (String × Knob α)) :
    Except Raised (Dict String α) :=
  pairs.foldlM (fun entry pair => override environ entry pair.1 pair.2) entry

/-- `postgres_database(**kw, extra=extra, key_order=key_order)`. -/
def postgresDatabase (kw : Keywords α) (extra : Dict String α := Dict.empty)
    (keyOrder : Option (List String) := none) : Except Raised (Dict String α) := do
  let entry ← putAll environ Dict.empty (topPairs kw)
  let resolvedOptions ← options environ (argument kw "prepare_threshold")
    (argument kw "connect_timeout") (argument kw "options")
  let entry := match resolvedOptions with
    | none => entry
    | some members => entry.set "OPTIONS" (PyObject.dict members)
  let entry ← put environ entry "TEST" (argument kw "test")
  .ok (ordered (entry.update extra) keyOrder)

/-- The keys `replica_of` has parameters for. -/
def ownPairs (host port test : Knob α) : List (String × Knob α) :=
  [("HOST", host), ("PORT", port), ("TEST", test)]

/-- `key.upper()`, of a name in ASCII. -/
def upper (key : String) : String := String.ofList (key.toList.map Char.toUpper)

/-- The overrides under the keys they are stored at. -/
def upperPairs (overrides : Keywords α) : List (String × Knob α) :=
  overrides.items.map fun item => (upper item.1, item.2)

/-- `replica_of`. -/
def replicaOf (primary : Dict String α) (host port : Knob α) (overrides : Keywords α)
    (test : Knob α := .omitted) : Except Raised (Dict String α) := do
  let replica ← overrideAll environ primary (ownPairs host port test)
  overrideAll environ replica (upperPairs overrides)

/-! ### What a knob reads -/

variable {environ} {entry : Dict String α} {knob : Knob α} {pairs : List (String × Knob α)}

/-- The object a knob puts in its place, if any. -/
def Knob.read (environ : Environ) : Knob α → Except Raised (Option α)
  | .omitted => .ok none
  | .value v => (resolve environ v).map some

def Knob.Readable (environ : Environ) (knob : Knob α) : Prop :=
  ∃ found, knob.read environ = .ok found

instance : Decidable (knob.Readable environ) :=
  match h : knob.read environ with
  | .ok found => .isTrue ⟨found, h⟩
  | .error _ => .isFalse fun hread => by
      obtain ⟨found, hfound⟩ := hread
      cases h.symm.trans hfound

/-- What a readable knob puts in its place. -/
def Knob.found (environ : Environ) (knob : Knob α) : Option α :=
  match knob.read environ with
  | .ok found => found
  | .error _ => none

theorem Knob.read_of_readable (h : knob.Readable environ) :
    knob.read environ = .ok (knob.found environ) := by
  obtain ⟨found, hread⟩ := h
  rw [hread, Knob.found, hread]

theorem Knob.error_of_not_readable (h : ¬knob.Readable environ) :
    ∃ raised, knob.read environ = .error raised := by
  cases hread : knob.read environ with
  | error raised => exact ⟨raised, rfl⟩
  | ok found => exact absurd ⟨found, hread⟩ h

theorem Knob.readable_omitted : (Knob.omitted : Knob α).Readable environ := ⟨none, rfl⟩

theorem Knob.found_eq_none_iff (h : knob.Readable environ) :
    knob.found environ = none ↔ knob = .omitted := by
  have hread := Knob.read_of_readable h
  cases knob with
  | omitted => simp [Knob.found, Knob.read]
  | value v =>
      rw [Knob.read] at hread
      cases hresolve : resolve environ v with
      | error raised =>
          rw [hresolve] at hread
          cases hread
      | ok object =>
          rw [hresolve] at hread
          have hfound : some object = (Knob.value v).found environ := Except.ok.inj hread
          simp [← hfound]

/-- A key is put if there is something to put. -/
def putFound {β : Type*} (entry : Dict String β) (key : String) (found : Option β) : Dict String β :=
  found.elim entry (entry.set key)

/-- A key is overridden by what there is, nothing included. -/
def overrideFound {β : Type*} (entry : Dict String β) (key : String) (found : Option β) :
    Dict String β :=
  found.elim (entry.filterKeys (· ≠ key)) (entry.set key)

theorem get?_putFound {β : Type*} (entry : Dict String β) (key : String) (found : Option β)
    (key' : String) :
    (putFound entry key found).get? key' =
      if key' = key then found.or (entry.get? key) else entry.get? key' := by
  cases found with
  | none => simp +contextual [putFound]
  | some object => simp [putFound]

theorem get?_overrideFound {β : Type*} (entry : Dict String β) (key : String) (found : Option β)
    (key' : String) :
    (overrideFound entry key found).get? key' =
      if key' = key then found.or none else entry.get? key' := by
  cases found with
  | none => by_cases hkey : key' = key <;> simp [overrideFound, hkey]
  | some object => simp [overrideFound]

theorem put_eq (entry : Dict String α) (key : String) (knob : Knob α) :
    put environ entry key knob = (knob.read environ).map (putFound entry key) := by
  cases knob with
  | omitted => rfl
  | value v => cases hresolve : resolve environ v <;> simp [put, Knob.read, hresolve] <;> rfl

theorem override_eq (entry : Dict String α) (key : String) (knob : Knob α) :
    override environ entry key knob = (knob.read environ).map (overrideFound entry key) := by
  cases knob with
  | omitted => rfl
  | value v => cases hresolve : resolve environ v <;> simp [override, Knob.read, hresolve] <;> rfl

/-! ### One key after the other -/

section ReadAll

variable (update : Dict String α → String → Option α → Dict String α) (keep : Option α → Option α)

/-- What a sequence of steps leaves under each key, where a step sets its key to
what its knob reads; `keep` is what remains of the value before if that is nothing. -/
theorem foldlM_read_ok (entry : Dict String α)
    (hupdate : ∀ entry key found key', (update entry key found).get? key' =
      if key' = key then found.or (keep (entry.get? key)) else entry.get? key')
    (hnodup : (pairs.map Prod.fst).Nodup) (h : ∀ pair ∈ pairs, pair.2.Readable environ) :
    ∃ result, pairs.foldlM
        (fun entry pair => (pair.2.read environ).map (update entry pair.1)) entry = .ok result ∧
      ∀ key, result.get? key = (pairs.lookup key).elim (entry.get? key)
        fun knob => (knob.found environ).or (keep (entry.get? key)) := by
  induction pairs generalizing entry with
  | nil => exact ⟨entry, rfl, fun key => rfl⟩
  | cons pair pairs ih =>
      obtain ⟨name, knob⟩ := pair
      have hread := Knob.read_of_readable (h (name, knob) (by simp))
      obtain ⟨result, hresult, hget⟩ := ih (update entry name (knob.found environ))
        (List.nodup_cons.mp hnodup).2 fun pair hpair => h pair (List.mem_cons_of_mem _ hpair)
      refine ⟨result, ?_, fun key => ?_⟩
      · rw [List.foldlM_cons, hread]
        exact hresult
      · rw [hget key, lookup_cons_ite, hupdate]
        by_cases hkey : key = name
        · subst hkey
          simp [lookup_eq_none_iff_not_mem.mpr (List.nodup_cons.mp hnodup).1]
        · simp [hkey]

theorem foldlM_read_error (entry : Dict String α) (h : ¬∀ pair ∈ pairs, pair.2.Readable environ) :
    ∃ raised, pairs.foldlM
      (fun entry pair => (pair.2.read environ).map (update entry pair.1)) entry = .error raised := by
  induction pairs generalizing entry with
  | nil => exact absurd (fun pair hpair => absurd hpair List.not_mem_nil) h
  | cons pair pairs ih =>
      obtain ⟨name, knob⟩ := pair
      rw [List.foldlM_cons]
      by_cases hknob : knob.Readable environ
      · rw [Knob.read_of_readable hknob]
        refine ih _ fun hrest => h fun pair hpair => ?_
        rcases List.mem_cons.mp hpair with rfl | hpair
        · exact hknob
        · exact hrest pair hpair
      · obtain ⟨raised, hread⟩ := Knob.error_of_not_readable hknob
        rw [hread]
        exact ⟨raised, rfl⟩

end ReadAll

theorem putAll_ok (entry : Dict String α) (hnodup : (pairs.map Prod.fst).Nodup)
    (h : ∀ pair ∈ pairs, pair.2.Readable environ) :
    ∃ result, putAll environ entry pairs = .ok result ∧ ∀ key, result.get? key =
      (pairs.lookup key).elim (entry.get? key)
        fun knob => (knob.found environ).or (entry.get? key) := by
  simp only [putAll, put_eq]
  exact foldlM_read_ok putFound id entry get?_putFound hnodup h

theorem putAll_error (entry : Dict String α) (h : ¬∀ pair ∈ pairs, pair.2.Readable environ) :
    ∃ raised, putAll environ entry pairs = .error raised := by
  simp only [putAll, put_eq]
  exact foldlM_read_error putFound entry h

theorem overrideAll_ok (entry : Dict String α) (hnodup : (pairs.map Prod.fst).Nodup)
    (h : ∀ pair ∈ pairs, pair.2.Readable environ) :
    ∃ result, overrideAll environ entry pairs = .ok result ∧ ∀ key, result.get? key =
      (pairs.lookup key).elim (entry.get? key) (Knob.found environ) := by
  simp only [overrideAll, override_eq]
  obtain ⟨result, hresult, hget⟩ :=
    foldlM_read_ok overrideFound (fun _ => none) entry get?_overrideFound hnodup h
  exact ⟨result, hresult, fun key => by simp only [hget key, Option.or_none]⟩

theorem overrideAll_error (entry : Dict String α) (h : ¬∀ pair ∈ pairs, pair.2.Readable environ) :
    ∃ raised, overrideAll environ entry pairs = .error raised := by
  simp only [overrideAll, override_eq]
  exact foldlM_read_error overrideFound entry h

end NetixBackend.Database
