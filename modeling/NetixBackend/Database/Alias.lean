import NetixBackend.Database.Factory

/-!
What the two factories build.

`Buildable` and `Overridable` say when all that a call reads can be read, and
`Built` and `Overridden` what is then stored under each key.
-/

namespace NetixBackend.Database

open Python

variable {α : Type*} [PyObject α] {environ : Environ} {kw overrides : Keywords α}
  {host port : Knob α} {primary : Dict String α}

/-- The knobs with a place in `OPTIONS`. -/
def optionKnobs : List String := ["prepare_threshold", "connect_timeout"]

/-- What `_options` can merge: nothing, or a mapping that is no `FromEnv`. -/
def Mergeable (opts : Knob α) : Prop :=
  ∀ value, opts = .value value →
    ∃ object members, value = .literal object ∧ PyObject.entries object = .ok members

/-- The `options` argument has a member of its own under a name. -/
def Lists (opts : Knob α) (name : String) : Prop :=
  ∃ object members, opts = .value (.literal object) ∧ PyObject.entries object = .ok members ∧
    members.contains name = true

/-- The arguments of `postgres_database` can be read. -/
structure Buildable (environ : Environ) (kw : Keywords α) : Prop where
  top : ∀ knob ∈ topKnobs, (argument kw knob.1).Readable environ
  connectTimeout : (argument kw "connect_timeout").Readable environ
  options : Mergeable (argument kw "options")

/-- The arguments of `replica_of` can be read. -/
structure Overridable (environ : Environ) (host port : Knob α) (overrides : Keywords α) :
    Prop where
  host : host.Readable environ
  port : port.Readable environ
  overrides : ∀ item ∈ overrides.items, item.2.Readable environ

/-! ### `OPTIONS` -/

def optionsOf (environ : Environ) (kw : Keywords α) : Except Raised (Option (Dict String α)) :=
  options environ (argument kw "prepare_threshold") (argument kw "connect_timeout")
    (argument kw "options")

/-- The members of `OPTIONS` that have a knob of their own. -/
def ownMembers (environ : Environ) (prepareThreshold connectTimeout : Knob α) : Dict String α :=
  putFound (putRaw Dict.empty "prepare_threshold" prepareThreshold) "connect_timeout"
    (connectTimeout.found environ)

def member (environ : Environ) (kw : Keywords α) (name : String) : Option α :=
  (ownMembers environ (argument kw "prepare_threshold") (argument kw "connect_timeout")).get? name

/-- What the `options` argument is merged from. -/
def given (opts : Knob α) : Dict String α :=
  match opts with
  | .value (.literal object) =>
      match PyObject.entries object with
      | .ok members => members
      | .error _ => Dict.empty
  | _ => Dict.empty

theorem contains_given_iff {opts : Knob α} {name : String} :
    (given opts).contains name = true ↔ Lists opts name := by
  unfold given Lists
  constructor
  · intro h
    split at h
    · next object =>
        split at h
        · next members hmembers => exact ⟨object, members, rfl, hmembers, h⟩
        · cases h
    · cases h
  · rintro ⟨object, members, rfl, hmembers, h⟩
    simpa only [hmembers] using h

theorem member_eq_none_iff {name : String} (hname : name ∈ optionKnobs)
    (h : (argument kw "connect_timeout").Readable environ) :
    member environ kw name = none ↔ argument kw name = .omitted := by
  rw [member, ownMembers, get?_putFound]
  rcases List.mem_pair.mp hname with rfl | rfl
  · rw [if_neg (by decide)]
    cases argument kw "prepare_threshold" <;> simp [putRaw]
  · rw [if_pos rfl, ← Knob.found_eq_none_iff h]
    cases argument kw "prepare_threshold" <;> simp [putRaw]

theorem member_of_not_mem {name : String} (hname : name ∉ optionKnobs) :
    member environ kw name = none := by
  simp only [optionKnobs, List.mem_cons, List.not_mem_nil, or_false, not_or] at hname
  rw [member, ownMembers, get?_putFound, if_neg hname.2]
  cases argument kw "prepare_threshold" <;> simp [putRaw, hname.1]

theorem mergeOptions_ok {p c o : Knob α} (hc : c.Readable environ) (ho : Mergeable o) :
    ∃ members, mergeOptions environ p c o = .ok members ∧ ∀ key, members.get? key =
      ((given o).get? key).or ((ownMembers environ p c).get? key) := by
  unfold mergeOptions
  rw [put_eq, Knob.read_of_readable hc]
  cases o with
  | omitted => exact ⟨_, rfl, fun key => by simp [given, ownMembers]⟩
  | value value =>
      obtain ⟨object, members, rfl, hmembers⟩ := ho value rfl
      refine ⟨_, by simp only [hmembers]; rfl, fun key => ?_⟩
      simp [given, hmembers, ownMembers]

theorem mergeOptions_error {p c o : Knob α} (h : ¬(c.Readable environ ∧ Mergeable o)) :
    ∃ raised, mergeOptions environ p c o = .error raised := by
  unfold mergeOptions
  rw [put_eq]
  by_cases hc : c.Readable environ
  · rw [Knob.read_of_readable hc]
    cases o with
    | omitted => exact absurd ⟨hc, fun value hvalue => by cases hvalue⟩ h
    | value value =>
        cases value with
        | fromEnv read => exact ⟨.typeError, rfl⟩
        | literal object =>
            cases hmembers : PyObject.entries object with
            | error raised => exact ⟨raised, by simp only [hmembers]; rfl⟩
            | ok members =>
                refine absurd ⟨hc, fun value hvalue => ?_⟩ h
                cases hvalue
                exact ⟨object, members, rfl, hmembers⟩
  · obtain ⟨raised, hread⟩ := Knob.error_of_not_readable hc
    exact ⟨raised, by rw [hread]; rfl⟩

/-- `OPTIONS` is absent if all its knobs are, and has the members of `options`
over those of the other two. -/
structure Resolved (environ : Environ) (kw : Keywords α) (resolved : Option (Dict String α)) :
    Prop where
  absent : resolved = none ↔
    (∀ name ∈ optionKnobs, argument kw name = .omitted) ∧ argument kw "options" = .omitted
  members : ∀ members, resolved = some members → ∀ key, members.get? key =
    ((given (argument kw "options")).get? key).or (member environ kw key)

theorem optionsOf_ok (h : Buildable environ kw) :
    ∃ resolved, optionsOf environ kw = .ok resolved ∧ Resolved environ kw resolved := by
  obtain ⟨members, hmembers, hget⟩ :=
    mergeOptions_ok (p := argument kw "prepare_threshold") h.connectTimeout h.options
  have hall : (∀ name ∈ optionKnobs, argument kw name = .omitted) ↔
      argument kw "prepare_threshold" = .omitted ∧ argument kw "connect_timeout" = .omitted := by
    simp [optionKnobs]
  by_cases hnone : (∀ name ∈ optionKnobs, argument kw name = .omitted) ∧
      argument kw "options" = .omitted
  · refine ⟨none, ?_, ⟨fun _ => hnone, fun _ => rfl⟩, fun members hsome => absurd hsome.symm
      (Option.some_ne_none _)⟩
    rw [optionsOf, (hall.mp hnone.1).1, (hall.mp hnone.1).2, hnone.2]
    rfl
  · refine ⟨some members, ?_, ⟨fun hsome => absurd hsome (Option.some_ne_none _),
      fun h => absurd h hnone⟩, ?_⟩
    · rw [hall] at hnone
      unfold optionsOf options
      split
      · next hp hc ho => exact absurd ⟨⟨hp, hc⟩, ho⟩ hnone
      · rw [hmembers]
        rfl
    · intro result hresult key
      obtain rfl := Option.some.inj hresult
      exact hget key

theorem optionsOf_error (h : ¬((argument kw "connect_timeout").Readable environ ∧
    Mergeable (argument kw "options"))) : ∃ raised, optionsOf environ kw = .error raised := by
  obtain ⟨raised, hraised⟩ := mergeOptions_error (p := argument kw "prepare_threshold") h
  unfold optionsOf options
  split
  · next hp hc ho =>
      refine absurd ⟨hc ▸ Knob.readable_omitted, fun value hvalue => ?_⟩ h
      rw [ho] at hvalue
      cases hvalue
  · exact ⟨raised, by rw [hraised]; rfl⟩

/-! ### The two calls -/

/-- An alias as `postgres_database` builds it; `resolved` are its `OPTIONS`. -/
def Built (environ : Environ) (kw : Keywords α) (resolved : Option (Dict String α))
    (entry : Dict String α) : Prop :=
  ∀ key, entry.get? key = if key = "OPTIONS" then resolved.map PyObject.dict
    else ((topPairs kw).lookup key).bind (Knob.found environ)

/-- A replica as `replica_of` makes it of an alias. -/
def Overridden (environ : Environ) (host port : Knob α) (overrides : Keywords α)
    (primary replica : Dict String α) : Prop :=
  ∀ key, replica.get? key = ((upperPairs overrides).lookup key).elim
    (((ownPairs host port .omitted).lookup key).elim (primary.get? key) (Knob.found environ))
    (Knob.found environ)

theorem keys_topPairs (kw : Keywords α) : (topPairs kw).map Prod.fst = topKnobs.map Prod.snd := by
  rw [topPairs, List.map_map]
  rfl

theorem nodup_topPairs (kw : Keywords α) : ((topPairs kw).map Prod.fst).Nodup := by
  rw [keys_topPairs]
  decide

theorem readable_topPairs_iff :
    (∀ pair ∈ topPairs kw, pair.2.Readable environ) ↔
      ∀ knob ∈ topKnobs, (argument kw knob.1).Readable environ := by
  simp only [topPairs, List.forall_mem_map]

/-- A key that belongs to no knob. -/
theorem lookup_topPairs_of_not_mem {key : String} (hkey : key ∉ topKnobs.map Prod.snd) :
    (topPairs kw).lookup key = none := by
  rwa [lookup_eq_none_iff_not_mem, keys_topPairs]

theorem lookup_topPairs {knob : String × String} (hknob : knob ∈ topKnobs) :
    (topPairs kw).lookup knob.2 = some (argument kw knob.1) :=
  (Dict.mem_items_iff ⟨topPairs kw, nodup_topPairs kw⟩ knob.2 (argument kw knob.1)).mp
    (List.mem_map.mpr ⟨knob, hknob, rfl⟩)

theorem postgresDatabase_ok (h : Buildable environ kw) (htest : kw.get? "test" = none)
    {resolved : Option (Dict String α)} (hoptions : optionsOf environ kw = .ok resolved) :
    ∃ entry, postgresDatabase environ kw = .ok entry ∧ Built environ kw resolved entry := by
  obtain ⟨top, htop, hget⟩ := putAll_ok Dict.empty (nodup_topPairs kw)
    (readable_topPairs_iff.mpr h.top)
  have hput : ∀ entry : Dict String α, put environ entry "TEST" (argument kw "test") = .ok entry := by
    intro entry
    rw [argument, htest]
    rfl
  have hget' : ∀ key, top.get? key = ((topPairs kw).lookup key).bind (Knob.found environ) := by
    intro key
    rw [hget key]
    cases (topPairs kw).lookup key <;> simp
  unfold postgresDatabase
  rw [htop]
  simp only [bind, Except.bind]
  rw [show options environ _ _ _ = _ from hoptions]
  simp only [hput]
  refine ⟨_, rfl, fun key => ?_⟩
  rw [ordered, Dict.get?_update, Dict.get?_empty, Option.none_or]
  cases resolved with
  | none =>
      rw [hget']
      split
      · next hkey => rw [hkey, lookup_topPairs_of_not_mem (by decide)]; rfl
      · rfl
  | some members => rw [Dict.get?_set, hget']; rfl

theorem postgresDatabase_error (h : ¬Buildable environ kw) :
    ∃ raised, postgresDatabase environ kw = .error raised := by
  unfold postgresDatabase
  by_cases htop : ∀ pair ∈ topPairs kw, pair.2.Readable environ
  · obtain ⟨top, htop', -⟩ := putAll_ok Dict.empty (nodup_topPairs kw) htop
    obtain ⟨raised, hraised⟩ := optionsOf_error (fun hrest :
      (argument kw "connect_timeout").Readable environ ∧ Mergeable (argument kw "options") =>
        h ⟨readable_topPairs_iff.mp htop, hrest.1, hrest.2⟩)
    rw [htop']
    simp only [bind, Except.bind]
    rw [show options environ _ _ _ = _ from hraised]
    exact ⟨raised, rfl⟩
  · obtain ⟨raised, hraised⟩ := putAll_error Dict.empty htop
    rw [hraised]
    exact ⟨raised, rfl⟩

theorem nodup_ownPairs {β : Type*} (host port test : Knob β) :
    ((ownPairs host port test).map Prod.fst).Nodup := by
  simp [ownPairs]

theorem readable_ownPairs_iff : (∀ pair ∈ ownPairs host port .omitted, pair.2.Readable environ) ↔
    host.Readable environ ∧ port.Readable environ := by
  simp [ownPairs, Knob.readable_omitted]

theorem readable_upperPairs_iff : (∀ pair ∈ upperPairs overrides, pair.2.Readable environ) ↔
    ∀ item ∈ overrides.items, item.2.Readable environ := by
  simp only [upperPairs, List.forall_mem_map]

theorem replicaOf_ok (primary : Dict String α) (h : Overridable environ host port overrides)
    (hnodup : ((upperPairs overrides).map Prod.fst).Nodup) :
    ∃ replica, replicaOf environ primary host port overrides = .ok replica ∧
      Overridden environ host port overrides primary replica := by
  obtain ⟨own, hown, hget⟩ := overrideAll_ok primary
    (nodup_ownPairs host port .omitted) (readable_ownPairs_iff.mpr ⟨h.host, h.port⟩)
  obtain ⟨replica, hreplica, hget'⟩ := overrideAll_ok own hnodup
    (readable_upperPairs_iff.mpr h.overrides)
  refine ⟨replica, ?_, fun key => by rw [hget', hget]⟩
  rw [replicaOf, hown]
  exact hreplica

theorem replicaOf_error (h : ¬Overridable environ host port overrides) :
    ∃ raised, replicaOf environ primary host port overrides = .error raised := by
  rw [replicaOf]
  by_cases hown : host.Readable environ ∧ port.Readable environ
  · obtain ⟨own, hown', -⟩ := overrideAll_ok primary
      (nodup_ownPairs host port .omitted) (readable_ownPairs_iff.mpr hown)
    rw [hown']
    exact overrideAll_error own fun hoverrides =>
      h ⟨hown.1, hown.2, readable_upperPairs_iff.mp hoverrides⟩
  · obtain ⟨raised, hraised⟩ := overrideAll_error primary
      fun hreadable => hown (readable_ownPairs_iff.mp hreadable)
    rw [hraised]
    exact ⟨raised, rfl⟩

end NetixBackend.Database
