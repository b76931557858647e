import NetixBackend.Database.Alias
import NetixBackend.Database.Literals

/-!
A replica against the primary with the same knobs.

`postgres_database` gives most of its parameters a key in capitals and three of
them a member of `OPTIONS`; `replica_of` capitalizes whatever name it is given.
Both agree on the former. An overridden `prepare_threshold` or
`connect_timeout` becomes a key of its own that Django does not know, and
overridden `options` replace the members that they would have been merged with.
-/

namespace NetixBackend.Database

open Python

variable {α : Type*} [PyObject α] {environ : Environ} {kw overrides : Keywords α}
  {host port : Knob α} {primary : Dict String α}

/-- The knobs both functions take under one name, `host` and `port` apart. -/
def sharedKnobs : List String :=
  ["engine", "name", "user", "password", "atomic_requests", "disable_server_side_cursors",
    "conn_max_age", "conn_health_checks", "prepare_threshold", "connect_timeout", "options"]

/-- `{**kw, **overrides, "host": host, "port": port}`. -/
def merged (kw overrides : Keywords α) (host port : Knob α) : Keywords α :=
  ((kw.update overrides).set "host" host).set "port" port

/-- Two calls return the same mapping, or neither returns. -/
def SameAlias : Except Raised (Dict String α) → Except Raised (Dict String α) → Prop
  | .ok left, .ok right => ∀ key, left.get? key = right.get? key
  | .error _, .error _ => True
  | _, _ => False

/-- The condition. Both sides can read what they read; and if they can, the
members of `OPTIONS` are overridden by `OMIT` at most, that drops nothing the
primary has, and overridden `options` are a dict that lists the other members. -/
structure LikePrimary (environ : Environ) (kw overrides : Keywords α) (host port : Knob α) :
    Prop where
  reads : Buildable environ kw ∧ Overridable environ host port overrides ↔
    Buildable environ (merged kw overrides host port)
  stray : Buildable environ (merged kw overrides host port) →
    ∀ name ∈ optionKnobs, ∀ knob, overrides.get? name = some knob → knob = .omitted
  kept : Buildable environ (merged kw overrides host port) → overrides.get? "options" = none →
    ∀ name ∈ optionKnobs, overrides.get? name = none ∨ argument kw name = .omitted ∨
      Lists (argument kw "options") name
  replaced : Buildable environ (merged kw overrides host port) →
    ∀ opts, overrides.get? "options" = some opts →
      (∀ name ∈ optionKnobs, argument (merged kw overrides host port) name = .omitted ∨
        Lists opts name) ∧
      ∀ object, opts = .value (.literal object) → ∃ members, object = PyObject.dict members

/-! ### Where an override lands -/

section Upper

variable {β : Type*} {overrides : Keywords β}

theorem upper_injOn : ∀ name ∈ sharedKnobs, ∀ name' ∈ sharedKnobs,
    upper name = upper name' → name = name' := by
  decide +kernel

theorem mem_sharedKnobs (h : ∀ name ∈ overrides.keys, name ∈ sharedKnobs) :
    ∀ item ∈ overrides.items, item.1 ∈ sharedKnobs :=
  fun item hitem => h item.1 (List.mem_map_of_mem hitem)

theorem lookup_upperPairs (h : ∀ name ∈ overrides.keys, name ∈ sharedKnobs) {name : String}
    (hname : name ∈ sharedKnobs) :
    (upperPairs overrides).lookup (upper name) = overrides.get? name :=
  lookup_map_key fun item hitem => upper_injOn name hname item.1 (mem_sharedKnobs h item hitem)

theorem keys_upperPairs (overrides : Keywords β) :
    (upperPairs overrides).map Prod.fst = overrides.keys.map upper := by
  rw [upperPairs, Dict.keys, List.map_map, List.map_map]
  rfl

theorem lookup_upperPairs_of_not_mem (h : ∀ name ∈ overrides.keys, name ∈ sharedKnobs) {key : String}
    (hkey : key ∉ sharedKnobs.map upper) : (upperPairs overrides).lookup key = none := by
  rw [lookup_eq_none_iff_not_mem, keys_upperPairs]
  exact fun hmem => hkey (List.map_subset upper h hmem)

theorem nodup_upperPairs (h : ∀ name ∈ overrides.keys, name ∈ sharedKnobs) :
    ((upperPairs overrides).map Prod.fst).Nodup := by
  rw [keys_upperPairs]
  exact List.Nodup.map_on (fun name hname name' hname' =>
    upper_injOn name (h name hname) name' (h name' hname')) overrides.nodup

end Upper

theorem argument_host : argument (merged kw overrides host port) "host" = host := by
  simp [argument, merged]

theorem argument_port : argument (merged kw overrides host port) "port" = port := by
  simp [argument, merged]

theorem argument_merged {name : String} (hhost : name ≠ "host") (hport : name ≠ "port") :
    argument (merged kw overrides host port) name =
      (overrides.get? name).getD (argument kw name) := by
  simp only [argument, merged, Dict.get?_set, if_neg hhost, if_neg hport, Dict.get?_update]
  cases overrides.get? name <;> rfl

/-- The keys of the knobs that both functions give one: overridden in capitals
or by the argument of its own, the same is stored. -/
theorem topKnobs_facts : ∀ knob ∈ topKnobs, knob.2 = upper knob.1 ∧ knob.2 ≠ "OPTIONS" ∧
    (knob = ("host", "HOST") ∨ knob = ("port", "PORT") ∨ knob.1 ∈ sharedKnobs ∧
      knob.1 ≠ "host" ∧ knob.1 ≠ "port" ∧ knob.2 ≠ "HOST" ∧ knob.2 ≠ "PORT" ∧ knob.2 ≠ "TEST") := by
  decide +kernel

/-- Every other shared knob has its place in `OPTIONS`. -/
theorem sharedKnobs_facts : ∀ name ∈ sharedKnobs, upper name ∈ topKnobs.map Prod.snd ∨
    upper name = "OPTIONS" ∨ name ∈ optionKnobs := by
  decide +kernel

section Compare

variable {replica entry : Dict String α} {resolved resolved' : Option (Dict String α)}

theorem lookup_ownPairs_of_ne {β : Type*} {host port : Knob β} {key : String} (hhost : key ≠ "HOST") (hport : key ≠ "PORT")
    (htest : key ≠ "TEST") : (ownPairs host port .omitted).lookup key = none := by
  simp only [ownPairs, lookup_cons_ite, if_neg hhost, if_neg hport, if_neg htest, List.lookup_nil]

variable (hov : ∀ name ∈ overrides.keys, name ∈ sharedKnobs)
  (hprimary : Built environ kw resolved primary)
  (hreplica : Overridden environ host port overrides primary replica)
  (hentry : Built environ (merged kw overrides host port) resolved' entry)

include hov hprimary hreplica hentry

theorem get?_top {knob : String × String} (hknob : knob ∈ topKnobs) :
    replica.get? knob.2 = entry.get? knob.2 := by
  obtain ⟨hupper, hoptions, hplace⟩ := topKnobs_facts knob hknob
  rw [hreplica, hentry, if_neg hoptions, lookup_topPairs hknob, Option.bind_some]
  rcases hplace with rfl | rfl | ⟨hshared, hhost, hport, hHOST, hPORT, hTEST⟩
  · rw [lookup_upperPairs_of_not_mem hov (by decide +kernel), argument_host]
    rfl
  · rw [lookup_upperPairs_of_not_mem hov (by decide +kernel), argument_port]
    rfl
  · rw [lookup_ownPairs_of_ne hHOST hPORT hTEST, hprimary, if_neg hoptions, lookup_topPairs hknob,
      Option.bind_some, hupper, lookup_upperPairs hov hshared, argument_merged hhost hport]
    cases overrides.get? knob.1 <;> rfl

theorem get?_optionKnob {name : String} (hname : name ∈ optionKnobs) :
    replica.get? (upper name) = (overrides.get? name).bind (Knob.found environ) ∧
      entry.get? (upper name) = none := by
  have hfacts : ∀ name ∈ optionKnobs, name ∈ sharedKnobs ∧ upper name ∉ topKnobs.map Prod.snd ∧
      upper name ≠ "OPTIONS" ∧ upper name ≠ "HOST" ∧ upper name ≠ "PORT" ∧ upper name ≠ "TEST" := by
    decide +kernel
  obtain ⟨hshared, htop, hoptions, hHOST, hPORT, hTEST⟩ := hfacts name hname
  rw [hreplica, hentry, hprimary, if_neg hoptions, if_neg hoptions,
    lookup_topPairs_of_not_mem htop, lookup_topPairs_of_not_mem htop,
    lookup_ownPairs_of_ne hHOST hPORT hTEST, lookup_upperPairs hov hshared]
  exact ⟨by cases overrides.get? name <;> rfl, rfl⟩

theorem get?_other {key : String} (htop : key ∉ topKnobs.map Prod.snd) (hoptions : key ≠ "OPTIONS")
    (hknobs : key ∉ optionKnobs.map upper) : replica.get? key = entry.get? key := by
  have hover : key ∉ sharedKnobs.map upper := by
    rintro hmem
    obtain ⟨name, hname, rfl⟩ := List.mem_map.mp hmem
    rcases sharedKnobs_facts name hname with h | h | h
    · exact htop h
    · exact hoptions h
    · exact hknobs (List.mem_map_of_mem h)
  have hHOST : key ≠ "HOST" := by
    rintro rfl
    exact htop (by decide)
  have hPORT : key ≠ "PORT" := by
    rintro rfl
    exact htop (by decide)
  rw [hreplica, hentry, hprimary, if_neg hoptions, if_neg hoptions,
    lookup_topPairs_of_not_mem htop, lookup_topPairs_of_not_mem htop,
    lookup_upperPairs_of_not_mem hov hover]
  simp only [ownPairs, lookup_cons_ite, if_neg hHOST, if_neg hPORT, List.lookup_nil]
  split <;> rfl

/-- Where the two can differ: stray keys, and `OPTIONS`. -/
theorem sameKeys_iff :
    (∀ key, replica.get? key = entry.get? key) ↔
      (∀ name ∈ optionKnobs, (overrides.get? name).bind (Knob.found environ) = none) ∧
        (overrides.get? "options").elim (resolved.map PyObject.dict) (Knob.found environ) =
          resolved'.map PyObject.dict := by
  have hknobs := fun {name} (hname : name ∈ optionKnobs) =>
    get?_optionKnob hov hprimary hreplica hentry hname
  have hoptions : replica.get? "OPTIONS" =
      (overrides.get? "options").elim (resolved.map PyObject.dict) (Knob.found environ) := by
    rw [hreplica, hprimary, if_pos rfl,
      lookup_ownPairs_of_ne (by decide) (by decide) (by decide),
      show "OPTIONS" = upper "options" from rfl, lookup_upperPairs hov (by decide)]
    rfl
  have hoptions' : entry.get? "OPTIONS" = resolved'.map PyObject.dict := by
    rw [hentry, if_pos rfl]
  constructor
  · intro h
    refine ⟨fun name hname => ?_, ?_⟩
    · rw [← (hknobs hname).1, h, (hknobs hname).2]
    · rw [← hoptions, h, hoptions']
  · rintro ⟨hstray, hsame⟩ key
    by_cases hkey : key = "OPTIONS"
    · rw [hkey, hoptions, hoptions', hsame]
    · by_cases htop : key ∈ topKnobs.map Prod.snd
      · obtain ⟨knob, hknob, rfl⟩ := List.mem_map.mp htop
        exact get?_top hov hprimary hreplica hentry hknob
      · by_cases hmem : key ∈ optionKnobs.map upper
        · obtain ⟨name, hname, rfl⟩ := List.mem_map.mp hmem
          rw [(hknobs hname).1, (hknobs hname).2, hstray name hname]
        · exact get?_other hov hprimary hreplica hentry htop hkey hmem

end Compare

/-! ### Merging and replacing -/

section Members

variable {resolved resolved' : Option (Dict String α)}

theorem dict_eq_iff {d e : Dict String α} :
    PyObject.dict d = PyObject.dict e ↔ ∀ key, d.get? key = e.get? key := by
  constructor
  · intro heq key
    obtain ⟨d', hd, hget⟩ := PyObject.entries_dict d
    obtain ⟨e', he, hget'⟩ := PyObject.entries_dict e
    rw [heq, he] at hd
    rw [← hget, ← hget', Except.ok.inj hd]
  · exact PyObject.dict_congr d e

theorem member_congr {kw' : Keywords α} {name : String} (hname : name ∈ optionKnobs)
    (h : argument kw name = argument kw' name) : member environ kw name = member environ kw' name := by
  simp only [member, ownMembers, get?_putFound]
  rcases List.mem_pair.mp hname with rfl | rfl
  · rw [if_neg (by decide), if_neg (by decide), h]
  · rw [if_pos rfl, if_pos rfl, h]
    cases argument kw "prepare_threshold" <;> cases argument kw' "prepare_threshold" <;>
      simp [putRaw]

theorem map_dict_eq_iff :
    resolved.map PyObject.dict = resolved'.map PyObject.dict ↔ (resolved = none ↔ resolved' = none) ∧
      ∀ members, resolved = some members → ∀ members', resolved' = some members' →
        ∀ key, members.get? key = members'.get? key := by
  cases resolved with
  | none => cases resolved' <;> simp
  | some members =>
      cases resolved' with
      | none => simp
      | some members' => simp [dict_eq_iff]

theorem not_lists_omitted {name : String} : ¬Lists (.omitted : Knob α) name := by
  rintro ⟨object, members, heq, -⟩
  cases heq

/-- Merging the two own members adds nothing under a name. -/
theorem given_or_member_iff (opts : Knob α) {name : String} (hname : name ∈ optionKnobs)
    (h : (argument kw "connect_timeout").Readable environ) :
    ((given opts).get? name).or (member environ kw name) = (given opts).get? name ↔
      argument kw name = .omitted ∨ Lists opts name := by
  rw [← contains_given_iff, ← member_eq_none_iff hname h, Dict.contains]
  cases (given opts).get? name <;> simp

/-- An argument of the primary is that of the merged call, or `OMIT` takes its place. -/
theorem argument_optionKnob (kw : Keywords α) (host port : Knob α)
    (hstray : ∀ name ∈ optionKnobs, ∀ knob, overrides.get? name = some knob → knob = .omitted)
    {name : String} (hname : name ∈ optionKnobs) :
    (overrides.get? name = none ∧ argument (merged kw overrides host port) name = argument kw name) ∨
      (overrides.get? name ≠ none ∧ argument (merged kw overrides host port) name = .omitted) := by
  have hne : ∀ name ∈ optionKnobs, name ≠ "host" ∧ name ≠ "port" := by decide
  rw [argument_merged (hne name hname).1 (hne name hname).2]
  cases hget : overrides.get? name with
  | none => exact .inl ⟨rfl, rfl⟩
  | some knob => exact .inr ⟨Option.some_ne_none knob, hstray name hname knob hget⟩

/-- The primary's `OPTIONS`, which the replica keeps, are those of the merged
arguments if nothing that the primary has is dropped. -/
theorem kept_iff (hbuilt : Buildable environ kw)
    (hbuilt' : Buildable environ (merged kw overrides host port))
    (hresolved : Resolved environ kw resolved)
    (hresolved' : Resolved environ (merged kw overrides host port) resolved')
    (hstray : ∀ name ∈ optionKnobs, ∀ knob, overrides.get? name = some knob → knob = .omitted)
    (hnone : overrides.get? "options" = none) :
    resolved.map PyObject.dict = resolved'.map PyObject.dict ↔
      ∀ name ∈ optionKnobs, overrides.get? name = none ∨ argument kw name = .omitted ∨
        Lists (argument kw "options") name := by
  have hopts : argument (merged kw overrides host port) "options" = argument kw "options" := by
    rw [argument_merged (by decide) (by decide), hnone, Option.getD_none]
  have hcases := fun {name} (hname : name ∈ optionKnobs) =>
    argument_optionKnob kw host port hstray hname
  have hdrop : ∀ {name}, name ∈ optionKnobs →
      argument (merged kw overrides host port) name = .omitted →
        member environ (merged kw overrides host port) name = none :=
    fun hname => (member_eq_none_iff hname hbuilt'.connectTimeout).mpr
  rw [map_dict_eq_iff]
  constructor
  · rintro ⟨habsent, hsame⟩ name hname
    rcases hcases hname with ⟨hget, -⟩ | ⟨-, hdropped⟩
    · exact .inl hget
    · right
      cases hmembers : resolved with
      | none => exact .inl ((hresolved.absent.mp hmembers).1 name hname)
      | some members =>
          obtain ⟨members', hmembers'⟩ := Option.ne_none_iff_exists'.mp fun h =>
            Option.some_ne_none members (hmembers.symm.trans (habsent.mpr h))
          have hkey := hsame members hmembers members' hmembers' name
          rw [hresolved.members _ hmembers, hresolved'.members _ hmembers', hopts,
            hdrop hname hdropped, Option.or_none] at hkey
          exact (given_or_member_iff _ hname hbuilt.connectTimeout).mp hkey
  · intro h
    constructor
    · rw [hresolved.absent, hresolved'.absent, hopts]
      refine and_congr_left fun hnoOptions => forall₂_congr fun name hname => ?_
      rcases hcases hname with ⟨-, heq⟩ | ⟨hget, hdropped⟩
      · rw [heq]
      · refine ⟨fun _ => hdropped, fun _ => ((h name hname).resolve_left hget).resolve_right ?_⟩
        rw [hnoOptions]
        exact not_lists_omitted
    · intro members hmembers members' hmembers' key
      rw [hresolved.members _ hmembers, hresolved'.members _ hmembers', hopts]
      by_cases hkey : key ∈ optionKnobs
      · rcases hcases hkey with ⟨-, heq⟩ | ⟨hget, hdropped⟩
        · rw [member_congr hkey heq]
        · rw [hdrop hkey hdropped, Option.or_none]
          exact (given_or_member_iff _ hkey hbuilt.connectTimeout).mpr ((h key hkey).resolve_left hget)
      · rw [member_of_not_mem hkey, member_of_not_mem hkey]

/-- A dict is what merging into it makes of it if nothing is added. -/
theorem merge_eq_iff {kw : Keywords α} {object : α} {listed members : Dict String α}
    (h : (argument kw "connect_timeout").Readable environ)
    (hlisted : PyObject.entries object = .ok listed)
    (hmembers : ∀ key, members.get? key = (listed.get? key).or (member environ kw key)) :
    object = PyObject.dict members ↔
      (∀ name ∈ optionKnobs, argument kw name = .omitted ∨
        Lists (.value (.literal object)) name) ∧ ∃ members, object = PyObject.dict members := by
  have hgiven : given (.value (.literal object)) = listed := by simp only [given, hlisted]
  have hadds := fun {name} (hname : name ∈ optionKnobs) =>
    given_or_member_iff (.value (.literal object)) hname h
  rw [hgiven] at hadds
  constructor
  · intro heq
    obtain ⟨entries, hentries, hget⟩ := PyObject.entries_dict members
    rw [← heq, hlisted] at hentries
    obtain rfl := Except.ok.inj hentries
    refine ⟨fun name hname => (hadds hname).mp ?_, members, heq⟩
    rw [← hmembers, hget]
  · rintro ⟨hlists, members', rfl⟩
    obtain ⟨entries, hentries, hget⟩ := PyObject.entries_dict members'
    obtain rfl := Except.ok.inj (hlisted.symm.trans hentries)
    refine dict_eq_iff.mpr fun key => ?_
    rw [← hget, hmembers]
    by_cases hkey : key ∈ optionKnobs
    · exact ((hadds hkey).mpr (hlists key hkey)).symm
    · rw [member_of_not_mem hkey, Option.or_none]

/-- Overridden `options` are the merged ones if they list what there is to merge. -/
theorem replaced_iff {opts : Knob α} (hbuilt' : Buildable environ (merged kw overrides host port))
    (hresolved' : Resolved environ (merged kw overrides host port) resolved')
    (hsome : overrides.get? "options" = some opts) :
    opts.found environ = resolved'.map PyObject.dict ↔
      (∀ name ∈ optionKnobs, argument (merged kw overrides host port) name = .omitted ∨
        Lists opts name) ∧
      ∀ object, opts = .value (.literal object) → ∃ members, object = PyObject.dict members := by
  have hopts : argument (merged kw overrides host port) "options" = opts := by
    rw [argument_merged (by decide) (by decide), hsome, Option.getD_some]
  have hmergeable : Mergeable opts := hopts ▸ hbuilt'.options
  obtain ⟨habsent, hmembers⟩ := hresolved'
  rw [hopts] at habsent hmembers
  cases opts with
  | omitted =>
      have hfound : (Knob.omitted : Knob α).found environ = none := rfl
      rw [hfound, eq_comm, Option.map_eq_none_iff, habsent]
      constructor
      · exact fun h => ⟨fun name hname => .inl (h.1 name hname), fun object heq => by cases heq⟩
      · exact fun h => ⟨fun name hname => (h.1 name hname).resolve_right not_lists_omitted, rfl⟩
  | value value =>
      obtain ⟨object, listed, rfl, hlisted⟩ := hmergeable value rfl
      have hfound : (Knob.value (.literal object) : Knob α).found environ = some object := rfl
      have hgiven : given (.value (.literal object)) = listed := by simp only [given, hlisted]
      obtain ⟨members, rfl⟩ := Option.ne_none_iff_exists'.mp fun h => by cases (habsent.mp h).2
      have hget := hmembers members rfl
      rw [hgiven] at hget
      rw [hfound, Option.map_some, Option.some.injEq,
        merge_eq_iff hbuilt'.connectTimeout hlisted hget]
      refine and_congr_right fun _ => ⟨fun hdict object' hobject' => ?_, fun h => h object rfl⟩
      cases hobject'
      exact hdict

end Members

theorem stray_iff (h : Overridable environ host port overrides) :
    (∀ name ∈ optionKnobs, (overrides.get? name).bind (Knob.found environ) = none) ↔
      ∀ name ∈ optionKnobs, ∀ knob, overrides.get? name = some knob → knob = .omitted := by
  refine forall₂_congr fun name hname => ?_
  cases hget : overrides.get? name with
  | none => simp
  | some knob =>
      have hreadable := h.overrides (name, knob) ((overrides.mem_items_iff name knob).mpr hget)
      rw [Option.bind_some, Knob.found_eq_none_iff hreadable]
      simp

/-- `replica_of(postgres_database(**kw), host=host, port=port, **overrides)`. -/
def replicaOfPrimary (environ : Environ) (kw : Keywords α) (host port : Knob α)
    (overrides : Keywords α) : Except Raised (Dict String α) := do
  let primary ← postgresDatabase environ kw
  replicaOf environ primary host port overrides

theorem replicaOfPrimary_error
    (h : ¬(Buildable environ kw ∧ Overridable environ host port overrides)) :
    ∃ raised, replicaOfPrimary environ kw host port overrides = .error raised := by
  unfold replicaOfPrimary
  by_cases hbuilt : Buildable environ kw
  · cases hprimary : postgresDatabase environ kw with
    | error raised => exact ⟨raised, rfl⟩
    | ok primary => exact replicaOf_error fun hread => h ⟨hbuilt, hread⟩
  · obtain ⟨raised, hraised⟩ := postgresDatabase_error hbuilt
    exact ⟨raised, by rw [hraised]; rfl⟩

theorem replicaOfPrimary_ok (htest : kw.get? "test" = none)
    (hov : ∀ name ∈ overrides.keys, name ∈ sharedKnobs) (hbuilt : Buildable environ kw)
    (hread : Overridable environ host port overrides) :
    ∃ primary replica resolved, replicaOfPrimary environ kw host port overrides = .ok replica ∧
      Overridden environ host port overrides primary replica ∧
      Built environ kw resolved primary ∧ Resolved environ kw resolved := by
  obtain ⟨resolved, hoptions, hresolved⟩ := optionsOf_ok hbuilt
  obtain ⟨primary, hprimary, hget⟩ := postgresDatabase_ok hbuilt htest hoptions
  obtain ⟨replica, hreplica, hget'⟩ := replicaOf_ok primary hread (nodup_upperPairs hov)
  refine ⟨primary, replica, resolved, ?_, hget', hget, hresolved⟩
  rw [replicaOfPrimary, hprimary]
  exact hreplica

theorem test_merged {β : Type*} {kw overrides : Keywords β} {host port : Knob β} (htest : kw.get? "test" = none)
    (hov : ∀ name ∈ overrides.keys, name ∈ sharedKnobs) :
    (merged kw overrides host port).get? "test" = none := by
  have hnone : overrides.get? "test" = none := by
    cases hget : overrides.get? "test" with
    | none => rfl
    | some knob =>
        have hitem := (overrides.mem_items_iff "test" knob).mpr hget
        exact absurd (hov "test" (List.mem_map.mpr ⟨_, hitem, rfl⟩)) (by decide)
  simp [merged, hnone, htest]

/-- The comparison where both sides return. -/
theorem sameKeys_iff_likePrimary {primary replica entry : Dict String α}
    {resolved resolved' : Option (Dict String α)}
    (hov : ∀ name ∈ overrides.keys, name ∈ sharedKnobs) (hbuilt : Buildable environ kw)
    (hread : Overridable environ host port overrides)
    (hbuilt' : Buildable environ (merged kw overrides host port))
    (hreplica : Overridden environ host port overrides primary replica)
    (hprimary : Built environ kw resolved primary) (hresolved : Resolved environ kw resolved)
    (hentry : Built environ (merged kw overrides host port) resolved' entry)
    (hresolved' : Resolved environ (merged kw overrides host port) resolved') :
    (∀ key, replica.get? key = entry.get? key) ↔ LikePrimary environ kw overrides host port := by
  have hreads : Buildable environ kw ∧ Overridable environ host port overrides ↔
    Buildable environ (merged kw overrides host port) := iff_of_true ⟨hbuilt, hread⟩ hbuilt'
  rw [sameKeys_iff hov hprimary hreplica hentry, stray_iff hread]
  cases hopts : overrides.get? "options" with
  | none =>
      constructor
      · rintro ⟨hstray, hsame⟩
        refine ⟨hreads, fun _ => hstray, fun _ _ => ?_, fun _ opts hsome => ?_⟩
        · exact (kept_iff hbuilt hbuilt' hresolved hresolved' hstray hopts).mp hsame
        · cases hopts.symm.trans hsome
      · intro h
        have hstray := h.stray hbuilt'
        exact ⟨hstray, (kept_iff hbuilt hbuilt' hresolved hresolved' hstray hopts).mpr
          (h.kept hbuilt' hopts)⟩
  | some opts =>
      have hreplaced := replaced_iff hbuilt' hresolved' hopts
      constructor
      · rintro ⟨hstray, hsame⟩
        refine ⟨hreads, fun _ => hstray, fun _ hnone => ?_, fun _ opts' hsome => ?_⟩
        · cases hopts.symm.trans hnone
        · obtain rfl := Option.some.inj (hopts.symm.trans hsome)
          exact hreplaced.mp hsame
      · intro h
        exact ⟨h.stray hbuilt', hreplaced.mpr (h.replaced hbuilt' opts hopts)⟩

/-- A replica is the primary with the same knobs overridden exactly if they are
overridden as in the primary. -/
theorem replicaOf_iff (htest : kw.get? "test" = none)
    (hov : ∀ name ∈ overrides.keys, name ∈ sharedKnobs) :
    SameAlias (replicaOfPrimary environ kw host port overrides)
        (postgresDatabase environ (merged kw overrides host port)) ↔
      LikePrimary environ kw overrides host port := by
  by_cases hleft : Buildable environ kw ∧ Overridable environ host port overrides
  · obtain ⟨primary, replica, resolved, hok, hreplica, hprimary, hresolved⟩ :=
      replicaOfPrimary_ok htest hov hleft.1 hleft.2
    rw [hok]
    by_cases hright : Buildable environ (merged kw overrides host port)
    · obtain ⟨resolved', hoptions', hresolved'⟩ := optionsOf_ok hright
      obtain ⟨entry, hentry, hget⟩ :=
        postgresDatabase_ok hright (test_merged htest hov) hoptions'
      rw [hentry]
      exact sameKeys_iff_likePrimary hov hleft.1 hleft.2 hright hreplica hprimary hresolved hget
        hresolved'
    · obtain ⟨raised, hraised⟩ := postgresDatabase_error hright
      rw [hraised]
      exact ⟨fun h => h.elim, fun h => hright (h.reads.mp hleft)⟩
  · obtain ⟨raised, hraised⟩ := replicaOfPrimary_error hleft
    rw [hraised]
    by_cases hright : Buildable environ (merged kw overrides host port)
    · obtain ⟨resolved', hoptions', -⟩ := optionsOf_ok hright
      obtain ⟨entry, hentry, -⟩ := postgresDatabase_ok hright (test_merged htest hov) hoptions'
      rw [hentry]
      exact ⟨fun h => h.elim, fun h => absurd (h.reads.mpr hright) hleft⟩
    · obtain ⟨raised', hraised'⟩ := postgresDatabase_error hright
      rw [hraised']
      refine ⟨fun _ => ⟨iff_of_false hleft hright, ?_, ?_, ?_⟩, fun _ => trivial⟩
      · exact fun h => absurd h hright
      · exact fun h => absurd h hright
      · exact fun h => absurd h hright

/-! ### A primary by its environment -/

/-- Every variable is set. -/
def fullEnviron : Environ := fun _ => some "netix"

def replicaHost : Knob Literal := .value (.literal (.str "replica"))

def replicaPort : Knob Literal := .value (.literal (.str "5433"))

def onlyOverride (name : String) (object : Literal) : Keywords Literal :=
  Dict.ofPairs [(name, .value (.literal object))]

/-- A longer `conn_max_age` on the replica. -/
theorem sameAlias_connMaxAge :
    SameAlias
      (replicaOfPrimary fullEnviron Dict.empty replicaHost replicaPort
        (onlyOverride "conn_max_age" (.int 60)))
      (postgresDatabase fullEnviron
        (merged Dict.empty (onlyOverride "conn_max_age" (.int 60)) replicaHost replicaPort)) := by
  let longer := onlyOverride "conn_max_age" (.int 60)
  have hbuilt : Buildable fullEnviron (Dict.empty : Keywords Literal) :=
    ⟨by decide +kernel, by decide +kernel, fun value hvalue => by cases hvalue⟩
  have hread : Overridable fullEnviron replicaHost replicaPort longer :=
    ⟨by decide +kernel, by decide +kernel, by decide +kernel⟩
  have hbuilt' : Buildable fullEnviron (merged Dict.empty longer replicaHost replicaPort) :=
    ⟨by decide +kernel, by decide +kernel, fun value hvalue => by cases hvalue⟩
  have hnone : ∀ name ∈ "options" :: optionKnobs, longer.get? name = none := by
    simp [longer, onlyOverride, optionKnobs, Dict.get?_ofPairs, lookup_cons_ite]
  have hnone' : ∀ name ∈ optionKnobs, longer.get? name = none :=
    fun name hname => hnone name (List.mem_cons_of_mem _ hname)
  refine (replicaOf_iff rfl (by decide)).mpr ⟨iff_of_true ⟨hbuilt, hread⟩ hbuilt', ?_, ?_, ?_⟩
  · exact fun _ name hname knob hget => by cases (hnone' name hname).symm.trans hget
  · exact fun _ _ name hname => .inl (hnone' name hname)
  · exact fun _ opts hget => by cases (hnone "options" (by simp)).symm.trans hget

theorem get?_eq_of_sameAlias {β : Type*} {left right : Except Raised (Dict String β)} (h : SameAlias left right)
    (key : String) :
    left.toOption.bind (Dict.get? · key) = right.toOption.bind (Dict.get? · key) := by
  cases left with
  | error raised => cases right with
    | error raised' => rfl
    | ok entry => exact h.elim
  | ok entry => cases right with
    | error raised => exact h.elim
    | ok entry' => exact h key

def memberCount : Literal → ℕ
  | .dict items => items.length
  | _ => 0

/-- `connect_timeout=5` becomes a key of the alias, and `options={"sslmode": "require"}`
lose the `prepare_threshold` of the primary. -/
theorem not_sameAlias_options :
    ¬SameAlias
        (replicaOfPrimary fullEnviron Dict.empty replicaHost replicaPort
          (onlyOverride "connect_timeout" (.int 5)))
        (postgresDatabase fullEnviron
          (merged Dict.empty (onlyOverride "connect_timeout" (.int 5)) replicaHost replicaPort)) ∧
      ¬SameAlias
        (replicaOfPrimary fullEnviron Dict.empty replicaHost replicaPort
          (onlyOverride "options" (.dict [("sslmode", .str "require")])))
        (postgresDatabase fullEnviron
          (merged Dict.empty (onlyOverride "options" (.dict [("sslmode", .str "require")]))
            replicaHost replicaPort)) := by
  constructor
  · intro h
    have hkey := congrArg Option.isSome (get?_eq_of_sameAlias h "CONNECT_TIMEOUT")
    exact absurd hkey (by decide +kernel)
  · intro h
    have hkey := congrArg (Option.map memberCount) (get?_eq_of_sameAlias h "OPTIONS")
    exact absurd hkey (by decide +kernel)

end NetixBackend.Database
