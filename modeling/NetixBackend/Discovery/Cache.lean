import NetixBackend.Discovery.Registry
import NetixBackend.Transition.System
import Mathlib.Algebra.Order.Ring.Rat

/-!
The registry cache of a process, over every interleaving.

A lookup stamps the expiry under the lock, starts a fetch if the stamp had
passed, and reads the snapshot after it has let the lock go. Only the lookup
that finds no stamp runs its fetch itself, still under the lock; the others
leave theirs to a thread, which installs what it gets whenever it ends. The
clock is exact, and to be kept from the lock is not to wait for a fetch: a lookup
whose thread stands at the lock has not begun.

Who may start a fetch is decided by the stamp alone and what is read by the
last pair installed alone, so the two halves of the invariant never meet.
-/

namespace NetixBackend.Discovery

open Transition

def cacheSeconds : ℚ := 60

structure Snapshot where
  expires : Option ℚ := none
  urls : List (Python.JsonValue × Python.JsonValue) := []
  origins : Finset String := ∅

def Snapshot.registry (s : Snapshot) : Registry := ⟨s.urls, s.origins⟩

/-- Where a lookup has its fetch run, if it starts one. -/
inductive Fetching
  | none
  | inline
  | background
  deriving DecidableEq, Repr

variable (urllib : Urllib)

/-- `_refresh()`. -/
def refresh (surroundings : Surroundings) (s : Snapshot) : Snapshot :=
  match fetched urllib surroundings with
  | some registry => { s with urls := registry.urls, origins := registry.origins }
  | none => s

/-- What `_current()` does under the lock at a reading of the clock. The
surroundings are those of the inline fetch. -/
def current (now : ℚ) (surroundings : Surroundings) (s : Snapshot) : Snapshot × Fetching :=
  match s.expires with
  | none => (refresh urllib surroundings { s with expires := some (now + cacheSeconds) }, .inline)
  | some expires =>
      if now ≥ expires then ({ s with expires := some (now + cacheSeconds) }, .background)
      else (s, .none)

/-- Whether the inline fetch raises, out of `_current()`. -/
def raises (surroundings : Surroundings) (fetching : Fetching) : Bool :=
  fetching = .inline ∧ (fetch urllib surroundings).toOption.isNone

/-- The snapshot, the last reading of the clock, the background fetches in
flight by the readings they were started at, and how many lookups have let the
lock go but not read yet. -/
structure Process where
  snapshot : Snapshot := {}
  clock : Option ℚ := none
  inFlight : List ℚ := []
  readers : ℕ := 0

inductive Event
  /-- The part of a lookup under the lock. -/
  | lookup (now : ℚ) (fetching : Fetching) (surroundings : Surroundings)
  /-- A background fetch ends, in the surroundings it met. -/
  | complete (started : ℚ) (surroundings : Surroundings)
  /-- A lookup reads the snapshot. -/
  | read (seen : Registry)

inductive Step (p : Process) : Event → Process → Prop
  | lookup (now : ℚ) (surroundings : Surroundings) (fetching : Fetching) (snapshot : Snapshot)
      (hclock : ∀ last ∈ p.clock, last ≤ now)
      (hcurrent : current urllib now surroundings p.snapshot = (snapshot, fetching)) :
      Step p (.lookup now fetching surroundings)
        { snapshot := snapshot
          clock := some now
          inFlight := if fetching = .background then now :: p.inFlight else p.inFlight
          readers := if raises urllib surroundings fetching then p.readers else p.readers + 1 }
  | complete (started : ℚ) (surroundings : Surroundings) (hflight : started ∈ p.inFlight) :
      Step p (.complete started surroundings)
        { p with
          snapshot := refresh urllib surroundings p.snapshot
          inFlight := p.inFlight.erase started }
  | read (hreader : 0 < p.readers) :
      Step p (.read p.snapshot.registry) { p with readers := p.readers - 1 }

def discovery : System Process Event where
  init p := p = {}
  step := Step urllib

/-! ### What a run says of itself -/

namespace Event

def isLookup : Event → Bool
  | .lookup .. => true
  | _ => false

/-- The reading at which the event starts a fetch. -/
def fetchedAt : Event → Option ℚ
  | .lookup _ .none _ => none
  | .lookup now _ _ => some now
  | _ => none

/-- The event is a lookup that waits for its fetch. -/
def waits : Event → Bool
  | .lookup _ .inline _ => true
  | _ => false

/-- The surroundings of the fetch that ends with the event. -/
def fetchEnded : Event → Option Surroundings
  | .lookup _ .inline surroundings => some surroundings
  | .complete _ surroundings => some surroundings
  | _ => none

/-- The pair of a fetch that ends with the event and has not failed. -/
def installed (event : Event) : Option Registry := event.fetchEnded.bind (fetched urllib)

end Event

/-- The pair of the most recently completed successful fetch, or two empty ones. -/
def latest (events : List Event) : Registry :=
  (events.filterMap (Event.installed urllib)).getLast?.getD {}

variable {urllib} {p p' : Process} {event : Event} {events before : List Event}

theorem latest_concat (events : List Event) (event : Event) :
    latest urllib (events ++ [event]) = (event.installed urllib).getD (latest urllib events) := by
  unfold latest
  cases h : event.installed urllib <;> simp [List.filterMap_append, h]

/-- Events that end no fetch with success leave the latest pair the latest. -/
theorem latest_append {after : List Event} (h : ∀ event ∈ after, event.installed urllib = none) :
    latest urllib (before ++ after) = latest urllib before := by
  unfold latest
  rw [List.filterMap_append, List.filterMap_eq_nil_iff.mpr h, List.append_nil]

/-! ### What is read -/

@[simp] theorem refresh_expires (surroundings : Surroundings) (s : Snapshot) :
    (refresh urllib surroundings s).expires = s.expires := by
  unfold refresh
  split <;> rfl

theorem refresh_registry (surroundings : Surroundings) (s : Snapshot) :
    (refresh urllib surroundings s).registry = (fetched urllib surroundings).getD s.registry := by
  unfold refresh
  split
  · next registry h => rw [h]; rfl
  · next h => rw [h]; rfl

/-- A step changes the pair to that of a successful fetch it ends. -/
theorem Step.registry (h : Step urllib p event p') :
    p'.snapshot.registry = (event.installed urllib).getD p.snapshot.registry := by
  cases h with
  | lookup now surroundings fetching snapshot hclock hcurrent =>
      unfold current at hcurrent
      split at hcurrent
      · obtain ⟨rfl, rfl⟩ := Prod.mk.inj hcurrent
        exact refresh_registry surroundings _
      · split at hcurrent <;> (obtain ⟨rfl, rfl⟩ := Prod.mk.inj hcurrent; rfl)
  | complete started surroundings hflight => exact refresh_registry surroundings _
  | read hreader => rfl

/-- The pair in the snapshot is the latest, and so was each pair read. -/
structure Shown (urllib : Urllib) (p : Process) (events : List Event) : Prop where
  latest : p.snapshot.registry = latest urllib events
  reads : ∀ before seen, before ++ [.read seen] <+: events → seen = Discovery.latest urllib before

theorem shown_inductive :
    (discovery urllib).traced.Inductive fun s => Shown urllib s.1 s.2 where
  init := by
    rintro ⟨p, events⟩ ⟨hp, hevents⟩
    obtain rfl : p = {} := hp
    obtain rfl : events = [] := hevents
    exact ⟨rfl, fun before seen h => by simp at h⟩
  step := by
    rintro ⟨p, events⟩ event ⟨p', events'⟩ hinv ⟨hstep, hevents⟩
    obtain rfl : events' = events ++ [event] := hevents
    refine ⟨?_, fun before seen h => ?_⟩
    · change p'.snapshot.registry = _
      rw [hstep.registry, latest_concat, hinv.latest]
    · rcases List.prefix_concat_iff.mp h with heq | hbefore
      · obtain ⟨rfl, hread⟩ := List.append_inj' heq rfl
        obtain rfl := List.singleton_inj.mp hread
        cases hstep with
        | read hreader => exact hinv.latest
      · exact hinv.reads before seen hbefore

/-! ### When a fetch is started -/

/-- What a step does to the stamp. -/
inductive Stamps (p p' : Process) : Event → Prop
  | first (now : ℚ) (surroundings : Surroundings) (hunstamped : p.snapshot.expires = none)
      (hstamp : p'.snapshot.expires = some (now + cacheSeconds)) :
      Stamps p p' (.lookup now .inline surroundings)
  | expired (now expires : ℚ) (surroundings : Surroundings)
      (hexpires : p.snapshot.expires = some expires) (hpast : expires ≤ now)
      (hstamp : p'.snapshot.expires = some (now + cacheSeconds)) :
      Stamps p p' (.lookup now .background surroundings)
  | fresh (now expires : ℚ) (surroundings : Surroundings)
      (hexpires : p.snapshot.expires = some expires)
      (hkept : p'.snapshot.expires = p.snapshot.expires) :
      Stamps p p' (.lookup now .none surroundings)
  | other (event : Event) (hevent : event.isLookup = false)
      (hkept : p'.snapshot.expires = p.snapshot.expires) : Stamps p p' event

theorem Step.stamps (h : Step urllib p event p') : Stamps p p' event := by
  cases h with
  | lookup now surroundings fetching snapshot hclock hcurrent =>
      unfold current at hcurrent
      split at hcurrent
      · next hunstamped =>
          obtain ⟨rfl, rfl⟩ := Prod.mk.inj hcurrent
          exact .first now surroundings hunstamped (refresh_expires surroundings _)
      · next expires hexpires =>
          split at hcurrent
          · next hpast =>
              obtain ⟨rfl, rfl⟩ := Prod.mk.inj hcurrent
              exact .expired now expires surroundings hexpires hpast rfl
          · obtain ⟨rfl, rfl⟩ := Prod.mk.inj hcurrent
            exact .fresh now expires surroundings hexpires rfl
  | complete started surroundings hflight =>
      exact .other _ rfl (refresh_expires surroundings p.snapshot)
  | read hreader => exact .other _ rfl rfl

/-- The readings at which fetches were started are a stamp's life apart, the
last of them no later than the stamp allows, and only a lookup before any other
has waited. -/
structure Spaced (p : Process) (events : List Event) : Prop where
  apart : (events.filterMap Event.fetchedAt).Pairwise
    fun earlier later => earlier + cacheSeconds ≤ later
  stamp : ∀ started ∈ events.filterMap Event.fetchedAt,
    ∃ expires, p.snapshot.expires = some expires ∧ started + cacheSeconds ≤ expires
  unstamped : p.snapshot.expires = none ↔ ∀ event ∈ events, event.isLookup = false
  waits : ∀ before event, before ++ [event] <+: events →
    (event.waits = true ↔ event.isLookup = true ∧ ∀ other ∈ before, other.isLookup = false)

/-- A fetch is started a stamp's life after every earlier one, and stamps anew. -/
theorem Spaced.starts (h : Spaced p events) (hstamps : Stamps p p' event) :
    (∃ now, event.fetchedAt = some now ∧ p'.snapshot.expires = some (now + cacheSeconds) ∧
      ∀ started ∈ events.filterMap Event.fetchedAt, started + cacheSeconds ≤ now) ∨
    (event.fetchedAt = none ∧ p'.snapshot.expires = p.snapshot.expires) := by
  cases hstamps with
  | first now surroundings hunstamped hstamp =>
      refine .inl ⟨now, rfl, hstamp, fun started hstarted => ?_⟩
      obtain ⟨expires, hexpires, -⟩ := h.stamp started hstarted
      exact absurd (hexpires.symm.trans hunstamped) (Option.some_ne_none expires)
  | expired now expires surroundings hexpires hpast hstamp =>
      refine .inl ⟨now, rfl, hstamp, fun started hstarted => ?_⟩
      obtain ⟨expires', hexpires', hle⟩ := h.stamp started hstarted
      obtain rfl := Option.some.inj (hexpires'.symm.trans hexpires)
      exact hle.trans hpast
  | fresh now expires surroundings hexpires hkept => exact .inr ⟨rfl, hkept⟩
  | other event hevent hkept =>
      refine .inr ⟨?_, hkept⟩
      cases event with
      | lookup => simp [Event.isLookup] at hevent
      | complete => rfl
      | read => rfl

theorem Stamps.waits_iff (h : Stamps p p' event) :
    event.waits = true ↔ event.isLookup = true ∧ p.snapshot.expires = none := by
  cases h with
  | first now surroundings hunstamped => simp [Event.waits, Event.isLookup, hunstamped]
  | expired now expires surroundings hexpires => simp [Event.waits, hexpires]
  | fresh now expires surroundings hexpires => simp [Event.waits, hexpires]
  | other event hevent => cases event <;> simp_all [Event.waits, Event.isLookup]

theorem Stamps.unstamped_iff (h : Stamps p p' event) :
    p'.snapshot.expires = none ↔ p.snapshot.expires = none ∧ event.isLookup = false := by
  cases h with
  | first now surroundings hunstamped hstamp => simp [hstamp, Event.isLookup]
  | expired now expires surroundings hexpires hpast hstamp => simp [hstamp, Event.isLookup]
  | fresh now expires surroundings hexpires hkept => simp [hkept, hexpires]
  | other event hevent hkept => simp [hkept, hevent]

theorem Spaced.step (h : Spaced p events) (hstamps : Stamps p p' event) :
    Spaced p' (events ++ [event]) where
  apart := by
    rw [List.filterMap_append]
    rcases h.starts hstamps with ⟨now, hnow, -, hspaced⟩ | ⟨hnone, -⟩
    · refine List.pairwise_append.mpr ⟨h.apart, ?_, fun started hstarted later hlater => ?_⟩
      · simp [hnow]
      · obtain rfl : later = now := by simpa [hnow] using hlater
        exact hspaced started hstarted
    · simpa [hnone] using h.apart
  stamp := by
    intro started hstarted
    rw [List.filterMap_append, List.mem_append] at hstarted
    rcases h.starts hstamps with ⟨now, hnow, hstamp, hspaced⟩ | ⟨hnone, hkept⟩
    · refine ⟨_, hstamp, ?_⟩
      rcases hstarted with hearlier | hlast
      · have hlife : (0 : ℚ) ≤ cacheSeconds := by decide
        have hspace := hspaced started hearlier
        linarith
      · obtain rfl : started = now := by simpa [hnow] using hlast
        exact le_refl _
    · rw [hkept]
      exact h.stamp started (by simpa [hnone] using hstarted)
  unstamped := by
    rw [hstamps.unstamped_iff, h.unstamped, List.forall_mem_append, List.forall_mem_singleton]
  waits := by
    intro before last hprefix
    rcases List.prefix_concat_iff.mp hprefix with heq | hbefore
    · obtain ⟨rfl, hlast⟩ := List.append_inj' heq rfl
      obtain rfl := List.singleton_inj.mp hlast
      rw [hstamps.waits_iff, h.unstamped]
    · exact h.waits before last hbefore

theorem spaced_inductive : (discovery urllib).traced.Inductive fun s => Spaced s.1 s.2 where
  init := by
    rintro ⟨p, events⟩ ⟨hp, hevents⟩
    obtain rfl : p = {} := hp
    obtain rfl : events = [] := hevents
    exact ⟨List.Pairwise.nil, by simp, by simp, fun before event h => by simp at h⟩
  step := by
    rintro ⟨p, events⟩ event ⟨p', events'⟩ hinv ⟨hstep, hevents⟩
    obtain rfl : events' = events ++ [event] := hevents
    exact hinv.step hstep.stamps

/-! ### Every interleaving -/

theorem discovery_run (h : (discovery urllib).traced.Reachable (p, events)) :
    (events.filterMap Event.fetchedAt).Pairwise
      (fun earlier later => earlier + cacheSeconds ≤ later) ∧
    (∀ before event, before ++ [event] <+: events →
      (event.waits = true ↔ event.isLookup = true ∧ ∀ other ∈ before, other.isLookup = false)) ∧
    (∀ before seen, before ++ [.read seen] <+: events → seen = latest urllib before) ∧
    (∀ before after, events = before ++ after →
      (∀ event ∈ after, event.installed urllib = none) →
      p.snapshot.registry = latest urllib before) ∧
    (∀ event p', Step urllib p event p' → event.installed urllib = none →
      p'.snapshot.registry = p.snapshot.registry) ∧
    (∀ (event : Event) (surroundings : Surroundings), event.fetchEnded = some surroundings →
      Fails surroundings → event.installed urllib = none) ∧
    ∀ (event : Event) (surroundings : Surroundings) (document : Python.JsonValue),
      event.fetchEnded = some surroundings → Answers urllib surroundings document →
      WellFormed document → ∃ registry, registryOf document = some registry ∧
        event.installed urllib = some registry := by
  have hspaced : Spaced p events := spaced_inductive.reachable h
  have hshown : Shown urllib p events := shown_inductive.reachable h
  refine ⟨hspaced.apart, hspaced.waits, hshown.reads, ?_, ?_, ?_, ?_⟩
  · rintro before after rfl hafter
    rw [hshown.latest, latest_append hafter]
  · intro event p' hstep hnone
    rw [hstep.registry, hnone, Option.getD_none]
  · intro event surroundings hended hfails
    rw [Event.installed, hended, Option.bind_some, fetched_of_fails urllib surroundings hfails]
  · intro event surroundings document hended hanswers hformed
    obtain ⟨registry, hregistry⟩ :=
      Option.isSome_iff_exists.mp ((isSome_registryOf_iff document).mpr hformed)
    refine ⟨registry, hregistry, ?_⟩
    rw [Event.installed, hended, Option.bind_some, fetched_of_answers urllib surroundings hanswers,
      hregistry]

/-! A process that discovers a service, and loses the registry. -/

def testUrllib : Urllib where
  urljoin base url :=
    if base = "http://update-service/api/registry/registration/" ∧ url = "../discovery/" then
      some "http://update-service/api/registry/discovery/"
    else none
  urlencode pairs := String.intercalate "&" (pairs.map fun pair => pair.1 ++ "=" ++ pair.2)
  accepts _ := true

def testEnviron : Environ := fun name =>
  [(urlEnv, "http://update-service/api/registry/registration/"), (tokenEnv, "token"),
    (environmentEnv, "staging")].lookup name

def testDocument : Python.JsonValue :=
  .obj [("services", .arr [.obj [("name", .str "asset-service"), ("kind", .str "backend"),
    ("internal_base_url", .str "http://asset-service:8000")]])]

def up : Surroundings where
  environ := testEnviron
  urlopen _ := some testDocument

def down : Surroundings where
  environ := testEnviron
  urlopen _ := none

def outage : List Event :=
  [.lookup 0 .inline up, .lookup 60 .background down, .complete 60 down]

theorem current_expired {now expires : ℚ} {surroundings : Surroundings} {s : Snapshot}
    (hexpires : s.expires = some expires) (hpast : expires ≤ now) :
    current urllib now surroundings s =
      ({ s with expires := some (now + cacheSeconds) }, .background) := by
  simp only [current, hexpires, ge_iff_le, if_pos hpast]

theorem outage_reachable : ∃ p, (discovery testUrllib).traced.Reachable (p, outage) := by
  let S := (discovery testUrllib).traced
  have hpast : 0 + cacheSeconds ≤ 60 := by
    rw [cacheSeconds]
    norm_num
  have hinit : S.Reachable ({}, []) := .of_init ⟨rfl, rfl⟩
  have hfirst := hinit.next (t := (_, _)) (show S.step _ (.lookup 0 .inline up) _ from
    ⟨.lookup 0 up .inline _ (by simp) rfl, rfl⟩)
  have hsecond := hfirst.next (t := (_, _)) (show S.step _ (.lookup 60 .background down) _ from
    ⟨.lookup 60 down .background _ (by simp) (current_expired (refresh_expires up _) hpast), rfl⟩)
  have hended := hsecond.next (t := (_, _)) (show S.step _ (.complete 60 down) _ from
    ⟨.complete 60 down (by simp), rfl⟩)
  exact ⟨_, hended⟩

/-- What the first lookup has found outlasts the outage. -/
theorem discovery_outage :
    ∃ p, (discovery testUrllib).traced.Reachable (p, outage) ∧
      (outage.filterMap Event.fetchedAt).Pairwise
        (fun earlier later => earlier + cacheSeconds ≤ later) ∧
      (∀ before event, before ++ [event] <+: outage →
        (event.waits = true ↔ event.isLookup = true ∧ ∀ other ∈ before, other.isLookup = false)) ∧
      p.snapshot.urls = [(.str "asset-service", .str "http://asset-service:8000")] := by
  obtain ⟨p, hreachable⟩ := outage_reachable
  obtain ⟨hapart, hwaits, -, hkept, -⟩ := discovery_run hreachable
  have hfailed : ∀ event ∈ [.lookup 60 .background down, .complete 60 down],
      Event.installed testUrllib event = none := by
    simp only [List.forall_mem_cons, List.not_mem_nil, false_implies, implies_true, and_true]
    exact ⟨rfl, rfl⟩
  have hregistry := hkept [.lookup 0 .inline up] _ rfl hfailed
  exact ⟨p, hreachable, hapart, hwaits, congrArg Registry.urls hregistry⟩

end NetixBackend.Discovery
