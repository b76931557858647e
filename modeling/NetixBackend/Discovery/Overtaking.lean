import NetixBackend.Discovery.Cache

/-!
Which fetch a lookup's answer comes from.

A fetch installs what it got when it ends, and does not ask whether a fetch
started after it has ended before. That is the only way for the answers to go
back: as long as no fetch is overtaken, what is read comes from fetches in the
order they were started.
-/

namespace NetixBackend.Discovery

open Transition

variable (urllib : Urllib)

namespace Event

/-- The reading at which the fetch that ends with the event was started. -/
def endedFrom : Event → Option ℚ
  | .lookup now .inline _ => some now
  | .complete started _ => some started
  | _ => none

/-- The fetch that ends with the event and has not failed: when it was started,
and the pair it installs. -/
def install (event : Event) : Option (ℚ × Registry) :=
  event.endedFrom.bind fun started => (event.installed urllib).map fun registry => (started, registry)

end Event

/-- The fetch whose pair is shown after the events. -/
def latestFetch (events : List Event) : Option (ℚ × Registry) :=
  (events.filterMap (Event.install urllib)).getLast?

/-- Of two reads of a run that both show what a fetch got, the later one shows a
fetch started no earlier. -/
def Forward (events : List Event) : Prop :=
  ∀ before first between second, before ++ .read first :: between ++ [.read second] <+: events →
    ∀ fetch ∈ latestFetch urllib before,
    ∀ fetch' ∈ latestFetch urllib (before ++ .read first :: between),
      first = fetch.2 ∧ second = fetch'.2 ∧ fetch.1 ≤ fetch'.1

/-- A fetch that ends with success does so before one started later has. -/
def NotOvertaken (s : Process × List Event) (event : Event) : Prop :=
  ∀ fetch ∈ event.install urllib, ∀ earlier ∈ s.2, ∀ installed ∈ earlier.install urllib,
    installed.1 ≤ fetch.1

variable {urllib} {p : Process} {events before : List Event}

theorem Event.installed_eq (event : Event) :
    event.installed urllib = (event.install urllib).map Prod.snd := by
  cases event with
  | lookup now fetching surroundings => cases fetching <;> simp [install, installed, endedFrom, fetchEnded]
  | complete started surroundings => simp [install, endedFrom]
  | read seen => rfl

/-- The pair shown is that of the fetch shown. -/
theorem latest_of_latestFetch {fetch : ℚ × Registry} (h : latestFetch urllib events = some fetch) :
    latest urllib events = fetch.2 := by
  have hinstalled : Event.installed urllib = fun event => (event.install urllib).map Prod.snd :=
    funext Event.installed_eq
  rw [latest, hinstalled, ← List.map_filterMap, List.getLast?_map]
  rw [latestFetch] at h
  rw [h]
  rfl

/-- The fetches that have installed a pair, by when they were started. -/
def Ordered (urllib : Urllib) (events : List Event) : Prop :=
  (events.filterMap (Event.install urllib)).Pairwise fun fetch fetch' => fetch.1 ≤ fetch'.1

theorem ordered_inductive :
    ((discovery urllib).traced.restrict (NotOvertaken urllib)).Inductive fun s =>
      Ordered urllib s.2 where
  init := by
    rintro ⟨p, events⟩ ⟨-, hevents⟩
    obtain rfl : events = [] := hevents
    exact List.Pairwise.nil
  step := by
    rintro ⟨p, events⟩ event ⟨p', events'⟩ hinv ⟨hguard, -, hevents⟩
    obtain rfl : events' = events ++ [event] := hevents
    rw [Ordered, List.filterMap_append]
    refine List.pairwise_append.mpr ⟨hinv, ?_, ?_⟩
    · cases h : event.install urllib <;> simp [h]
    · intro installed hinstalled fetch hfetch
      obtain ⟨earlier, hearlier, hinstall⟩ := List.mem_filterMap.mp hinstalled
      refine hguard fetch ?_ earlier hearlier installed hinstall
      simpa [List.mem_filterMap, eq_comm] using hfetch

/-- Of ordered fetches the one shown later was started no earlier. -/
theorem Ordered.latestFetch_le {after : List Event} {fetch fetch' : ℚ × Registry}
    (h : Ordered urllib (before ++ after)) (hfetch : latestFetch urllib before = some fetch)
    (hfetch' : latestFetch urllib (before ++ after) = some fetch') : fetch.1 ≤ fetch'.1 := by
  rw [Ordered, List.filterMap_append] at h
  rw [latestFetch] at hfetch
  rw [latestFetch, List.filterMap_append] at hfetch'
  cases hlast : (after.filterMap (Event.install urllib)).getLast? with
  | none =>
      rw [List.getLast?_append, hlast, hfetch, Option.none_or] at hfetch'
      rw [Option.some.inj hfetch']
  | some last =>
      rw [List.getLast?_append, hlast, Option.some_or] at hfetch'
      obtain rfl := Option.some.inj hfetch'
      exact (List.pairwise_append.mp h).2.2 _ (List.mem_of_getLast? hfetch) _
        (List.mem_of_getLast? hlast)

/-- The fetches of a part of the run are ordered too. -/
theorem Ordered.upTo (h : Ordered urllib events) (hbefore : before <+: events) :
    Ordered urllib before :=
  List.Pairwise.sublist (hbefore.sublist.filterMap _) h

theorem forward_of_notOvertaken
    (h : ((discovery urllib).traced.restrict (NotOvertaken urllib)).Reachable (p, events)) :
    Forward urllib events := by
  have hordered : Ordered urllib events := ordered_inductive.reachable h
  have hshown : Shown urllib p events := shown_inductive.reachable h.of_restrict
  intro before first between second hprefix fetch hfetch fetch' hfetch'
  have hbefore : before ++ .read first :: between <+: events :=
    (List.prefix_append _ _).trans hprefix
  have hfirst : before ++ [.read first] <+: events :=
    List.IsPrefix.trans ⟨between, List.append_assoc ..⟩ hbefore
  refine ⟨?_, ?_, ?_⟩
  · rw [hshown.reads before first hfirst, latest_of_latestFetch hfetch]
  · rw [hshown.reads _ second hprefix, latest_of_latestFetch hfetch']
  · exact (hordered.upTo hbefore).latestFetch_le hfetch hfetch'

/-! A process whose second refresh takes longer than its third. -/

def moved : Surroundings where
  environ := testEnviron
  urlopen _ := some (.obj [("services", .arr [.obj [("name", .str "asset-service"),
    ("kind", .str "backend"), ("internal_base_url", .str "http://asset-service:9000")]])])

def oldRegistry : Registry := ⟨[(.str "asset-service", .str "http://asset-service:8000")], ∅⟩

def newRegistry : Registry := ⟨[(.str "asset-service", .str "http://asset-service:9000")], ∅⟩

def overtaken : List Event :=
  [.lookup 0 .inline down, .lookup 60 .background up, .lookup 120 .background moved,
    .complete 120 moved, .lookup 121 .none down, .read newRegistry,
    .complete 60 up, .lookup 122 .none down, .read oldRegistry]

theorem current_fresh {now expires : ℚ} {surroundings : Surroundings} {s : Snapshot}
    (hexpires : s.expires = some expires) (hfresh : now < expires) :
    current urllib now surroundings s = (s, .none) := by
  simp only [current, hexpires, ge_iff_le, if_neg (not_le.mpr hfresh)]

theorem overtaken_reachable : ∃ p, (discovery testUrllib).traced.Reachable (p, overtaken) := by
  let S := (discovery testUrllib).traced
  have hpast : ∀ now later : ℚ, now + 60 ≤ later → now + cacheSeconds ≤ later := fun _ _ h => h
  have hinit : S.Reachable ({}, []) := .of_init ⟨rfl, rfl⟩
  have h₁ := hinit.next (t := (_, _)) (show S.step _ (.lookup 0 .inline down) _ from
    ⟨.lookup 0 down .inline _ (by simp) rfl, rfl⟩)
  have h₂ := h₁.next (t := (_, _)) (show S.step _ (.lookup 60 .background up) _ from
    ⟨.lookup 60 up .background _ (by simp)
      (current_expired (refresh_expires down _) (hpast _ _ (by norm_num))), rfl⟩)
  have h₃ := h₂.next (t := (_, _)) (show S.step _ (.lookup 120 .background moved) _ from
    ⟨.lookup 120 moved .background _ (by norm_num)
      (current_expired rfl (hpast _ _ (by norm_num))), rfl⟩)
  have h₄ := h₃.next (t := (_, _)) (show S.step _ (.complete 120 moved) _ from
    ⟨.complete 120 moved (by simp), rfl⟩)
  have h₅ := h₄.next (t := (_, _)) (show S.step _ (.lookup 121 .none down) _ from
    ⟨.lookup 121 down .none _ (by norm_num)
      (current_fresh (refresh_expires moved _) (by rw [cacheSeconds]; norm_num)), rfl⟩)
  have h₆ := h₅.next (t := (_, _)) (show S.step _ (.read newRegistry) _ from
    ⟨.read (by simp [raises]), rfl⟩)
  have h₇ := h₆.next (t := (_, _)) (show S.step _ (.complete 60 up) _ from
    ⟨.complete 60 up (by simp), rfl⟩)
  have h₈ := h₇.next (t := (_, _)) (show S.step _ (.lookup 122 .none down) _ from
    ⟨.lookup 122 down .none _ (by norm_num)
      (current_fresh (refresh_expires up _) (by rw [cacheSeconds]; norm_num)), rfl⟩)
  have h₉ := h₈.next (t := (_, _)) (show S.step _ (.read oldRegistry) _ from
    ⟨.read (by simp [raises]), rfl⟩)
  exact ⟨_, h₉⟩

/-- The fetch started at 60 ends after the one started at 120, and what was
read at 121 is unread at 122. -/
theorem not_forward_overtaken :
    ∃ p, (discovery testUrllib).traced.Reachable (p, overtaken) ∧ ¬Forward testUrllib overtaken := by
  obtain ⟨p, hreachable⟩ := overtaken_reachable
  refine ⟨p, hreachable, fun h => ?_⟩
  obtain ⟨-, -, hle⟩ := h (overtaken.take 5) newRegistry [.complete 60 up, .lookup 122 .none down]
    oldRegistry (List.prefix_refl _) (120, newRegistry) rfl (60, oldRegistry) rfl
  norm_num at hle

/-- Two refreshes, one after the other. -/
def inTurn : List Event :=
  [.lookup 0 .inline up, .read oldRegistry, .lookup 60 .background moved, .complete 60 moved,
    .read newRegistry]

theorem notOvertaken_of_none {s : Process × List Event} {event : Event}
    (h : event.install urllib = none) : NotOvertaken urllib s event := by
  intro fetch hfetch
  rw [h] at hfetch
  cases hfetch

theorem inTurn_reachable : ∃ p, ((discovery testUrllib).traced.restrict
    (NotOvertaken testUrllib)).Reachable (p, inTurn) := by
  let S := (discovery testUrllib).traced.restrict (NotOvertaken testUrllib)
  have hinit : S.Reachable ({}, []) := .of_init ⟨rfl, rfl⟩
  have h₁ := hinit.next (t := (_, _)) (show S.step _ (.lookup 0 .inline up) _ from
    ⟨fun _ _ _ h => absurd h List.not_mem_nil, .lookup 0 up .inline _ (by simp) rfl, rfl⟩)
  have h₂ := h₁.next (t := (_, _)) (show S.step _ (.read oldRegistry) _ from
    ⟨notOvertaken_of_none rfl, .read (by decide), rfl⟩)
  have h₃ := h₂.next (t := (_, _)) (show S.step _ (.lookup 60 .background moved) _ from
    ⟨notOvertaken_of_none rfl, .lookup 60 moved .background _ (by norm_num)
      (current_expired (refresh_expires up _) (show 0 + (60 : ℚ) ≤ 60 by norm_num)), rfl⟩)
  have h₄ := h₃.next (t := (_, _)) (show S.step _ (.complete 60 moved) _ from
    ⟨?_, .complete 60 moved (by simp), rfl⟩)
  · have h₅ := h₄.next (t := (_, _)) (show S.step _ (.read newRegistry) _ from
      ⟨notOvertaken_of_none rfl, .read (by decide), rfl⟩)
    exact ⟨_, h₅⟩
  · intro fetch hfetch earlier hearlier installed hinstalled
    have hinstalls : [Event.lookup 0 .inline up, .read oldRegistry,
        .lookup 60 .background moved].filterMap (Event.install testUrllib) = [(0, oldRegistry)] := rfl
    have hmem : installed ∈ [((0 : ℚ), oldRegistry)] :=
      hinstalls ▸ List.mem_filterMap.mpr ⟨earlier, hearlier, hinstalled⟩
    obtain rfl : (60, newRegistry) = fetch := Option.some.inj hfetch
    rw [List.mem_singleton.mp hmem]
    norm_num

theorem forward_inTurn : Forward testUrllib inTurn := by
  obtain ⟨p, hreachable⟩ := inTurn_reachable
  exact forward_of_notOvertaken hreachable

end NetixBackend.Discovery
