import NetixBackend.Env
import NetixBackend.Python.Json
import Mathlib.Data.Finset.Insert

/-!
One fetch of update-service's registry.

A fetch reads the environment, asks for the registry document and picks two
things out of it: a URL for each name, and the public origins of the frontends.
It returns both or neither. Whatever goes wrong once the request is out, in the
transport, in the document or in one of its entries, it returns neither.
-/

namespace NetixBackend.Discovery

open Python

def urlEnv : String := "UPDATE_SERVICE_REGISTRATION_URL"
def tokenEnv : String := "SERVICE_REGISTRATION_TOKEN"
def tokenHeader : String := "X-Service-Registration-Token"
def environmentEnv : String := "SERVICE_REGISTRATION_ENVIRONMENT"

structure Request where
  fullUrl : String
  headers : List (String × String)

/-- What is used of `urllib`. -/
structure Urllib where
  /-- `urljoin(base, url)`; `none` is its `ValueError`. -/
  urljoin : String → String → Option String
  urlencode : List (String × String) → String
  /-- `Request(url)` raises no `ValueError`. -/
  accepts : String → Bool

/-- The environment a fetch reads, and how its request ends: with the document
of the response, or `none` if `urlopen` or `json.load` raises. -/
structure Surroundings where
  environ : Environ
  urlopen : Request → Option JsonValue

/-- What is kept of the registry. `urls` is a dict, whose keys are the names as
the document has them. -/
structure Registry where
  urls : List (JsonValue × JsonValue) := []
  origins : Finset String := ∅

instance : Inhabited Registry := ⟨{}⟩

/-- The `ValueError` of a URL that is none, which is raised outside the `try`. -/
inductive UrlError
  | valueError

/-! ### The document -/

/-- `document["services"]`. -/
def services : JsonValue → Option JsonValue
  | .obj fields => fields.lookup "services"
  | _ => none

/-- The items of a `for` loop over a value; numbers, booleans and `None` have
none to iterate over. -/
def iterate : JsonValue → Option (List JsonValue)
  | .arr items => some items
  | .obj fields => some (fields.map fun field => .str field.1)
  | .str text => some (text.toList.map fun c => .str (String.singleton c))
  | _ => none

/-- Only a dict has `get`. -/
def fieldsOf : JsonValue → Option (List (String × JsonValue))
  | .obj fields => some fields
  | _ => none

/-- `fields.get(key)`, as a condition. -/
def getTruthy (fields : List (String × JsonValue)) (key : String) : Option JsonValue :=
  (fields.lookup key).filter JsonValue.truthy

def hashable : JsonValue → Bool
  | .arr _ | .obj _ => false
  | _ => true

/-- `urls[name] = url`. -/
def setUrl (name url : JsonValue) : List (JsonValue × JsonValue) → List (JsonValue × JsonValue)
  | [] => [(name, url)]
  | (name', url') :: rest =>
      if name'.pyEq name then (name', url) :: rest else (name', url') :: setUrl name url rest

/-- One entry of the comprehension of `urls`. -/
def addUrl (urls : List (JsonValue × JsonValue)) (entry : JsonValue) :
    Option (List (JsonValue × JsonValue)) := do
  let fields ← fieldsOf entry
  match getTruthy fields "internal_base_url" with
  | none => some urls
  | some url =>
      let name ← fields.lookup "name"
      if hashable name then some (setUrl name url urls) else none

/-- `text.rstrip("/")`. -/
def rstripSlash (text : String) : String :=
  String.ofList (text.toList.reverse.dropWhile (· = '/')).reverse

def isFrontend (fields : List (String × JsonValue)) : Bool :=
  match fields.lookup "kind" with
  | some kind => kind.pyEq (.str "frontend")
  | none => false

/-- One entry of the generator of `origins`. -/
def addOrigin (origins : Finset String) (entry : JsonValue) : Option (Finset String) := do
  let fields ← fieldsOf entry
  if isFrontend fields then
    match getTruthy fields "base_url" with
    | none => some origins
    | some (.str url) => some (insert (rstripSlash url) origins)
    | some _ => none
  else some origins

/-- The body of the `try` after the response is there. -/
def registryOf (document : JsonValue) : Option Registry := do
  let entries ← (services document).bind iterate
  let urls ← entries.foldlM addUrl []
  let origins ← entries.foldlM addOrigin ∅
  pure { urls, origins }

/-! ### The fetch -/

variable (urllib : Urllib) (surroundings : Surroundings)

/-- `env_str(name)`. -/
def envStr (name : String) : Option String := surroundings.environ.lookup name

def discoveryUrl : Except UrlError (Option String) :=
  match envStr surroundings urlEnv with
  | none => .ok none
  | some registrationUrl =>
      match urllib.urljoin registrationUrl "../discovery/" with
      | some url => .ok (some url)
      | none => .error .valueError

/-- The request of a fetch. -/
def requestFor (url token environment : String) : Request where
  fullUrl := url ++ "?" ++ urllib.urlencode [("environment", environment)]
  headers := [(tokenHeader, token)]

/-- `_fetch()`. -/
def fetch : Except UrlError (Option Registry) := do
  let url ← discoveryUrl urllib surroundings
  match url.filter (· ≠ ""), envStr surroundings tokenEnv, envStr surroundings environmentEnv with
  | some url, some token, some environment =>
      let request := requestFor urllib url token environment
      if urllib.accepts request.fullUrl then
        .ok ((surroundings.urlopen request).bind registryOf)
      else .error .valueError
  | _, _, _ => .ok none

/-- The pair a fetch ends with, if it does not fail. -/
def fetched : Option Registry :=
  match fetch urllib surroundings with
  | .ok registry => registry
  | .error _ => none

/-! ### When a fetch fails -/

/-- An entry with a URL has a name to file it under. -/
def NamesUrl (entry : JsonValue) : Prop :=
  ∃ fields, fieldsOf entry = some fields ∧
    ((getTruthy fields "internal_base_url").isSome →
      ∃ name, fields.lookup "name" = some name ∧ hashable name = true)

/-- The URL of a frontend is a string. -/
def NamesOrigin (entry : JsonValue) : Prop :=
  ∃ fields, fieldsOf entry = some fields ∧
    (isFrontend fields = true → ∀ url, getTruthy fields "base_url" = some url →
      ∃ text, url = .str text)

/-- A registry document every entry of which is well formed. -/
def WellFormed (document : JsonValue) : Prop :=
  ∃ entries, (services document).bind iterate = some entries ∧
    ∀ entry ∈ entries, NamesUrl entry ∧ NamesOrigin entry

/-- There is a URL, a token and an environment to ask with, and this document in
answer. -/
def Answers (document : JsonValue) : Prop :=
  ∃ url token environment, discoveryUrl urllib surroundings = .ok (some url) ∧ url ≠ "" ∧
    envStr surroundings tokenEnv = some token ∧
    envStr surroundings environmentEnv = some environment ∧
    urllib.accepts (requestFor urllib url token environment).fullUrl = true ∧
    surroundings.urlopen (requestFor urllib url token environment) = some document

/-- The ways in which a fetch fails: no URL, no token or no environment to ask
with, no answer, or no well-formed answer. -/
def Fails : Prop :=
  envStr surroundings urlEnv = none ∨ envStr surroundings tokenEnv = none ∨
    envStr surroundings environmentEnv = none ∨
    (∀ request, surroundings.urlopen request = none) ∨
    ∀ request document, surroundings.urlopen request = some document → ¬ WellFormed document

/-- A comprehension over entries that each may raise is there if none does. -/
theorem isSome_foldlM_iff {α β : Type} {f : α → β → Option α} {Ok : β → Prop}
    (hf : ∀ acc b, (f acc b).isSome ↔ Ok b) (items : List β) (acc : α) :
    (items.foldlM f acc).isSome ↔ ∀ item ∈ items, Ok item := by
  induction items generalizing acc with
  | nil => simp
  | cons item items ih =>
      rw [List.foldlM_cons, List.forall_mem_cons, ← hf acc item]
      cases f acc item with
      | none => simp
      | some acc' => simpa using ih acc'

theorem isSome_addUrl_iff (urls : List (JsonValue × JsonValue)) (entry : JsonValue) :
    (addUrl urls entry).isSome ↔ NamesUrl entry := by
  unfold addUrl NamesUrl
  cases fieldsOf entry with
  | none => simp
  | some fields =>
      cases hurl : getTruthy fields "internal_base_url" with
      | none => simp [hurl]
      | some url =>
          cases hname : fields.lookup "name" with
          | none => simp [hurl, hname]
          | some name => cases hhash : hashable name <;> simp [hurl, hname, hhash]

theorem isSome_addOrigin_iff (origins : Finset String) (entry : JsonValue) :
    (addOrigin origins entry).isSome ↔ NamesOrigin entry := by
  unfold addOrigin NamesOrigin
  cases fieldsOf entry with
  | none => simp
  | some fields =>
      cases hkind : isFrontend fields with
      | false => simp [hkind]
      | true =>
          cases hurl : getTruthy fields "base_url" with
          | none => simp [hkind, hurl]
          | some url => cases url <;> simp [hkind, hurl]

theorem isSome_registryOf_iff (document : JsonValue) :
    (registryOf document).isSome ↔ WellFormed document := by
  unfold registryOf WellFormed
  cases hentries : (services document).bind iterate with
  | none => simp
  | some entries =>
      have hurls := isSome_foldlM_iff isSome_addUrl_iff entries []
      have horigins := isSome_foldlM_iff isSome_addOrigin_iff entries ∅
      have hboth : (∀ entry ∈ entries, NamesUrl entry ∧ NamesOrigin entry) ↔
          (entries.foldlM addUrl []).isSome ∧ (entries.foldlM addOrigin ∅).isSome := by
        rw [hurls, horigins]
        exact ⟨fun h => ⟨fun e he => (h e he).1, fun e he => (h e he).2⟩,
          fun h e he => ⟨h.1 e he, h.2 e he⟩⟩
      simp only [Option.some.injEq, exists_eq_left', hboth, Option.bind_eq_bind, Option.bind_some,
        Option.pure_def]
      cases entries.foldlM addUrl [] with
      | none => simp
      | some urls => cases entries.foldlM addOrigin ∅ <;> simp

theorem registrationUrl_of_discoveryUrl {url : Option String} {url' : String}
    (h : discoveryUrl urllib surroundings = .ok url) (hsome : url.filter (· ≠ "") = some url') :
    ∃ registrationUrl, envStr surroundings urlEnv = some registrationUrl := by
  cases hregistration : envStr surroundings urlEnv with
  | none =>
      simp only [discoveryUrl, hregistration, Except.ok.injEq] at h
      simp [← h] at hsome
  | some registrationUrl => exact ⟨registrationUrl, rfl⟩

/-- What a fetch that succeeds found on its way. -/
theorem found_of_fetched {registry : Registry} (h : fetched urllib surroundings = some registry) :
    ∃ registrationUrl token environment request document,
      envStr surroundings urlEnv = some registrationUrl ∧
      envStr surroundings tokenEnv = some token ∧
      envStr surroundings environmentEnv = some environment ∧
      surroundings.urlopen request = some document ∧ registryOf document = some registry := by
  unfold fetched at h
  split at h
  · next found hfetch =>
      obtain rfl := h
      unfold fetch at hfetch
      cases hurl : discoveryUrl urllib surroundings with
      | error => rw [hurl] at hfetch; cases hfetch
      | ok url =>
          rw [hurl] at hfetch
          simp only [bind, Except.bind] at hfetch
          split at hfetch
          · next url' token environment hsome htoken henvironment =>
              split at hfetch
              · obtain ⟨document, hopen, hregistry⟩ := Option.bind_eq_some_iff.mp (Except.ok.inj hfetch)
                obtain ⟨registrationUrl, hregistration⟩ := registrationUrl_of_discoveryUrl urllib surroundings hurl hsome
                exact ⟨registrationUrl, token, environment, _, document, hregistration, htoken,
                  henvironment, hopen, hregistry⟩
              · cases hfetch
          · cases hfetch
  · cases h

theorem fetched_of_answers {document : JsonValue} (h : Answers urllib surroundings document) :
    fetched urllib surroundings = registryOf document := by
  obtain ⟨url, token, environment, hurl, hne, htoken, henvironment, haccepts, hopen⟩ := h
  have hfetch : fetch urllib surroundings = .ok (registryOf document) := by
    rw [fetch, hurl, htoken, henvironment]
    simp [bind, Except.bind, Option.filter, hne, haccepts, hopen]
  rw [fetched, hfetch]

/-- A fetch that fails in one of these ways installs nothing. -/
theorem fetched_of_fails (h : Fails surroundings) : fetched urllib surroundings = none := by
  cases hfetched : fetched urllib surroundings with
  | none => rfl
  | some registry =>
      obtain ⟨registrationUrl, token, environment, request, document, hurl, htoken, henvironment,
        hopen, hregistry⟩ := found_of_fetched urllib surroundings hfetched
      have hformed : WellFormed document :=
        (isSome_registryOf_iff document).mp (Option.isSome_iff_exists.mpr ⟨registry, hregistry⟩)
      rcases h with h | h | h | h | h
      · exact absurd (hurl.symm.trans h) (Option.some_ne_none _)
      · exact absurd (htoken.symm.trans h) (Option.some_ne_none _)
      · exact absurd (henvironment.symm.trans h) (Option.some_ne_none _)
      · exact absurd (hopen.symm.trans (h request)) (Option.some_ne_none _)
      · exact absurd hformed (h request document hopen)

end NetixBackend.Discovery
