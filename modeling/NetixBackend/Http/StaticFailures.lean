import NetixBackend.Http.Static
import NetixBackend.Http.RetryLoops

/-!
Which failures of the static service reach a caller as `StaticServiceError`.

The attempt that decides a call is known from the script: the first whose
outcome is not to be tried again, or the last of the budget
(`decidingAttempt`). If every delay before it can be slept the call ends as
that attempt says (`staticLoop_eq`), and if one cannot it ends in the
exception of the sleep. What is left is one attempt: an exception outside the
transient classes goes through untouched, and so does what goes wrong in
reading an accepted upload, a body that is no JSON or no object. An accepted
object with an empty `file` goes through too, as a success.
-/

namespace NetixBackend.Http

open Python RetryPolicy

variable {α : Type}

/-- An outcome that is not tried again. -/
def ServiceOutcome.final : ServiceOutcome → Bool
  | .response r => !isRetryableStatus r.statusCode
  | .retryableExc _ => false
  | .otherExc _ => true

/-- The attempt is the last one, if the call gets to it. -/
def Decides (attempts : ℤ) (service : ℕ → ServiceOutcome) (attempt : ℕ) : Prop :=
  (service attempt).final = true ∨ attempts ≤ attempt + 1

instance (attempts : ℤ) (service : ℕ → ServiceOutcome) : DecidablePred (Decides attempts service) :=
  fun _ => inferInstanceAs (Decidable (_ ∨ _))

theorem exists_decides (attempts : ℤ) (service : ℕ → ServiceOutcome) :
    ∃ attempt, Decides attempts service attempt :=
  ⟨attempts.toNat, .inr (by have := Int.self_le_toNat attempts; omega)⟩

/-- The first attempt whose outcome is final, or which exhausts the budget. -/
def decidingAttempt (attempts : ℤ) (service : ℕ → ServiceOutcome) : ℕ :=
  Nat.find (exists_decides attempts service)

/-- The backoff after an attempt can be computed and slept. -/
def BackoffSleeps (backoff : Number) (surroundings : Surroundings) (attempt : ℕ) : Prop :=
  ∃ delay, jitteredBackoff backoff attempt (surroundings.draw attempt) = some delay ∧
    RetryPolicy.timeSleeps delay = true

/-- What an attempt that decides makes of the call. -/
def verdictOf (what : String) (judge : ServiceResponse → Option (Except StaticRaised α))
    (attempts : ℤ) (attempt : ℕ) : ServiceOutcome → Except StaticRaised α
  | .otherExc name => .error (.httpx name)
  | .retryableExc name => .error (.service (.unreachable what name))
  | .response response =>
      (judge response).getD
        (.error (.service (.returned what response.statusCode (attempt + 1) attempts)))

/-- The judgments leave alone exactly the statuses that are tried again. -/
def JudgesFinal (judge : ServiceResponse → Option (Except StaticRaised α)) : Prop :=
  ∀ response, judge response = none ↔ isRetryableStatus response.statusCode = true

variable {what : String} {judge : ServiceResponse → Option (Except StaticRaised α)}
  {attempts : ℤ} {backoff : Number} {surroundings : Surroundings} {service : ℕ → ServiceOutcome}
  {attempt : ℕ} {lastError : Option StaticServiceError}

/-! ### One turn of the loop -/

theorem staticLoop_of_exhausted (h : attempts ≤ attempt) :
    staticLoop what judge attempts backoff surroundings service attempt lastError =
      .error (.service (lastError.getD (.noAttempts what))) := by
  rw [staticLoop, dif_pos h]

theorem staticLoop_of_decides (hjudge : JudgesFinal judge) (hbudget : attempt < attempts)
    (h : Decides attempts service attempt) :
    staticLoop what judge attempts backoff surroundings service attempt lastError =
      verdictOf what judge attempts attempt (service attempt) := by
  rw [staticLoop, dif_neg (not_le.mpr hbudget)]
  cases hservice : service attempt with
  | otherExc name => rfl
  | retryableExc name =>
      have hlast : attempts ≤ attempt + 1 := by
        rcases h with hfinal | hlast
        · simp [hservice, ServiceOutcome.final] at hfinal
        · exact hlast
      simp only [attempted, Option.bind_none, if_neg (not_lt.mpr hlast)]
      rw [staticLoop_of_exhausted (by push_cast; exact hlast)]
      rfl
  | response response =>
      cases hverdict : judge response with
      | some verdict => simp [attempted, hverdict, verdictOf]
      | none =>
          have hlast : attempts ≤ attempt + 1 := by
            rcases h with hfinal | hlast
            · simp [hservice, ServiceOutcome.final, (hjudge response).mp hverdict] at hfinal
            · exact hlast
          simp only [attempted, Option.bind_some, hverdict, if_neg (not_lt.mpr hlast)]
          rw [staticLoop_of_exhausted (by push_cast; exact hlast)]
          simp [verdictOf, hverdict]

/-- A turn that does not decide sleeps and goes on, or ends in the exception of
the sleep. -/
theorem staticLoop_of_not_decides (hjudge : JudgesFinal judge)
    (h : ¬ Decides attempts service attempt) :
    (BackoffSleeps backoff surroundings attempt ∧ ∃ lastError',
      staticLoop what judge attempts backoff surroundings service attempt lastError =
        staticLoop what judge attempts backoff surroundings service (attempt + 1) lastError') ∨
    (¬ BackoffSleeps backoff surroundings attempt ∧
      ((∃ delay, staticLoop what judge attempts backoff surroundings service attempt lastError =
          .error (.sleepFailed attempt delay)) ∨
        staticLoop what judge attempts backoff surroundings service attempt lastError =
          .error (.delayFailed attempt))) := by
  obtain ⟨hfinal, hbudget⟩ := not_or.mp h
  rw [not_le] at hbudget
  have hagain : ∃ response error,
      attempted what (service attempt) = .ok (response, error) ∧
        response.bind judge = none := by
    cases hservice : service attempt with
    | otherExc name => simp [hservice, ServiceOutcome.final] at hfinal
    | retryableExc name => exact ⟨none, _, rfl, rfl⟩
    | response response =>
        have hretry : judge response = none := by
          rw [hjudge]
          simpa [hservice, ServiceOutcome.final] using hfinal
        exact ⟨some response, _, rfl, hretry⟩
  obtain ⟨response, error, hattempted, hretry⟩ := hagain
  -- there is something to try again, so the loop comes to its sleep
  have hturn := staticLoop.eq_1 what judge attempts backoff surroundings service attempt lastError
  rw [dif_neg (by omega)] at hturn
  simp only [hattempted, hretry, if_pos hbudget] at hturn
  cases hdelay : jitteredBackoff backoff attempt (surroundings.draw attempt) with
  | none =>
      simp only [hdelay] at hturn
      refine .inr ⟨?_, .inr hturn⟩
      rintro ⟨delay, hsome, -⟩
      exact Option.some_ne_none _ (hsome.symm.trans hdelay)
  | some delay =>
      simp only [hdelay] at hturn
      by_cases hsleeps : RetryPolicy.timeSleeps delay = true
      · rw [if_pos hsleeps] at hturn
        exact .inl ⟨⟨delay, hdelay, hsleeps⟩, _, hturn⟩
      · rw [if_neg hsleeps] at hturn
        refine .inr ⟨?_, .inl ⟨delay, hturn⟩⟩
        rintro ⟨delay', hsome, hsleeps'⟩
        obtain rfl := Option.some.inj (hdelay.symm.trans hsome)
        exact hsleeps hsleeps'

/-! ### Whole calls -/

theorem decides_decidingAttempt : Decides attempts service (decidingAttempt attempts service) :=
  Nat.find_spec (exists_decides attempts service)

theorem not_decides_of_lt (h : attempt < decidingAttempt attempts service) :
    ¬ Decides attempts service attempt := Nat.find_min (exists_decides attempts service) h

theorem decidingAttempt_lt (hattempts : 0 < attempts) :
    (decidingAttempt attempts service : ℤ) < attempts := by
  have hdecides : Decides attempts service (attempts.toNat - 1) := .inr (by omega)
  have hle : decidingAttempt attempts service ≤ attempts.toNat - 1 :=
    Nat.find_min' (exists_decides attempts service) hdecides
  omega

/-- The call ends as its deciding attempt says, if every delay before it can be
slept; else in the exception of a sleep. -/
theorem staticLoop_eq (hjudge : JudgesFinal judge) (hattempts : 0 < attempts) {n : ℕ}
    (hn : decidingAttempt attempts service = attempt + n) :
    ((∀ i, attempt ≤ i → i < attempt + n → BackoffSleeps backoff surroundings i) ∧
      staticLoop what judge attempts backoff surroundings service attempt lastError =
        verdictOf what judge attempts (attempt + n) (service (attempt + n))) ∨
    ((¬ ∀ i, attempt ≤ i → i < attempt + n → BackoffSleeps backoff surroundings i) ∧
      ∃ i, (∃ delay, staticLoop what judge attempts backoff surroundings service attempt lastError =
          .error (.sleepFailed i delay)) ∨
        staticLoop what judge attempts backoff surroundings service attempt lastError =
          .error (.delayFailed i)) := by
  induction n generalizing attempt lastError with
  | zero =>
      have hdecides : Decides attempts service attempt :=
        (show _ = attempt from hn) ▸ decides_decidingAttempt
      have hlt : (decidingAttempt attempts service : ℤ) < attempts := decidingAttempt_lt hattempts
      rw [hn] at hlt
      refine .inl ⟨fun i hi hin => by omega, ?_⟩
      exact staticLoop_of_decides hjudge (by simpa using hlt) hdecides
  | succ n ih =>
      have hnext : attempt + (n + 1) = attempt + 1 + n := by omega
      have hnot : ¬ Decides attempts service attempt := not_decides_of_lt (by omega)
      rcases @staticLoop_of_not_decides α what judge attempts backoff surroundings service attempt
        lastError hjudge hnot with ⟨hsleeps, lastError', hturn⟩ | ⟨hsleeps, hturn⟩
      · rw [hturn, hnext]
        rcases @ih (attempt + 1) lastError' (hnext ▸ hn) with ⟨hall, hloop⟩ | ⟨hsome, hloop⟩
        · refine .inl ⟨fun i hi hin => ?_, hloop⟩
          obtain rfl | hlt := Nat.eq_or_lt_of_le hi
          · exact hsleeps
          · exact hall i hlt hin
        · exact .inr ⟨fun hall => hsome fun i hi hin => hall i (by omega) hin, hloop⟩
      · exact .inr ⟨fun hall => hsleeps (hall attempt le_rfl (by omega)), attempt, hturn⟩

/-! ### The judgments -/

theorem refused_eq_none_iff (response : ServiceResponse) :
    (refused what response : Option (Except StaticRaised α)) = none ↔
      isRetryableStatus response.statusCode = true := by
  unfold refused
  split <;> simp [*]

theorem judgesFinal_judgeUpload : JudgesFinal judgeUpload := by
  intro response
  unfold judgeUpload
  split
  · rename_i haccepted
    rcases haccepted with h | h <;> simp [isRetryableStatus, h]
  · exact refused_eq_none_iff response

theorem judgesFinal_judgeDownload (link : String) : JudgesFinal (judgeDownload link) := by
  intro response
  unfold judgeDownload
  split
  · rename_i hok
    simp [isRetryableStatus, hok]
  · split
    · rename_i hmissing
      simp [isRetryableStatus, hmissing]
    · exact refused_eq_none_iff response

/-! ### The one error type -/

/-- A result as it is to be, or the error callers are told to catch. -/
def Translated (fine : α → Prop) : Except StaticRaised α → Prop
  | .ok a => fine a
  | .error (.service _) => True
  | .error _ => False

/-- What becomes of an accepted response is up to `accepted`; only an exception
outside the transient classes is untouched. -/
def Accounted (accepted : ServiceResponse → Prop) : ServiceOutcome → Prop
  | .response r => r.statusCode = 200 ∨ r.statusCode = 201 → accepted r
  | .retryableExc _ => True
  | .otherExc _ => False

/-- If anything is tried, the loop gets to the deciding attempt and that attempt
is accounted for. -/
def Settles (accepted : ServiceResponse → Prop) (attempts : ℤ) (backoff : Number)
    (surroundings : Surroundings) (service : ℕ → ServiceOutcome) : Prop :=
  0 < attempts →
    (∀ i < decidingAttempt attempts service, BackoffSleeps backoff surroundings i) ∧
      Accounted accepted (service (decidingAttempt attempts service))

/-- `staticLoop_eq` from the first attempt. -/
theorem staticLoop_zero (hjudge : JudgesFinal judge) (hattempts : 0 < attempts) :
    ((∀ i < decidingAttempt attempts service, BackoffSleeps backoff surroundings i) ∧
      staticLoop what judge attempts backoff surroundings service 0 lastError =
        verdictOf what judge attempts (decidingAttempt attempts service)
          (service (decidingAttempt attempts service))) ∨
    ((¬ ∀ i < decidingAttempt attempts service, BackoffSleeps backoff surroundings i) ∧
      ∃ i, (∃ delay, staticLoop what judge attempts backoff surroundings service 0 lastError =
          .error (.sleepFailed i delay)) ∨
        staticLoop what judge attempts backoff surroundings service 0 lastError =
          .error (.delayFailed i)) := by
  have hloop := @staticLoop_eq α what judge attempts backoff surroundings service 0 lastError
    hjudge hattempts (decidingAttempt attempts service) (Nat.zero_add _).symm
  simpa only [Nat.zero_add, Nat.zero_le, true_imp_iff] using hloop

theorem translated_verdictOf_iff (hjudge : JudgesFinal judge) {fine : α → Prop}
    {accepted : ServiceResponse → Prop} {outcome : ServiceOutcome}
    (hverdict : ∀ r, outcome = .response r → ∀ verdict, judge r = some verdict →
      (Translated fine verdict ↔ (r.statusCode = 200 ∨ r.statusCode = 201 → accepted r))) :
    Translated fine (verdictOf what judge attempts attempt outcome) ↔ Accounted accepted outcome := by
  cases outcome with
  | otherExc name => exact Iff.rfl
  | retryableExc name => exact Iff.rfl
  | response r =>
      cases hr : judge r with
      | some verdict =>
          rw [verdictOf, hr]
          exact hverdict r rfl verdict hr
      | none =>
          have hretry := (hjudge r).mp hr
          have hrefused : ¬ (r.statusCode = 200 ∨ r.statusCode = 201) := by
            rintro (h | h) <;> simp [isRetryableStatus, h] at hretry
          rw [verdictOf, hr]
          exact iff_of_true trivial fun haccepted => absurd haccepted hrefused

theorem translated_staticLoop_iff (hjudge : JudgesFinal judge) {fine : α → Prop}
    {accepted : ServiceResponse → Prop}
    (hverdict : ∀ r, service (decidingAttempt attempts service) = .response r →
      ∀ verdict, judge r = some verdict →
        (Translated fine verdict ↔ (r.statusCode = 200 ∨ r.statusCode = 201 → accepted r))) :
    Translated fine (staticLoop what judge attempts backoff surroundings service 0 none) ↔
      Settles accepted attempts backoff surroundings service := by
  by_cases hattempts : 0 < attempts
  · rcases @staticLoop_zero α what judge attempts backoff surroundings service none hjudge
      hattempts with ⟨hsleeps, hloop⟩ | ⟨hsleeps, i, ⟨delay, hloop⟩ | hloop⟩
    · rw [hloop, translated_verdictOf_iff hjudge hverdict]
      exact ⟨fun h _ => ⟨hsleeps, h⟩, fun h => (h hattempts).2⟩
    all_goals
      rw [hloop]
      exact iff_of_false id fun h => hsleeps (h hattempts).1
  · rw [staticLoop_of_exhausted (by simpa using hattempts)]
    exact iff_of_true trivial fun h => absurd h hattempts

theorem translated_map {β : Type} {fine : β → Prop} {read : α → β}
    (result : Except StaticRaised α) :
    Translated fine (result.map read) ↔ Translated (fun a => fine (read a)) result := by
  cases result with
  | ok a => rfl
  | error error => cases error <;> rfl

theorem translated_refused {fine : α → Prop} {response : ServiceResponse}
    {verdict : Except StaticRaised α} (h : refused what response = some verdict) :
    Translated fine verdict := by
  unfold refused at h
  split at h
  · exact nomatch h
  · obtain rfl := Option.some.inj h
    exact trivial

/-! ### Uploads -/

/-- A payload with a link and a file, neither of them empty. -/
def Complete (payload : Dict String JsonValue) : Prop :=
  (∃ link, payload.get? "link" = some link ∧ link.truthy = true) ∧
    ∃ file, payload.get? "file" = some file ∧ file.truthy = true

def JsonObject (response : ServiceResponse) : Prop :=
  ∃ entries, response.json = some (.obj entries)

/-- An object that, if it has a link, has no empty `file` beside it. -/
def UploadBody (response : ServiceResponse) : Prop :=
  ∃ entries, response.json = some (.obj entries) ∧
    ∀ link, (Dict.ofPairs entries).get? "link" = some link → link.truthy = true →
      ∀ file, (Dict.ofPairs entries).get? "file" = some file → file.truthy = true

theorem get?_setDefault (payload : Dict String JsonValue) (key key' : String) (value : JsonValue) :
    (setDefault payload key value).get? key' =
      if key' = key then some ((payload.get? key).getD value) else payload.get? key' := by
  unfold setDefault Dict.contains
  cases hkey : payload.get? key with
  | none => simp
  | some present =>
      by_cases hsame : key' = key
      · simp [hsame, hkey]
      · simp [hsame]

theorem complete_setDefault_iff {payload : Dict String JsonValue} {link : JsonValue}
    (hlink : payload.get? "link" = some link) (htruthy : link.truthy = true) :
    Complete (setDefault payload "file" link) ↔
      ∀ file, payload.get? "file" = some file → file.truthy = true := by
  simp only [Complete, get?_setDefault, hlink]
  cases hfile : payload.get? "file" with
  | none => simp [htruthy]
  | some file => simp [htruthy]

/-- Only an object with a link yields a payload. -/
theorem translated_uploadPayload {fine : Dict String JsonValue → Prop}
    (response : ServiceResponse) :
    Translated fine (uploadPayload response) ↔
      ∃ entries, response.json = some (.obj entries) ∧
        ∀ link, (Dict.ofPairs entries).get? "link" = some link → link.truthy = true →
          fine (setDefault (Dict.ofPairs entries) "file" link) := by
  unfold uploadPayload
  cases hjson : response.json with
  | none => simp [Translated]
  | some body =>
      cases body with
      | obj entries =>
          cases hlink : (Dict.ofPairs entries).get? "link" with
          | none => simp [Translated, hlink]
          | some link => by_cases htruthy : link.truthy = true <;> simp [Translated, hlink, htruthy]
      | _ => simp [Translated]

theorem translated_uploadPayload_iff (response : ServiceResponse) :
    Translated Complete (uploadPayload response) ↔ UploadBody response := by
  rw [translated_uploadPayload]
  refine exists_congr fun entries => and_congr_right fun _ => forall_congr' fun link => ?_
  exact forall₂_congr fun hlink htruthy => complete_setDefault_iff hlink htruthy

theorem translated_uploadPayload_true_iff (response : ServiceResponse) :
    Translated (fun _ => True) (uploadPayload response) ↔ JsonObject response := by
  rw [translated_uploadPayload]
  exact exists_congr fun entries => and_iff_left fun _ _ _ => trivial

theorem translated_judgeUpload_iff {fine : Dict String JsonValue → Prop}
    {accepted : ServiceResponse → Prop} {response : ServiceResponse}
    {verdict : Except StaticRaised (Dict String JsonValue)}
    (hbody : Translated fine (uploadPayload response) ↔ accepted response)
    (hverdict : judgeUpload response = some verdict) :
    Translated fine verdict ↔
      (response.statusCode = 200 ∨ response.statusCode = 201 → accepted response) := by
  unfold judgeUpload at hverdict
  split at hverdict
  · rename_i haccepted
    obtain rfl := Option.some.inj hverdict
    exact hbody.trans ⟨fun h _ => h, fun h => h haccepted⟩
  · rename_i hrefused
    exact iff_of_true (translated_refused hverdict) fun haccepted => absurd haccepted hrefused

/-! ### Downloads -/

/-- The deciding response is a 404. -/
def NotFound (attempts : ℤ) (service : ℕ → ServiceOutcome) : Prop :=
  0 < attempts ∧ ∃ r, service (decidingAttempt attempts service) = .response r ∧ r.statusCode = 404

/-- What was read of a response that decides the call. -/
def Fetched (read : ServiceResponse → α) (attempts : ℤ) (service : ℕ → ServiceOutcome)
    (body : α) : Prop :=
  ∃ r, service (decidingAttempt attempts service) = .response r ∧ r.statusCode = 200 ∧
    body = read r

/-- The body, or the error callers are told to catch; its subclass exactly when
the file is gone. -/
structure Downloads (read : ServiceResponse → α) (attempts : ℤ) (service : ℕ → ServiceOutcome)
    (result : Except StaticRaised α) : Prop where
  translated : Translated (Fetched read attempts service) result
  expired : (∃ link, result = .error (.service (.expired link))) ↔ NotFound attempts service

theorem translated_judgeDownload {read : ServiceResponse → α} {link : String}
    {response : ServiceResponse}
    (hresponse : service (decidingAttempt attempts service) = .response response)
    {verdict : Except StaticRaised ServiceResponse}
    (hverdict : judgeDownload link response = some verdict) :
    Translated (fun r => Fetched read attempts service (read r)) verdict := by
  unfold judgeDownload at hverdict
  split at hverdict
  · rename_i hok
    obtain rfl := Option.some.inj hverdict
    exact ⟨response, hresponse, hok, rfl⟩
  · split at hverdict
    · obtain rfl := Option.some.inj hverdict
      exact trivial
    · exact translated_refused hverdict

theorem refused_ne_expired {response : ServiceResponse} {link : String} :
    (refused what response : Option (Except StaticRaised α)) ≠
      some (.error (.service (.expired link))) := by
  unfold refused
  split <;> simp

theorem verdictOf_expired_iff {link : String} {outcome : ServiceOutcome} :
    (∃ link', verdictOf what (judgeDownload link) attempts attempt outcome =
        .error (.service (.expired link'))) ↔
      ∃ r, outcome = .response r ∧ r.statusCode = 404 := by
  cases outcome with
  | otherExc name => simp [verdictOf]
  | retryableExc name => simp [verdictOf]
  | response r =>
      simp only [verdictOf, ServiceOutcome.response.injEq, exists_eq_left']
      by_cases hmissing : r.statusCode = 404
      · simp [judgeDownload, hmissing]
      · refine iff_of_false ?_ hmissing
        rintro ⟨link', hexpired⟩
        by_cases hok : r.statusCode = 200
        · simp [judgeDownload, hok] at hexpired
        · simp only [judgeDownload, if_neg hok, if_neg hmissing] at hexpired
          cases hrefused : (refused "download" r : Option (Except StaticRaised ServiceResponse)) with
          | none => simp [hrefused] at hexpired
          | some verdict =>
              rw [hrefused] at hexpired
              exact refused_ne_expired (hrefused.trans (congrArg some hexpired))

theorem map_expired_iff {read : ServiceResponse → α} (result : Except StaticRaised ServiceResponse) :
    (∃ link, result.map read = .error (.service (.expired link))) ↔
      ∃ link, result = .error (.service (.expired link)) := by
  cases result <;> simp [Except.map]

/-- A download keeps its contract exactly when it settles. -/
theorem downloads_staticLoop_iff (read : ServiceResponse → α) (link : String) :
    Downloads read attempts service ((staticLoop "download" (judgeDownload link) attempts backoff
        surroundings service 0 none).map read) ↔
      Settles (fun _ => True) attempts backoff surroundings service := by
  have htranslated := @translated_staticLoop_iff ServiceResponse "download" (judgeDownload link)
    attempts backoff surroundings service (judgesFinal_judgeDownload link)
    (fun r => Fetched read attempts service (read r)) (fun _ => True) fun r hr verdict hverdict =>
      iff_of_true (translated_judgeDownload hr hverdict) fun _ => trivial
  rw [← translated_map] at htranslated
  refine ⟨fun h => htranslated.mp h.translated, fun h => ⟨htranslated.mpr h, ?_⟩⟩
  rw [map_expired_iff]
  by_cases hattempts : 0 < attempts
  · rcases @staticLoop_zero ServiceResponse "download" (judgeDownload link) attempts backoff
      surroundings service none (judgesFinal_judgeDownload link) hattempts with
      ⟨_, hloop⟩ | ⟨hsleeps, _⟩
    · rw [hloop, verdictOf_expired_iff]
      exact ⟨fun hr => ⟨hattempts, hr⟩, fun hr => hr.2⟩
    · exact absurd (h hattempts).1 hsleeps
  · rw [staticLoop_of_exhausted (by simpa using hattempts)]
    refine iff_of_false ?_ fun hmissing => hattempts hmissing.1
    rintro ⟨link', hexpired⟩
    simp at hexpired

/-! ### The helpers -/

namespace Process

variable {process : Process} {call : StaticCall}

theorem staticUpload_eq (hopen : process.openStatic call = .ok (attempts, backoff)) :
    process.staticUpload surroundings service call =
      staticLoop "upload" judgeUpload attempts backoff surroundings service 0 none := by
  rw [staticUpload, hopen]
  rfl

theorem fetch_eq (hopen : process.openStatic call = .ok (attempts, backoff)) (link : String) :
    process.fetch surroundings service call link =
      staticLoop "download" (judgeDownload link) attempts backoff surroundings service 0 none := by
  rw [fetch, hopen]
  rfl

/-- What `link_or_empty` is to return: the link of the upload, or the empty
string. -/
def linkOf (str : JsonValue → String) : Except StaticRaised (Dict String JsonValue) → String
  | .ok payload => str ((payload.get? "link").getD .null)
  | .error _ => ""

theorem linkOrEmpty_eq_iff (str : JsonValue → String) :
    process.linkOrEmpty surroundings service call str =
        .ok (linkOf str (process.staticUpload surroundings service call)) ↔
      Translated (fun _ => True) (process.staticUpload surroundings service call) := by
  unfold linkOrEmpty
  cases process.staticUpload surroundings service call with
  | ok payload => simp [linkOf, Translated]
  | error error => cases error <;> simp [linkOf, Translated]

/-- In a configured environment each helper keeps its contract exactly when the
call, if it tries anything, gets to its deciding attempt and that attempt is
accounted for: no exception outside the transient classes, and an accepted
upload is an object, without an empty `file` beside its link if the payload is
what is asked for. -/
theorem contracts_iff (hopen : process.openStatic call = .ok (attempts, backoff))
    (surroundings : Surroundings) (service : ℕ → ServiceOutcome) (str : JsonValue → String)
    (link : String) :
    (Translated Complete (process.staticUpload surroundings service call) ↔
        Settles UploadBody attempts backoff surroundings service) ∧
      (process.linkOrEmpty surroundings service call str =
          .ok (linkOf str (process.staticUpload surroundings service call)) ↔
        Settles JsonObject attempts backoff surroundings service) ∧
      (Downloads ServiceResponse.content attempts service
          (process.staticFetch surroundings service call link) ↔
        Settles (fun _ => True) attempts backoff surroundings service) ∧
      (Downloads ServiceResponse.text attempts service
          (process.staticFetchText surroundings service call link) ↔
        Settles (fun _ => True) attempts backoff surroundings service) := by
  rw [linkOrEmpty_eq_iff, staticFetch, staticFetchText, fetch_eq hopen, staticUpload_eq hopen]
  refine ⟨?_, ?_, downloads_staticLoop_iff _ link, downloads_staticLoop_iff _ link⟩
  · exact translated_staticLoop_iff judgesFinal_judgeUpload fun r _ _ hverdict =>
      translated_judgeUpload_iff (translated_uploadPayload_iff r) hverdict
  · exact translated_staticLoop_iff judgesFinal_judgeUpload fun r _ _ hverdict =>
      translated_judgeUpload_iff (translated_uploadPayload_true_iff r) hverdict

/-! ### A body that is not JSON -/

def staticEnviron : Environ := fun name =>
  [("STATIC_SVC_URL", "https://static.internal"), ("STATIC_SVC_AUTH", "static-token")].lookup name

def staticProcess : Process := { environ := staticEnviron }

/-- One attempt. -/
def onceCall : StaticCall := { retries := some 0 }

/-- A 200 from a proxy: a page, not JSON. -/
def htmlPage : ServiceOutcome := .response { statusCode := 200, text := "<html></html>" }

def storedFile : ServiceOutcome :=
  .response { statusCode := 201, json := some (.obj [("link", .str "files/7")]) }

theorem openStatic_once : staticProcess.openStatic onceCall = .ok (1, .finite (1 / 2)) := by rfl

theorem decidingAttempt_once (service : ℕ → ServiceOutcome) : decidingAttempt 1 service = 0 := by
  have hlt : (decidingAttempt 1 service : ℤ) < 1 := decidingAttempt_lt (by decide)
  omega

/-- The error of the JSON parser reaches the callers of both helpers. -/
theorem decode_error_escapes :
    staticProcess.staticUpload quietSurroundings (fun _ => htmlPage) onceCall =
        .error .jsonDecodeError ∧
      ¬ Translated Complete
        (staticProcess.staticUpload quietSurroundings (fun _ => htmlPage) onceCall) ∧
      staticProcess.linkOrEmpty quietSurroundings (fun _ => htmlPage) onceCall (fun _ => "") =
        .error .jsonDecodeError := by
  have hupload : staticProcess.staticUpload quietSurroundings (fun _ => htmlPage) onceCall =
      .error .jsonDecodeError := by
    rw [staticUpload_eq openStatic_once, staticLoop]
    rfl
  refine ⟨hupload, by rw [hupload]; exact id, ?_⟩
  rw [linkOrEmpty, hupload]

/-- A fresh file and nothing else: every contract is kept. -/
theorem contracts_storedFile :
    Translated Complete
        (staticProcess.staticUpload quietSurroundings (fun _ => storedFile) onceCall) ∧
      staticProcess.linkOrEmpty quietSurroundings (fun _ => storedFile) onceCall
          (fun _ => "files/7") =
        .ok (linkOf (fun _ => "files/7")
          (staticProcess.staticUpload quietSurroundings (fun _ => storedFile) onceCall)) ∧
      Downloads ServiceResponse.content 1 (fun _ => storedFile)
        (staticProcess.staticFetch quietSurroundings (fun _ => storedFile) onceCall "files/7") ∧
      Downloads ServiceResponse.text 1 (fun _ => storedFile)
        (staticProcess.staticFetchText quietSurroundings (fun _ => storedFile) onceCall
          "files/7") := by
  obtain ⟨hupload, hlink, hfetch, htext⟩ := contracts_iff openStatic_once quietSurroundings
    (fun _ => storedFile) (fun _ => "files/7") "files/7"
  have hsleeps : ∀ i < decidingAttempt 1 (fun _ => storedFile),
      BackoffSleeps (.finite (1 / 2)) quietSurroundings i := by
    intro i hi
    rw [decidingAttempt_once] at hi
    exact absurd hi (Nat.not_lt_zero i)
  refine ⟨hupload.mpr fun _ => ⟨hsleeps, fun _ => ?_⟩, hlink.mpr fun _ => ⟨hsleeps, fun _ => ?_⟩,
    hfetch.mpr fun _ => ⟨hsleeps, fun _ => trivial⟩,
    htext.mpr fun _ => ⟨hsleeps, fun _ => trivial⟩⟩
  · refine ⟨_, rfl, fun link _ _ file hfile => ?_⟩
    exact nomatch hfile
  · exact ⟨_, rfl⟩

end Process

end NetixBackend.Http
