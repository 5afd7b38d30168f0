import BankStatementProcessor.Desktop.License.Session

/-!
# What the grace period may not revive

`refusal_stands_iff` — after a refusal of the server, when the checks that fail stay unlicensed.

`expiry_respected_iff` — the same for a licence whose known expiry has passed.

`rejections_stand_iff` — the same for an answer that rejects the licence with an error, and
when the grace period is granted for outages only.
-/

namespace Desktop.License

open Infra

/-! ## After a refusal -/

section

variable (lib : Libraries) (debugAssertions : Bool)

/-- A check that fails while the last answer is a refusal licenses nothing. -/
def RefusalStands (s : Session) (e : LicenseEvent) : Prop :=
  ∀ env api, e = .check env api → s.refused → ServerCallFails lib s.conn env api →
    ¬ (checkStatus lib s.conn env api).1.isLicensed

/-- Such a check, and the grace period reaches it. -/
def GraceRevives (s : Session) (e : LicenseEvent) : Prop :=
  ∃ env api, e = .check env api ∧ s.refused ∧ ServerCallFails lib s.conn env api ∧
    GraceReaches lib s.conn env

/-- Each refusal that is received is one the offline check knows, and is stored. -/
def StoresRefusal (s : Session) (e : LicenseEvent) : Prop :=
  ∀ status ∈ s.answer lib debugAssertions e, Session.Refuses status →
    (status = "revoked" ∨ status = "suspended") ∧ e.env.faults.save = false

end

/-- A refusal that stands is the status in the row, and one the offline check knows. -/
def RefusalCached (s : Session) : Prop :=
  s.refused → s.conn.cachedStatus = some "revoked" ∨ s.conn.cachedStatus = some "suspended"

section

variable {lib : Libraries} {debugAssertions : Bool} {s : Session} {e : LicenseEvent}

theorem refusalStands_iff : RefusalStands lib s e ↔ ¬ GraceRevives lib s e := by
  constructor
  · rintro h ⟨env, api, he, hrefused, hfails, hgrace⟩
    exact h env api he hrefused hfails ((isLicensed_checkStatus_of_fails hfails).mpr hgrace)
  · intro h env api he hrefused hfails hlicensed
    exact h ⟨env, api, he, hrefused, hfails,
      (isLicensed_checkStatus_of_fails hfails).mp hlicensed⟩

theorem RefusalCached.not_graceRevives (h : RefusalCached s) : ¬ GraceRevives lib s e := by
  rintro ⟨env, api, -, hrefused, -, hgrace⟩
  obtain ⟨record, hcaches, -, hin⟩ := hgrace.cached
  have hstatus := h hrefused
  rw [hcaches.cachedStatus, Option.some.injEq, Option.some.injEq] at hstatus
  exact hstatus.elim hin.notRevoked hin.notSuspended

variable {env : CallEnv} {api : LicenseApiClient} {licenseKey : String}

/-- A check stores the refusal it receives, and leaves the status alone without an answer. -/
theorem RefusalCached.check (h : RefusalCached s)
    (hstores : StoresRefusal lib debugAssertions s (.check env api)) :
    RefusalCached (s.step lib debugAssertions (.check env api)) := by
  intro hrefused
  cases hanswer : Session.validateAnswer lib s.conn env api with
  | none =>
    have hsame : (s.step lib debugAssertions (.check env api)).refused = s.refused := by
      simp [Session.step, Session.refusedAfter, Session.answer, hanswer]
    rw [hsame] at hrefused
    rw [show (s.step lib debugAssertions (.check env api)).conn = _ from
      checkStatus_of_no_answer hanswer, cachedStatus_prepareCheck]
    exact h hrefused
  | some status =>
    have hrefuses : Session.Refuses status := by
      simpa [Session.step, Session.refusedAfter, Session.answer, hanswer] using hrefused
    obtain ⟨hknown, hsave⟩ := hstores status hanswer hrefuses
    obtain ⟨record, request, resp, rfl, -, hconn⟩ := checkStatus_of_answer hanswer
    rw [show (s.step lib debugAssertions (.check env api)).conn = _ from hconn,
      show env.faults.save = false from hsave]
    exact hknown.imp (congrArg some) (congrArg some)

/-- An activation that does not lift the refusal leaves the status alone. -/
theorem RefusalCached.activate (h : RefusalCached s)
    (hstores : StoresRefusal lib debugAssertions s (.activate env api licenseKey)) :
    RefusalCached (s.step lib debugAssertions (.activate env api licenseKey)) := by
  intro hrefused
  have hboth : (License.activate lib debugAssertions s.conn env api licenseKey).1.isOk = false ∧
      s.refusedAfter lib debugAssertions (.activate env api licenseKey) = true := by
    simpa [Session.step] using hrefused
  obtain ⟨hfails, hafter⟩ := hboth
  cases hresult : (License.activate lib debugAssertions s.conn env api licenseKey).1 with
  | ok status =>
    rw [hresult] at hfails
    cases hfails
  | error e =>
    obtain ⟨hrow, hsaved⟩ := activate_of_error hresult
    rw [show (s.step lib debugAssertions (.activate env api licenseKey)).conn.cachedStatus = _
      from hrow]
    cases hanswer : Session.activateAnswer debugAssertions s.conn env api licenseKey with
    | none =>
      refine h ?_
      simpa [Session.refusedAfter, Session.answer, hanswer] using hafter
    | some status =>
      have hrefuses : Session.Refuses status := by
        simpa [Session.refusedAfter, Session.answer, hanswer] using hafter
      -- the answer could not be written, so it was no refusal
      cases (hsaved status hanswer).symm.trans (hstores status hanswer hrefuses).2

/-- One event: a refusal stays in the row until it is lifted. -/
theorem RefusalCached.step (h : RefusalCached s) (hstores : StoresRefusal lib debugAssertions s e) :
    RefusalCached (s.step lib debugAssertions e) := by
  cases e with
  | check env api => exact h.check hstores
  | activate env api licenseKey => exact h.activate hstores

end

/--
**A refusal stands exactly in the runs where no failing check is one that the grace period
reaches.** It stands in every run whose refusals are revocations and suspensions that are
stored.
-/
theorem refusal_stands_iff (lib : Libraries) (debugAssertions : Bool) (s : Session)
    (events : List LicenseEvent) :
    (EveryStep (Session.step lib debugAssertions) (RefusalStands lib) s events ↔
      EveryStep (Session.step lib debugAssertions) (fun s e => ¬ GraceRevives lib s e) s events) ∧
    (s.refused = false →
      EveryStep (Session.step lib debugAssertions) (StoresRefusal lib debugAssertions) s events →
        EveryStep (Session.step lib debugAssertions) (RefusalStands lib) s events) := by
  refine ⟨EveryStep.congr fun _ _ => refusalStands_iff, fun hfresh hstores => ?_⟩
  refine hstores.of_invariant (I := RefusalCached) (fun s e h hs => h.step hs) ?_ ?_
  · exact fun s e h _ => refusalStands_iff.mpr h.not_graceRevives
  · intro hrefused
    rw [hfresh] at hrefused
    cases hrefused

/-- The server says the licence has expired; the next check, offline, licenses it. -/
theorem expired_answer_revived : ¬ ∀ events : List LicenseEvent,
    EveryStep (Session.step sampleLibraries false) (RefusalStands sampleLibraries) .fresh
      events := by
  intro h
  have hlast := (h [sampleActivation, .check (sampleEnv 0) (answering "expired"),
    .check (sampleEnv 0) offlineClient]).2.2.1 (sampleEnv 0) offlineClient rfl (by decide)
  exact hlast ⟨_, _, _, rfl, rfl⟩ (by decide)

/-! ## After the expiry -/

section

variable (lib : Libraries) (conn : Conn) (env : CallEnv)

/-- A check that fails after the expiry in the row licenses nothing. -/
def ExpiryRespected (api : LicenseApiClient) : Prop :=
  ∀ row e, conn.localLicense = some row → row.record.expiresAt = some e → e < env.now →
    ServerCallFails lib conn env api → ¬ (checkStatus lib conn env api).1.isLicensed

/-- Such a check, and the grace period reaches it. -/
def GraceOutlivesExpiry (api : LicenseApiClient) : Prop :=
  ∃ row e, conn.localLicense = some row ∧ row.record.expiresAt = some e ∧ e < env.now ∧
    ServerCallFails lib conn env api ∧ GraceReaches lib conn env

end

/-- **The expiry is respected unless the grace period outlives it.** -/
theorem expiry_respected_iff (lib : Libraries) (conn : Conn) (env : CallEnv)
    (api : LicenseApiClient) :
    ExpiryRespected lib conn env api ↔ ¬ GraceOutlivesExpiry lib conn env api := by
  constructor
  · rintro h ⟨row, e, hrow, hexpires, hpassed, hfails, hgrace⟩
    exact h row e hrow hexpires hpassed hfails ((isLicensed_checkStatus_of_fails hfails).mpr hgrace)
  · intro h row e hrow hexpires hpassed hfails hlicensed
    exact h ⟨row, e, hrow, hexpires, hpassed, hfails,
      (isLicensed_checkStatus_of_fails hfails).mp hlicensed⟩

/-- A licence of one day still licenses an offline check on the third. -/
theorem licensed_after_expiry : ¬ ∀ (conn : Conn) (env : CallEnv) (api : LicenseApiClient),
    ExpiryRespected sampleLibraries conn env api := by
  intro h
  have hactivated := h (Session.step sampleLibraries false .fresh sampleActivation).conn
    (sampleEnv 172800000000000) offlineClient _ 86400000000000 rfl (by decide) (by decide)
  exact hactivated ⟨_, _, _, rfl, rfl⟩ (by decide)

/-! ## After a rejection -/

/-- The codes the server rejects a licence or a device with. -/
def licenseErrorCodes : List String :=
  ["LICENSE_NOT_FOUND", "DEVICE_NOT_ACTIVATED", "DEVICE_LIMIT_REACHED", "LICENSE_EXPIRED",
   "LICENSE_REVOKED", "DEVICE_MISMATCH"]

section

variable {Resp : Type} (answer : HttpAnswer Resp)

/-- A well-formed error body with such a code. -/
def RejectsLicense : Prop :=
  ∃ r, answer = .response r ∧ r.isSuccess = false ∧ ∃ code ∈ r.errorCode, code ∈ licenseErrorCodes

/-- The server could not be reached, or has failed itself. -/
def IsOutage : Prop :=
  (∃ message, answer = .sendFailed message) ∨
    ∃ r, answer = .response r ∧ 500 ≤ r.status ∧ r.status < 600

end

section

variable (lib : Libraries) (conn : Conn) (env : CallEnv)
  (activate : ActivateLicenseRequest → HttpAnswer ActivateLicenseResponse)
  (validate : ValidateLicenseRequest → HttpAnswer ValidateLicenseResponse)

/-- The check sends this request. -/
def Asks (request : ValidateLicenseRequest) : Prop :=
  ∃ record, (prepareCheck lib conn env).1 = .ok (record, request)

/-- A rejection licenses nothing, and grace is granted for outages only. -/
def RejectionsStand : Prop :=
  (∀ request, Asks lib conn env request → RejectsLicense (validate request) →
    ¬ (checkStatus lib conn env (httpLicenseClient activate validate)).1.isLicensed) ∧
  ∀ days, (checkStatus lib conn env (httpLicenseClient activate validate)).1 =
      .activeOfflineGrace days →
    ∃ request, Asks lib conn env request ∧ IsOutage (validate request)

/-- The grace period reaches a check whose answer is an error of another kind. -/
def TakenForOutage : Prop :=
  GraceReaches lib conn env ∧ ∃ request, Asks lib conn env request ∧
    (∃ e, post (validate request) = .error e) ∧
      (RejectsLicense (validate request) ∨ ¬ IsOutage (validate request))

end

theorem post_of_rejectsLicense {Resp : Type} {answer : HttpAnswer Resp}
    (h : RejectsLicense answer) : ∃ e, post answer = .error e := by
  obtain ⟨r, rfl, hfail, -⟩ := h
  exact ⟨mapErrorCode r.status r.errorCode, by simp [post, handleResponse, hfail]⟩

/-- **Rejections stand unless one is taken for an outage within the grace period.** -/
theorem rejections_stand_iff (lib : Libraries) (conn : Conn) (env : CallEnv)
    (activate : ActivateLicenseRequest → HttpAnswer ActivateLicenseResponse)
    (validate : ValidateLicenseRequest → HttpAnswer ValidateLicenseResponse) :
    RejectionsStand lib conn env activate validate ↔ ¬ TakenForOutage lib conn env validate := by
  constructor
  · rintro ⟨hreject, houtage⟩ ⟨hgrace, request, ⟨record, hasks⟩, ⟨e, he⟩, hkind⟩
    have hfails : ServerCallFails lib conn env (httpLicenseClient activate validate) :=
      ⟨record, request, e, hasks, he⟩
    have hlicensed := (isLicensed_checkStatus_of_fails hfails).mpr hgrace
    rcases hkind with hrejects | hother
    · exact hreject request ⟨record, hasks⟩ hrejects hlicensed
    · obtain ⟨days, hdays⟩ := checkStatus_eq_grace_of_fails hfails hlicensed
      obtain ⟨request', ⟨record', hasks'⟩, hout⟩ := houtage days hdays
      cases hasks.symm.trans hasks'
      exact hother hout
  · intro h
    constructor
    · rintro request ⟨record, hasks⟩ hrejects hlicensed
      obtain ⟨e, he⟩ := post_of_rejectsLicense hrejects
      have hfails : ServerCallFails lib conn env (httpLicenseClient activate validate) :=
        ⟨record, request, e, hasks, he⟩
      exact h ⟨(isLicensed_checkStatus_of_fails hfails).mp hlicensed, request, ⟨record, hasks⟩,
        ⟨e, he⟩, Or.inl hrejects⟩
    · intro days hdays
      have hfails := serverCallFails_of_grace hdays
      have hgrace := (isLicensed_checkStatus_of_fails hfails).mp (by rw [hdays]; rfl)
      obtain ⟨record, request, e, hasks, he⟩ := hfails
      refine ⟨request, ⟨record, hasks⟩, ?_⟩
      by_contra hother
      exact h ⟨hgrace, request, ⟨record, hasks⟩, ⟨e, he⟩, Or.inr hother⟩

/-- The server rejects a licence as revoked. -/
def revokedAnswer : HttpAnswer ValidateLicenseResponse :=
  .response { status := 410, json := .error "missing field", errorCode := some "LICENSE_REVOKED" }

/-- The rejection is answered with a week of grace. -/
theorem rejection_taken_for_outage : ¬ ∀ (conn : Conn) (env : CallEnv) activate validate,
    RejectionsStand sampleLibraries conn env activate validate := by
  intro h
  have hactivated := (h (Session.step sampleLibraries false .fresh sampleActivation).conn
    (sampleEnv 0) (fun _ => .sendFailed "") (fun _ => revokedAnswer)).1
  refine hactivated _ ⟨_, rfl⟩ ⟨_, rfl, by decide, _, rfl, by decide⟩ ?_
  decide

end Desktop.License
