import BankStatementProcessor.Desktop.License.Check

/-!
# Runs of an installation

Checks and activations one after the other. A session also remembers, for the statements about
it only, whether the last answer of the server was a refusal.
-/

namespace Desktop.License

open Infra

inductive LicenseEvent
  | check (env : CallEnv) (api : LicenseApiClient)
  | activate (env : CallEnv) (api : LicenseApiClient) (licenseKey : String)

def LicenseEvent.env : LicenseEvent → CallEnv
  | check env _ => env
  | activate env _ _ => env

structure Session where
  conn : Conn
  refused : Bool
  deriving DecidableEq, Repr

namespace Session

/-- A new installation. -/
def fresh : Session where
  conn := { localLicense := none, deviceInfo := none }
  refused := false

section

variable (lib : Libraries) (debugAssertions : Bool)

/-- The status the server answers a check with, if it is asked and answers. -/
def validateAnswer (conn : Conn) (env : CallEnv) (api : LicenseApiClient) : Option String :=
  match (prepareCheck lib conn env).1 with
  | .ok (_, request) => (api.validateLicense request).toOption.map ValidateLicenseResponse.status
  | .error _ => none

/-- The same for an activation. -/
def activateAnswer (conn : Conn) (env : CallEnv) (api : LicenseApiClient) (licenseKey : String) :
    Option String :=
  if isDevTestKey debugAssertions licenseKey then none
  else
    match getOrCreateDeviceInfo env.faults.device env.generated conn with
    | .ok (device, _) =>
      (api.activateLicense (activateRequest licenseKey device env)).toOption.map
        ActivateLicenseResponse.status
    | .error _ => none

def answer (s : Session) : LicenseEvent → Option String
  | .check env api => validateAnswer lib s.conn env api
  | .activate env api licenseKey => activateAnswer debugAssertions s.conn env api licenseKey

/-- Every status but the active one is a refusal. -/
def Refuses (status : String) : Prop := statusFromServerResponse status ≠ .active

instance (status : String) : Decidable (Refuses status) := by
  unfold Refuses
  infer_instance

def refusedAfter (s : Session) (e : LicenseEvent) : Bool :=
  (s.answer lib debugAssertions e).elim s.refused (fun status => decide (Refuses status))

/-- An activation that succeeds ends a refusal. -/
def step (s : Session) (e : LicenseEvent) : Session :=
  match e with
  | .check env api =>
    { conn := (checkStatus lib s.conn env api).2
      refused := s.refusedAfter lib debugAssertions e }
  | .activate env api licenseKey =>
    let r := activate lib debugAssertions s.conn env api licenseKey
    { conn := r.2
      refused := !r.1.isOk && s.refusedAfter lib debugAssertions e }

end

end Session

/-! ## The status in the row -/

def Conn.cachedStatus (conn : Conn) : Option String :=
  conn.localLicense.map (·.record.status)

section

variable {lib : Libraries} {debugAssertions : Bool} {conn : Conn} {env : CallEnv}
  {api : LicenseApiClient} {record : LocalLicenseRecord} {licenseKey status : String}

theorem Conn.Caches.cachedStatus (h : conn.Caches lib record) :
    conn.cachedStatus = some record.status := by
  obtain ⟨row, hrow, rfl, -⟩ := caches_iff.mp h
  rw [Conn.cachedStatus, hrow, Option.map_some]

theorem cachedStatus_orKeep_advanceClockWatermark (lib : Libraries) (fault : Bool) (conn : Conn)
    (now : DateTime) :
    (conn.orKeep (advanceClockWatermark lib fault conn now)).cachedStatus = conn.cachedStatus := by
  rcases orKeep_advanceClockWatermark lib fault conn now with h | ⟨record, hr, -, h⟩
  · rw [h]
  · rw [h, hr.cachedStatus]
    rfl

/-- Until the server has answered only the clock is written. -/
theorem localLicense_prepareCheck :
    (prepareCheck lib conn env).2.localLicense =
      (conn.orKeep (advanceClockWatermark lib env.faults.advance conn env.now)).localLicense := by
  unfold prepareCheck
  generalize conn.orKeep (advanceClockWatermark lib env.faults.advance conn env.now) = conn₁
  dsimp only
  rcases loadLocalLicense lib env.faults.load conn₁ with e | (_ | record)
  · rfl
  · rfl
  · dsimp only
    cases record.licenseId with
    | none => rfl
    | some licenseId =>
      dsimp only
      rcases getOrCreateDeviceInfo_cases env.faults.device env.generated conn₁ with
        ⟨-, e, he⟩ | ⟨-, device, conn₂, hrow, hok⟩
      · rw [he]
      · rw [hok]
        exact hrow

theorem cachedStatus_prepareCheck :
    (prepareCheck lib conn env).2.cachedStatus = conn.cachedStatus := by
  refine Eq.trans ?_
    (cachedStatus_orKeep_advanceClockWatermark lib env.faults.advance conn env.now)
  rw [Conn.cachedStatus, localLicense_prepareCheck, Conn.cachedStatus]

/-- The answer is stored, or dropped when the statement fails. -/
theorem checkStatus_of_answer (h : Session.validateAnswer lib conn env api = some status) :
    ∃ record request resp, resp.status = status ∧
      (prepareCheck lib conn env).1 = .ok (record, request) ∧ (checkStatus lib conn env api).2 =
        (prepareCheck lib conn env).2.orKeep (saveLocalLicense lib env.faults.save
          (prepareCheck lib conn env).2 (validated lib record resp env.now)) := by
  unfold Session.validateAnswer at h
  unfold checkStatus
  generalize prepareCheck lib conn env = r at h ⊢
  obtain ⟨status' | ⟨record, request⟩, conn'⟩ := r
  · cases h
  · dsimp only at h ⊢
    cases hanswer : api.validateLicense request with
    | error e =>
      rw [hanswer] at h
      cases h
    | ok resp =>
      rw [hanswer] at h
      exact ⟨record, request, resp, Option.some.inj h, rfl, rfl⟩

theorem checkStatus_of_no_answer (h : Session.validateAnswer lib conn env api = none) :
    (checkStatus lib conn env api).2 = (prepareCheck lib conn env).2 := by
  unfold Session.validateAnswer at h
  unfold checkStatus
  generalize prepareCheck lib conn env = r at h ⊢
  obtain ⟨status' | ⟨record, request⟩, conn'⟩ := r
  · rfl
  · dsimp only at h ⊢
    cases hanswer : api.validateLicense request with
    | error e => rfl
    | ok resp =>
      rw [hanswer] at h
      cases h

/-- An activation that fails keeps the row; if the server has answered, the row could not be
written. -/
theorem activate_of_error {e : ApiError}
    (h : (activate lib debugAssertions conn env api licenseKey).1 = .error e) :
    (activate lib debugAssertions conn env api licenseKey).2.cachedStatus = conn.cachedStatus ∧
      ∀ status ∈ Session.activateAnswer debugAssertions conn env api licenseKey,
        env.faults.save = true := by
  unfold activate at h ⊢
  unfold Session.activateAnswer
  split
  · next hdev =>
    rw [if_pos hdev] at h
    cases hsave : env.faults.save with
    | true => exact ⟨rfl, fun _ _ => rfl⟩
    | false =>
      rw [hsave] at h
      cases h
  · next hdev =>
    rw [if_neg hdev] at h
    rcases getOrCreateDeviceInfo_cases env.faults.device env.generated conn with
      ⟨-, e', he⟩ | ⟨-, device, conn', hrow, hok⟩
    · rw [he]
      exact ⟨rfl, by simp⟩
    · rw [hok] at h ⊢
      have hstatus : conn'.cachedStatus = conn.cachedStatus := by
        simp only [Conn.cachedStatus, hrow]
      dsimp only at h ⊢
      cases hanswer : api.activateLicense (activateRequest licenseKey device env) with
      | error e' => exact ⟨hstatus, by simp [Except.toOption]⟩
      | ok resp =>
        cases hsave : env.faults.save with
        | true => exact ⟨hstatus, fun _ _ => rfl⟩
        | false =>
          rw [hanswer, hsave] at h
          cases h

end

/-! ## A sample -/

/-- Midnight of the first days, and the two rows of the runs below with their HMACs. -/
def sampleLibraries : Libraries where
  toRfc3339 t :=
    if t = 0 then "1970-01-01T00:00:00+00:00"
    else if t = 86400000000000 then "1970-01-02T00:00:00+00:00"
    else if t = 172800000000000 then "1970-01-03T00:00:00+00:00"
    else ""
  parseFromRfc3339 s :=
    if s = "1970-01-01T00:00:00+00:00" then some 0
    else if s = "1970-01-02T00:00:00+00:00" then some 86400000000000
    else if s = "1970-01-03T00:00:00+00:00" then some 172800000000000
    else none
  hmacSha256 payload :=
    if payload = "lic_1|active|1970-01-02T00:00:00+00:00|7|1970-01-01T00:00:00+00:00" then
      "nsrgH3TX3CVwYJV3IkwjnEJFGFWtpg/dW8QluRHWNLQ="
    else if payload = "lic_1|expired|1970-01-02T00:00:00+00:00|7|1970-01-01T00:00:00+00:00" then
      "POQ0BvdzxqpF6BF3qN5Y6LS+z0jFbJeypwSNUMmUOO4="
    else ""

def sampleEnv (now : DateTime) : CallEnv where
  now := now
  generated := { deviceId := "a1b2c3d4-e5f6-4a5b-8c9d-0e1f2a3b4c5d", machineFingerprint := "f1",
                 fingerprintInputsJson := "" }
  computerName := "office"

/-- A licence of one day, with a week of grace. -/
def sampleActivation : LicenseEvent :=
  .activate (sampleEnv 0)
    { offlineClient with
      activateLicense := fun _ => .ok
        { licenseId := "lic_1", customerId := "cus_1", subscriptionType := "trial",
          status := "active", expiresAt := some "1970-01-02T00:00:00+00:00",
          gracePeriodDays := 7 } }
    "AAAA-AAAA-AAAA-AAAA"

/-- The server answers a check with this status. -/
def answering (status : String) : LicenseApiClient :=
  { offlineClient with
    validateLicense := fun _ => .ok
      { status, expiresAt := some "1970-01-02T00:00:00+00:00", gracePeriodDays := 7,
        serverTime := "1970-01-01T00:00:00+00:00", fingerprintMatched := true } }

end Desktop.License
