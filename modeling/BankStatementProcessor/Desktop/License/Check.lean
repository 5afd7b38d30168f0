import BankStatementProcessor.Desktop.Analytics
import BankStatementProcessor.Desktop.License.Client
import BankStatementProcessor.Infra.StateMachine

/-!
# Checking and activating the licence

`check_status` asks the server and falls back on the cached row; `activate` stores the terms of
a key. The validation log is left out: nothing reads it.
-/

namespace Desktop.License

open Infra

/-- What a call meets: the clock, the machine, and the statements that fail. -/
structure CallEnv where
  now : DateTime
  /-- The identity `fingerprint` would generate. -/
  generated : DeviceInfo
  computerName : String
  faults : Faults := {}
  deriving DecidableEq, Repr

section

variable (lib : Libraries)

/-- `check_status` up to its request; without one, the status it returns. -/
def prepareCheck (conn : Conn) (env : CallEnv) :
    Except LicenseStatus (LocalLicenseRecord × ValidateLicenseRequest) × Conn :=
  let conn := conn.orKeep (advanceClockWatermark lib env.faults.advance conn env.now)
  match loadLocalLicense lib env.faults.load conn with
  | .ok none => (.error .notActivated, conn)
  | .error _ => (.error .gracePeriodExpired, conn)
  | .ok (some record) =>
    match record.licenseId with
    | none => (.error .notActivated, conn)
    | some licenseId =>
      match getOrCreateDeviceInfo env.faults.device env.generated conn with
      | .error _ => (.error .gracePeriodExpired, conn)
      | .ok (device, conn) =>
        (.ok (record, { licenseId, deviceId := device.deviceId,
                        machineFingerprint := device.machineFingerprint,
                        clientClock := lib.toRfc3339 env.now }), conn)

/-- What is left of the licence when the server gave no answer. -/
def offlineStatus (record : LocalLicenseRecord) (now : DateTime) : LicenseStatus :=
  if record.status = "revoked" ∨ record.status = "suspended" then .gracePeriodExpired
  else
    deriveOfflineStatus record.gracePeriodDays record.lastValidatedAt record.highestSeenClock now

def parseRfc3339 (s : Option String) : Option DateTime := s.bind lib.parseFromRfc3339

/-- The record after an answer of the server. -/
def validated (record : LocalLicenseRecord) (resp : ValidateLicenseResponse) (now : DateTime) :
    LocalLicenseRecord :=
  { record with
    status := resp.status
    expiresAt := parseRfc3339 lib resp.expiresAt
    gracePeriodDays := resp.gracePeriodDays
    lastValidatedAt := some now }

def checkStatus (conn : Conn) (env : CallEnv) (api : LicenseApiClient) : LicenseStatus × Conn :=
  match prepareCheck lib conn env with
  | (.error status, conn) => (status, conn)
  | (.ok (record, request), conn) =>
    match api.validateLicense request with
    | .ok resp =>
      (statusFromServerResponse resp.status,
        conn.orKeep (saveLocalLicense lib env.faults.save conn
          (validated lib record resp env.now)))
    -- any error, also one the server answered with
    | .error _ => (offlineStatus record env.now, conn)

def devTestLicenseKey : String := "DEV-BSP-TEST-0001"

/-- The record of the developer's key, which needs no server. -/
def devTestRecord (now : DateTime) : LocalLicenseRecord where
  customerId := some "dev_test_customer"
  licenseId := some "dev_test_license"
  licenseKey := some devTestLicenseKey
  subscriptionType := some "lifetime (dev/test)"
  status := "active"
  expiresAt := none
  lastValidatedAt := some now
  gracePeriodDays := 3650
  highestSeenClock := some now

/-- The record of an activation. -/
def activated (licenseKey : String) (resp : ActivateLicenseResponse) (now : DateTime) :
    LocalLicenseRecord where
  customerId := some resp.customerId
  licenseId := some resp.licenseId
  licenseKey := some licenseKey
  subscriptionType := some resp.subscriptionType
  status := resp.status
  expiresAt := parseRfc3339 lib resp.expiresAt
  lastValidatedAt := some now
  gracePeriodDays := resp.gracePeriodDays
  highestSeenClock := some now

def activateRequest (licenseKey : String) (device : DeviceInfo) (env : CallEnv) :
    ActivateLicenseRequest where
  licenseKey := licenseKey
  deviceId := device.deviceId
  machineFingerprint := device.machineFingerprint
  deviceLabel := env.computerName

/-- `debugAssertions` is `cfg!(debug_assertions)`. -/
def isDevTestKey (debugAssertions : Bool) (licenseKey : String) : Bool :=
  debugAssertions ∧ trim licenseKey.toList = devTestLicenseKey.toList

def activate (debugAssertions : Bool) (conn : Conn) (env : CallEnv) (api : LicenseApiClient)
    (licenseKey : String) : Except ApiError LicenseStatus × Conn :=
  if isDevTestKey debugAssertions licenseKey then
    match saveLocalLicense lib env.faults.save conn (devTestRecord env.now) with
    | .error e =>
      (.error (.serverError s!"dev/test activation succeeded but failed to persist locally: {e}"),
        conn)
    | .ok conn => (.ok .active, conn)
  else
    match getOrCreateDeviceInfo env.faults.device env.generated conn with
    | .error e => (.error (.serverError s!"failed to read device identity: {e}"), conn)
    | .ok (device, conn) =>
      match api.activateLicense (activateRequest licenseKey device env) with
      | .error e => (.error e, conn)
      | .ok resp =>
        match saveLocalLicense lib env.faults.save conn (activated lib licenseKey resp env.now) with
        | .error e =>
          (.error (.serverError s!"activation succeeded but failed to persist locally: {e}"), conn)
        | .ok conn => (.ok (statusFromServerResponse resp.status), conn)

end

/-- The record is overwritten, not deleted. -/
def clearLocalActivation (lib : Libraries) (fault : Bool) (conn : Conn) : Except String Conn :=
  saveLocalLicense lib fault conn .notActivated

/-! ## Without an answer -/

/-- The record allows the application to go on. -/
structure LocalLicenseRecord.InGrace (record : LocalLicenseRecord) (now : DateTime) : Prop where
  notRevoked : record.status ≠ "revoked"
  notSuspended : record.status ≠ "suspended"
  within : WithinGrace record.gracePeriodDays record.lastValidatedAt record.highestSeenClock now

/-- The cached row can be read, was activated, and allows the application to go on. -/
structure GraceReaches (lib : Libraries) (conn : Conn) (env : CallEnv) : Prop where
  readable : env.faults.load = false
  device : env.faults.device = false
  cached : ∃ record, conn.Caches lib record ∧ record.licenseId ≠ none ∧ record.InGrace env.now

/-- The check gets as far as its request, and the request fails. -/
def ServerCallFails (lib : Libraries) (conn : Conn) (env : CallEnv) (api : LicenseApiClient) :
    Prop :=
  ∃ record request e, (prepareCheck lib conn env).1 = .ok (record, request) ∧
    api.validateLicense request = .error e

section

variable {lib : Libraries} {conn : Conn} {env : CallEnv} {api : LicenseApiClient}
  {record : LocalLicenseRecord} {request : ValidateLicenseRequest} {now : DateTime}

theorem isLicensed_offlineStatus :
    (offlineStatus record now).isLicensed ↔ record.InGrace now := by
  unfold offlineStatus
  split
  · next h =>
    refine iff_of_false (by simp [LicenseStatus.isLicensed]) ?_
    exact fun hgrace => h.elim hgrace.notRevoked hgrace.notSuspended
  · next h =>
    rw [isLicensed_deriveOfflineStatus]
    push Not at h
    exact ⟨fun hwithin => ⟨h.1, h.2, hwithin⟩, fun hgrace => hgrace.within⟩

theorem offlineStatus_ne_active : offlineStatus record now ≠ .active := by
  unfold offlineStatus deriveOfflineStatus
  split
  · simp
  · split
    · simp
    · split_ifs <;> simp

/-- A clock that was behind may be moved up to now. -/
theorem inGrace_advanced (h : ∀ seen ∈ record.highestSeenClock, seen < now) :
    LocalLicenseRecord.InGrace { record with highestSeenClock := some now } now ↔
      record.InGrace now := by
  constructor
  · rintro ⟨hrevoked, hsuspended, hwithin⟩
    exact ⟨hrevoked, hsuspended, hwithin.recent, fun seen hseen => (h seen hseen).le⟩
  · rintro ⟨hrevoked, hsuspended, hwithin⟩
    refine ⟨hrevoked, hsuspended, hwithin.recent, ?_⟩
    rintro seen ⟨⟩
    exact le_refl now

/-- What a check prepares, when it prepares a request. -/
theorem prepareCheck_eq_ok : (∃ request, (prepareCheck lib conn env).1 = .ok (record, request)) ↔
    env.faults.load = false ∧ env.faults.device = false ∧ record.licenseId ≠ none ∧
      (conn.orKeep (advanceClockWatermark lib env.faults.advance conn env.now)).Caches lib
        record := by
  unfold prepareCheck
  generalize conn.orKeep (advanceClockWatermark lib env.faults.advance conn env.now) = conn₁
  dsimp only
  have hread : env.faults.load = false ∧ env.faults.device = false ∧ record.licenseId ≠ none ∧
      conn₁.Caches lib record → loadLocalLicense lib env.faults.load conn₁ = .ok (some record) :=
    fun h => loadLocalLicense_eq_some.mpr ⟨h.1, h.2.2.2⟩
  cases hload : loadLocalLicense lib env.faults.load conn₁ with
  | error e =>
    refine iff_of_false (by simp) fun h => ?_
    cases hload.symm.trans (hread h)
  | ok loaded =>
    cases loaded with
    | none =>
      refine iff_of_false (by simp) fun h => ?_
      cases hload.symm.trans (hread h)
    | some r =>
      obtain ⟨hreadable, hcaches⟩ := loadLocalLicense_eq_some.mp hload
      have hrecord : conn₁.Caches lib record ↔ r = record :=
        ⟨hcaches.unique, fun h => h ▸ hcaches⟩
      dsimp only
      cases hid : r.licenseId with
      | none =>
        refine iff_of_false (by simp) ?_
        rintro ⟨-, -, hactivated, hsame⟩
        rw [hrecord] at hsame
        exact hactivated (hsame ▸ hid)
      | some licenseId =>
        rcases getOrCreateDeviceInfo_cases env.faults.device env.generated conn₁ with
          ⟨hfault, e, he⟩ | ⟨hfault, device, conn₂, -, hok⟩
        · dsimp only
          rw [he]
          simp [hfault]
        · dsimp only
          rw [hok]
          simp only [Except.ok.injEq, Prod.mk.injEq, exists_and_left, exists_eq', and_true,
            hreadable, hfault, true_and, hrecord]
          refine ⟨fun h => ⟨?_, h⟩, And.right⟩
          rw [← h, hid]
          simp

/-- Moving the watermark up does not change what the grace period reaches. -/
theorem inGrace_of_prepareCheck
    (h : (prepareCheck lib conn env).1 = .ok (record, request)) :
    record.InGrace env.now ↔ GraceReaches lib conn env := by
  obtain ⟨hreadable, hdevice, hid, hcaches⟩ := prepareCheck_eq_ok.mp ⟨request, h⟩
  have hcached : (∃ r, conn.Caches lib r ∧ r.licenseId ≠ none ∧ r.InGrace env.now) ↔
      record.InGrace env.now := by
    rcases orKeep_advanceClockWatermark lib env.faults.advance conn env.now with
      hkeep | ⟨r, hr, hbehind, hmove⟩
    · rw [hkeep] at hcaches
      refine ⟨?_, fun hgrace => ⟨record, hcaches, hid, hgrace⟩⟩
      rintro ⟨r, hr, -, hgrace⟩
      rwa [hcaches.unique hr]
    · rw [hmove] at hcaches
      obtain rfl := hcaches.unique caches_withRecord
      rw [inGrace_advanced hbehind]
      refine ⟨?_, fun hgrace => ⟨r, hr, hid, hgrace⟩⟩
      rintro ⟨r', hr', -, hgrace⟩
      rwa [hr.unique hr']
  rw [← hcached]
  exact ⟨fun hcached => ⟨hreadable, hdevice, hcached⟩, GraceReaches.cached⟩

/-- A check that fails answers what the record it has loaded allows. -/
theorem checkStatus_of_fails (h : ServerCallFails lib conn env api) :
    ∃ record, (record.InGrace env.now ↔ GraceReaches lib conn env) ∧
      (checkStatus lib conn env api).1 = offlineStatus record env.now := by
  obtain ⟨record, request, e, hprepare, he⟩ := h
  refine ⟨record, inGrace_of_prepareCheck hprepare, ?_⟩
  unfold checkStatus
  generalize prepareCheck lib conn env = r at hprepare ⊢
  obtain ⟨prepared, conn'⟩ := r
  dsimp only at hprepare
  subst hprepare
  simp only [he]

/-- **A check whose request fails is licensed exactly when the grace period reaches it.** -/
theorem isLicensed_checkStatus_of_fails (h : ServerCallFails lib conn env api) :
    (checkStatus lib conn env api).1.isLicensed ↔ GraceReaches lib conn env := by
  obtain ⟨record, hreaches, hstatus⟩ := checkStatus_of_fails h
  rw [hstatus, isLicensed_offlineStatus, hreaches]

/-- It is never active then. -/
theorem checkStatus_eq_grace_of_fails (h : ServerCallFails lib conn env api)
    (hlicensed : (checkStatus lib conn env api).1.isLicensed) :
    ∃ days, (checkStatus lib conn env api).1 = .activeOfflineGrace days := by
  refine (isLicensed_iff.mp hlicensed).resolve_left fun hactive => ?_
  obtain ⟨record, -, hstatus⟩ := checkStatus_of_fails h
  exact offlineStatus_ne_active (hstatus.symm.trans hactive)

theorem not_isLicensed_of_prepareCheck {status : LicenseStatus}
    (h : (prepareCheck lib conn env).1 = .error status) : status.isLicensed = false := by
  unfold prepareCheck at h
  dsimp only at h
  split at h
  · cases h
    rfl
  · cases h
    rfl
  · split at h
    · cases h
      rfl
    · split at h
      · cases h
        rfl
      · cases h

/-- Grace is granted to a check whose request has failed. -/
theorem serverCallFails_of_grace {days : ℤ}
    (h : (checkStatus lib conn env api).1 = .activeOfflineGrace days) :
    ServerCallFails lib conn env api := by
  unfold checkStatus at h
  cases hprepare : prepareCheck lib conn env with
  | mk prepared conn' =>
    rw [hprepare] at h
    cases prepared with
    | error status =>
      dsimp only at h
      have herror : (prepareCheck lib conn env).1 = .error status := by rw [hprepare]
      have hnot := not_isLicensed_of_prepareCheck herror
      rw [h] at hnot
      cases hnot
    | ok p =>
      obtain ⟨record, request⟩ := p
      dsimp only at h
      cases hanswer : api.validateLicense request with
      | ok resp =>
        rw [hanswer] at h
        exact absurd h (statusFromServerResponse_ne_grace days)
      | error e => exact ⟨record, request, e, by rw [hprepare], hanswer⟩

end

end Desktop.License
