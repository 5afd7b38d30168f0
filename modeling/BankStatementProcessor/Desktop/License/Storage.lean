import BankStatementProcessor.Desktop.License.Validation

/-!
# The cached licence

`local_license` and `device_info`, one row each. A timestamp column holds the instant that
`parse_ts` reads from its text. A cached row carries an HMAC of the columns that decide the
status, and one that does not match makes the row unreadable.

A statement can fail; then nothing is written.
-/

namespace Desktop.License

/-- What is used of the libraries: timestamps as text, and the HMAC under the key that is
compiled in, as base64. -/
structure Libraries where
  toRfc3339 : DateTime → String
  parseFromRfc3339 : String → Option DateTime
  hmacSha256 : String → String

structure LocalLicenseRecord where
  customerId : Option String
  licenseId : Option String
  licenseKey : Option String
  subscriptionType : Option String
  status : String
  expiresAt : Option DateTime
  lastValidatedAt : Option DateTime
  gracePeriodDays : ℤ
  highestSeenClock : Option DateTime
  deriving DecidableEq, Repr

/-- The record before an activation. -/
def LocalLicenseRecord.notActivated : LocalLicenseRecord where
  customerId := none
  licenseId := none
  licenseKey := none
  subscriptionType := none
  status := "not_activated"
  expiresAt := none
  lastValidatedAt := none
  gracePeriodDays := 7
  highestSeenClock := none

/-- The row, with the HMAC that was stored with it. -/
structure LocalLicenseRow where
  record : LocalLicenseRecord
  integrityHmac : Option String
  deriving DecidableEq, Repr

structure DeviceInfo where
  deviceId : String
  machineFingerprint : String
  fingerprintInputsJson : String
  deriving DecidableEq, Repr

/-- The tables of the database that concern the licence. -/
structure Conn where
  localLicense : Option LocalLicenseRow
  deviceInfo : Option DeviceInfo
  deriving DecidableEq, Repr

/-- Which statements of a call fail. -/
structure Faults where
  advance : Bool := false
  load : Bool := false
  device : Bool := false
  save : Bool := false
  deriving DecidableEq, Repr

section

variable (lib : Libraries)

/-- The columns that are signed. -/
def integrityPayload (record : LocalLicenseRecord) : String :=
  let licenseId := record.licenseId.getD ""
  let expiresAt := (record.expiresAt.map lib.toRfc3339).getD ""
  let lastValidatedAt := (record.lastValidatedAt.map lib.toRfc3339).getD ""
  s!"{licenseId}|{record.status}|{expiresAt}|{record.gracePeriodDays}|{lastValidatedAt}"

def computeIntegrityHmac (record : LocalLicenseRecord) : String :=
  lib.hmacSha256 (integrityPayload lib record)

def integrityError : String :=
  "local license record failed integrity check " ++
    "(cached data may have been tampered with)"

/-- `none` if no licence has ever been stored. A row without an HMAC counts as not yet signed. -/
def loadLocalLicense (fault : Bool) (conn : Conn) : Except String (Option LocalLicenseRecord) :=
  if fault then .error "load_local_license"
  else
    match conn.localLicense with
    | none => .ok none
    | some row =>
      if row.integrityHmac.any (· ≠ computeIntegrityHmac lib row.record) then
        .error integrityError
      else .ok (some row.record)

/-- The row of the record, signed. -/
def Conn.withRecord (conn : Conn) (record : LocalLicenseRecord) : Conn :=
  { conn with
    localLicense := some { record, integrityHmac := some (computeIntegrityHmac lib record) } }

def saveLocalLicense (fault : Bool) (conn : Conn) (record : LocalLicenseRecord) :
    Except String Conn :=
  if fault then .error "save_local_license" else .ok (conn.withRecord lib record)

/-- The clock that was seen last only moves forward. -/
def advanceClockWatermark (fault : Bool) (conn : Conn) (now : DateTime) : Except String Conn :=
  match loadLocalLicense lib fault conn with
  | .error e => .error e
  | .ok none => .ok conn
  | .ok (some record) =>
    if record.highestSeenClock.all (· < now) then
      saveLocalLicense lib fault conn { record with highestSeenClock := some now }
    else .ok conn

end

/-- The identity of the installation; `generated` is stored at the first call. -/
def getOrCreateDeviceInfo (fault : Bool) (generated : DeviceInfo) (conn : Conn) :
    Except String (DeviceInfo × Conn) :=
  if fault then .error "load_device_info"
  else
    match conn.deviceInfo with
    | some existing => .ok (existing, conn)
    | none => .ok (generated, { conn with deviceInfo := some generated })

/-- `let _ =`: the error of a statement that writes is dropped. -/
def Conn.orKeep (conn : Conn) (r : Except String Conn) : Conn := r.toOption.getD conn

/-! ## What is read and written -/

section

variable {lib : Libraries} {conn conn' : Conn} {record : LocalLicenseRecord} {now : DateTime}
  {fault : Bool}

/-- The row can be read, and says `record`. -/
def Conn.Caches (lib : Libraries) (conn : Conn) (record : LocalLicenseRecord) : Prop :=
  loadLocalLicense lib false conn = .ok (some record)

instance (lib : Libraries) (conn : Conn) (record : LocalLicenseRecord) :
    Decidable (conn.Caches lib record) := by
  unfold Conn.Caches
  infer_instance

/-- The clock in the row. -/
def Conn.highestSeenClock (conn : Conn) : Option DateTime :=
  conn.localLicense.bind (·.record.highestSeenClock)

theorem loadLocalLicense_eq_some : loadLocalLicense lib fault conn = .ok (some record) ↔
    fault = false ∧ conn.Caches lib record := by
  unfold Conn.Caches
  cases fault <;> simp [loadLocalLicense]

theorem Conn.Caches.unique {record' : LocalLicenseRecord} (h : conn.Caches lib record)
    (h' : conn.Caches lib record') : record = record' :=
  Option.some.inj (Except.ok.inj (h.symm.trans h'))

theorem caches_withRecord : (conn.withRecord lib record).Caches lib record := by
  simp [Conn.Caches, loadLocalLicense, Conn.withRecord]

/-- The HMAC of the row, where it has one, is that of its record. -/
theorem caches_iff : conn.Caches lib record ↔ ∃ row, conn.localLicense = some row ∧
    row.record = record ∧ ∀ h ∈ row.integrityHmac, h = computeIntegrityHmac lib record := by
  unfold Conn.Caches loadLocalLicense
  cases conn.localLicense with
  | none => simp
  | some row =>
    by_cases hsigned : row.integrityHmac.any (· ≠ computeIntegrityHmac lib row.record) = true
    · simp only [Bool.false_eq_true, if_false, hsigned, if_true, reduceCtorEq, Option.some.injEq,
        exists_eq_left', false_iff, not_and]
      rintro rfl hall
      simp only [Option.any_eq_true, decide_eq_true_eq] at hsigned
      obtain ⟨h, hmem, hne⟩ := hsigned
      exact hne (hall h hmem)
    · simp only [Bool.false_eq_true, if_false, hsigned, Except.ok.injEq, Option.some.injEq,
        exists_eq_left']
      refine ⟨fun h => ⟨h, ?_⟩, And.left⟩
      subst h
      simpa [Option.any_eq_true] using hsigned

theorem Conn.Caches.highestSeenClock (h : conn.Caches lib record) :
    conn.highestSeenClock = record.highestSeenClock := by
  obtain ⟨row, hrow, rfl, -⟩ := caches_iff.mp h
  rw [Conn.highestSeenClock, hrow, Option.bind_some]

/-- Only the row decides what is cached. -/
theorem caches_congr (h : conn'.localLicense = conn.localLicense) :
    conn'.Caches lib record ↔ conn.Caches lib record := by
  unfold Conn.Caches loadLocalLicense
  rw [h]

theorem getOrCreateDeviceInfo_cases (fault : Bool) (generated : DeviceInfo) (conn : Conn) :
    (fault = true ∧ ∃ e, getOrCreateDeviceInfo fault generated conn = .error e) ∨
      fault = false ∧ ∃ device conn', conn'.localLicense = conn.localLicense ∧
        getOrCreateDeviceInfo fault generated conn = .ok (device, conn') := by
  unfold getOrCreateDeviceInfo
  cases fault with
  | true => exact Or.inl ⟨rfl, _, rfl⟩
  | false =>
    cases conn.deviceInfo with
    | none => exact Or.inr ⟨rfl, generated, { conn with deviceInfo := some generated }, rfl, rfl⟩
    | some existing => exact Or.inr ⟨rfl, existing, conn, rfl, rfl⟩

/-- Either nothing is written, or the clock of a record that was behind. -/
theorem orKeep_advanceClockWatermark (lib : Libraries) (fault : Bool) (conn : Conn)
    (now : DateTime) :
    conn.orKeep (advanceClockWatermark lib fault conn now) = conn ∨
      ∃ record, conn.Caches lib record ∧ (∀ seen ∈ record.highestSeenClock, seen < now) ∧
        conn.orKeep (advanceClockWatermark lib fault conn now) =
          conn.withRecord lib { record with highestSeenClock := some now } := by
  cases hload : loadLocalLicense lib fault conn with
  | error e => exact Or.inl (by simp [advanceClockWatermark, hload, Conn.orKeep, Except.toOption])
  | ok loaded =>
    cases loaded with
    | none => exact Or.inl (by simp [advanceClockWatermark, hload, Conn.orKeep, Except.toOption])
    | some record =>
      obtain ⟨rfl, hcaches⟩ := loadLocalLicense_eq_some.mp hload
      by_cases hbehind : record.highestSeenClock.all (· < now) = true
      · refine Or.inr ⟨record, hcaches, by simpa [Option.all_eq_true] using hbehind, ?_⟩
        simp [advanceClockWatermark, hload, hbehind, saveLocalLicense, Conn.orKeep,
          Except.toOption]
      · exact Or.inl (by
          simp [advanceClockWatermark, hload, hbehind, Conn.orKeep, Except.toOption])

end

end Desktop.License
