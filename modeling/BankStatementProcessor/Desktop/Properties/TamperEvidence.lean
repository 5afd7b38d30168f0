import BankStatementProcessor.Desktop.License.Session
import BankStatementProcessor.Desktop.RowId
import BankStatementProcessor.Infra.Lexical
import Mathlib.Logic.Equiv.Basic

/-!
# Edits of the cached licence

`tamper_evident_iff` — which edits of the database, made without the key, the HMAC of the row
gives away.
-/

namespace Desktop.License

open Infra

/-- The HMAC is taken for an injective function of the payload. A timestamp is written in one
way, and without the separator of the payload. -/
structure Libraries.Lawful (lib : Libraries) : Prop where
  hmacSha256_injective : Function.Injective lib.hmacSha256
  toRfc3339_injective : Function.Injective lib.toRfc3339
  toRfc3339_ne_empty : ∀ t, lib.toRfc3339 t ≠ ""
  bar_not_mem_toRfc3339 : ∀ t, '|' ∉ (lib.toRfc3339 t).toList

/-! ## What is signed -/

/-- The records read the same once they are joined for the signature: the licence id and the
status only as one text. -/
structure SignedTextsAgree (record record' : LocalLicenseRecord) : Prop where
  owner : record.licenseId.getD "" ++ "|" ++ record.status =
    record'.licenseId.getD "" ++ "|" ++ record'.status
  expiresAt : record.expiresAt = record'.expiresAt
  gracePeriodDays : record.gracePeriodDays = record'.gracePeriodDays
  lastValidatedAt : record.lastValidatedAt = record'.lastValidatedAt

theorem toList_toString_ofNat (n : ℕ) :
    (toString (Int.ofNat n)).toList = Nat.toDigits 10 n := by
  show (Nat.repr n).toList = _
  simp [Nat.repr]

theorem toList_toString_negSucc (n : ℕ) :
    (toString (Int.negSucc n)).toList = '-' :: Nat.toDigits 10 (n + 1) := by
  show ("-" ++ Nat.repr (n + 1)).toList = _
  simp [Nat.repr]

theorem not_mem_toDigits {n : ℕ} {c : Char} (hc : c.isDigit = false) : c ∉ Nat.toDigits 10 n := by
  intro hmem
  have hdigit := Nat.isDigit_of_mem_toDigits (by decide) (by decide) hmem
  rw [hc] at hdigit
  cases hdigit

theorem toString_int_injective : Function.Injective (fun n : ℤ => toString n) := by
  intro m n h
  have hlist : (toString m).toList = (toString n).toList := congrArg String.toList h
  cases m <;> cases n <;>
    simp only [toList_toString_ofNat, toList_toString_negSucc, List.cons.injEq, true_and] at hlist
  case ofNat.ofNat m n => rw [toDigits_inj.mp hlist]
  case ofNat.negSucc m n => exact absurd hlist (toDigits_ne_word (by decide))
  case negSucc.ofNat m n => exact absurd hlist.symm (toDigits_ne_word (by decide))
  case negSucc.negSucc m n => rw [Nat.succ.inj (toDigits_inj.mp hlist)]

theorem bar_not_mem_toString_int (n : ℤ) : '|' ∉ (toString n).toList := by
  cases n with
  | ofNat n =>
    rw [toList_toString_ofNat]
    exact not_mem_toDigits (by decide)
  | negSucc n =>
    rw [toList_toString_negSucc]
    simp [not_mem_toDigits]

section

variable {lib : Libraries} {record record' : LocalLicenseRecord}

/-- How a timestamp stands in the payload. -/
theorem stamp_injective (hlib : lib.Lawful) :
    Function.Injective (fun t : Option DateTime => (t.map lib.toRfc3339).getD "") := by
  intro t t' h
  cases t <;> cases t'
  case none.none => rfl
  case none.some t' => exact absurd h.symm (hlib.toRfc3339_ne_empty t')
  case some.none t => exact absurd h (hlib.toRfc3339_ne_empty t)
  case some.some t t' => rw [hlib.toRfc3339_injective h]

theorem bar_not_mem_stamp (hlib : lib.Lawful) (t : Option DateTime) :
    '|' ∉ ((t.map lib.toRfc3339).getD "").toList := by
  cases t with
  | none => simp
  | some t => exact hlib.bar_not_mem_toRfc3339 t

/-- **The payloads of two records agree exactly when their signed texts do.** -/
theorem integrityPayload_eq_iff (hlib : lib.Lawful) :
    integrityPayload lib record = integrityPayload lib record' ↔
      SignedTextsAgree record record' := by
  have hlist : ∀ r : LocalLicenseRecord, (integrityPayload lib r).toList =
      (((r.licenseId.getD "" ++ "|" ++ r.status).toList ++
        '|' :: ((r.expiresAt.map lib.toRfc3339).getD "").toList) ++
        '|' :: (toString r.gracePeriodDays).toList) ++
        '|' :: ((r.lastValidatedAt.map lib.toRfc3339).getD "").toList := by
    intro r
    simp [integrityPayload, ToString.toString]
  rw [← String.toList_inj, hlist, hlist,
    append_cons_inj_of_notMem_right (bar_not_mem_stamp hlib _) (bar_not_mem_stamp hlib _),
    append_cons_inj_of_notMem_right (bar_not_mem_toString_int _) (bar_not_mem_toString_int _),
    append_cons_inj_of_notMem_right (bar_not_mem_stamp hlib _) (bar_not_mem_stamp hlib _),
    String.toList_inj, String.toList_inj, String.toList_inj, String.toList_inj]
  constructor
  · rintro ⟨⟨⟨howner, hexpires⟩, hdays⟩, hvalidated⟩
    exact ⟨howner, stamp_injective hlib hexpires, toString_int_injective hdays,
      stamp_injective hlib hvalidated⟩
  · rintro ⟨howner, hexpires, hdays, hvalidated⟩
    rw [howner, hexpires, hdays, hvalidated]
    exact ⟨⟨⟨rfl, rfl⟩, rfl⟩, rfl⟩

end

/-! ## What is claimed of an edit -/

/-- The columns of a row that can change the outcome of a check. -/
def LocalLicenseRecord.deciding (record : LocalLicenseRecord) :
    Option String × String × Option DateTime × ℤ × Option DateTime × Option DateTime :=
  (record.licenseId, record.status, record.expiresAt, record.gracePeriodDays,
    record.lastValidatedAt, record.highestSeenClock)

/-- No column that can change the outcome differs, of either table. -/
structure SameDeciding (conn conn' : Conn) : Prop where
  license : conn.localLicense.map (·.record.deciding) = conn'.localLicense.map (·.record.deciding)
  device : conn.deviceInfo.map (fun d => (d.deviceId, d.machineFingerprint)) =
    conn'.deviceInfo.map (fun d => (d.deviceId, d.machineFingerprint))

/-- An edit that does not compute an HMAC leaves the column alone or empties it. -/
def EditedWithoutKey (conn conn' : Conn) : Prop :=
  ∃ row row', conn.localLicense = some row ∧ conn'.localLicense = some row' ∧
    (row'.integrityHmac = row.integrityHmac ∨ row'.integrityHmac = none)

/-- The HMAC is still there, and is not that of what the row says now. -/
def SignatureBroken (conn conn' : Conn) : Prop :=
  ∃ row row', conn.localLicense = some row ∧ conn'.localLicense = some row' ∧
    row'.integrityHmac ≠ none ∧ ¬ SignedTextsAgree row.record row'.record

/-- An edit that can change the outcome is rejected, and none licenses an offline check. -/
structure TamperEvident (lib : Libraries) (conn conn' : Conn) : Prop where
  rejected : ¬ SameDeciding conn conn' → ∃ e, loadLocalLicense lib false conn' = .error e
  notLicensed : ∀ env, ¬ (checkStatus lib conn env offlineClient).1.isLicensed →
    ¬ (checkStatus lib conn' env offlineClient).1.isLicensed

section

variable {lib : Libraries} {c conn conn' : Conn} {record : LocalLicenseRecord} {env : CallEnv}

/-- An edited row is rejected exactly when its signature is broken. -/
theorem rejected_iff (hlib : lib.Lawful) (hsaved : saveLocalLicense lib false c record = .ok conn)
    (hedit : EditedWithoutKey conn conn') :
    (∃ e, loadLocalLicense lib false conn' = .error e) ↔ SignatureBroken conn conn' := by
  cases hsaved
  obtain ⟨row, row', hrow, hrow', hkept⟩ := hedit
  cases hrow
  have hbroken : SignatureBroken (c.withRecord lib record) conn' ↔
      row'.integrityHmac ≠ none ∧ ¬ SignedTextsAgree record row'.record := by
    constructor
    · rintro ⟨r, r', hr, hr', hsigned, hdiffers⟩
      cases hr
      obtain rfl := Option.some.inj (hrow'.symm.trans hr')
      exact ⟨hsigned, hdiffers⟩
    · rintro ⟨hsigned, hdiffers⟩
      exact ⟨_, row', rfl, hrow', hsigned, hdiffers⟩
  rw [hbroken]
  rcases hkept with hkept | hnone
  · have hsame : computeIntegrityHmac lib record = computeIntegrityHmac lib row'.record ↔
        SignedTextsAgree record row'.record :=
      hlib.hmacSha256_injective.eq_iff.trans (integrityPayload_eq_iff hlib)
    rw [← hsame]
    by_cases hunchanged : computeIntegrityHmac lib record = computeIntegrityHmac lib row'.record
    · simp [loadLocalLicense, hrow', hkept, hunchanged]
    · simp [loadLocalLicense, hrow', hkept, hunchanged]
  · simp [loadLocalLicense, hrow', hnone]

/-- Within the grace period an offline check gets as far as its request. -/
theorem serverCallFails_of_graceReaches (h : GraceReaches lib conn env) :
    ServerCallFails lib conn env offlineClient := by
  obtain ⟨record, hcaches, hactivated, -⟩ := h.cached
  have hprepared : ∃ record request, (prepareCheck lib conn env).1 = .ok (record, request) := by
    rcases orKeep_advanceClockWatermark lib env.faults.advance conn env.now with
      hkeep | ⟨r, hr, -, hmove⟩
    · refine ⟨record, prepareCheck_eq_ok.mpr ⟨h.readable, h.device, hactivated, ?_⟩⟩
      rwa [hkeep]
    · obtain rfl := hr.unique hcaches
      refine ⟨{ r with highestSeenClock := some env.now },
        prepareCheck_eq_ok.mpr ⟨h.readable, h.device, hactivated, ?_⟩⟩
      rw [hmove]
      exact caches_withRecord
  obtain ⟨record, request, hok⟩ := hprepared
  exact ⟨record, request, .noServerConfigured, hok, rfl⟩

/-- Offline, the grace period alone licenses. -/
theorem isLicensed_offline_iff :
    (checkStatus lib conn env offlineClient).1.isLicensed ↔ GraceReaches lib conn env := by
  constructor
  · intro h
    obtain ⟨days, hdays⟩ | hactive : (∃ days, (checkStatus lib conn env offlineClient).1 =
        .activeOfflineGrace days) ∨ (checkStatus lib conn env offlineClient).1 = .active :=
      (isLicensed_iff.mp h).symm
    · exact (isLicensed_checkStatus_of_fails (serverCallFails_of_grace hdays)).mp h
    · -- without a server no check is answered
      exfalso
      unfold checkStatus at hactive
      cases hprepare : prepareCheck lib conn env with
      | mk prepared conn' =>
        rw [hprepare] at hactive
        cases prepared with
        | error status =>
          have hnot := not_isLicensed_of_prepareCheck (by rw [hprepare] :
            (prepareCheck lib conn env).1 = .error status)
          rw [show status = .active from hactive] at hnot
          cases hnot
        | ok p => exact offlineStatus_ne_active hactive
  · intro h
    exact (isLicensed_checkStatus_of_fails (serverCallFails_of_graceReaches h)).mpr h

/-- The grace period reads no other column. -/
theorem GraceReaches.of_sameDeciding (h : GraceReaches lib conn' env)
    (hsame : SameDeciding conn conn')
    (hcached : ∃ record, conn.Caches lib record) : GraceReaches lib conn env := by
  obtain ⟨record', hcaches', hactivated, hin⟩ := h.cached
  obtain ⟨record, hcaches⟩ := hcached
  obtain ⟨row, hrow, rfl, -⟩ := caches_iff.mp hcaches
  obtain ⟨row', hrow', rfl, -⟩ := caches_iff.mp hcaches'
  have hcolumns := hsame.license
  rw [hrow, hrow', Option.map_some, Option.map_some, Option.some.injEq] at hcolumns
  simp only [LocalLicenseRecord.deciding, Prod.mk.injEq] at hcolumns
  obtain ⟨hid, hstatus, -, hdays, hvalidated, hclock⟩ := hcolumns
  refine ⟨h.readable, h.device, row.record, hcaches, by rwa [hid], ?_⟩
  obtain ⟨hrevoked, hsuspended, hwithin⟩ := hin
  exact ⟨by rwa [hstatus], by rwa [hstatus], by rwa [hdays, hvalidated, hclock]⟩

end

/--
**An edit made without the key is given away exactly when it changes nothing that decides, or
leaves an HMAC that is no longer that of the row.** The clock that was seen last and the device
are not signed, an emptied HMAC is taken for a row that was never signed, and the licence id and
the status are signed as one text.
-/
theorem tamper_evident_iff {lib : Libraries} (hlib : lib.Lawful) {c conn conn' : Conn}
    {record : LocalLicenseRecord} (hsaved : saveLocalLicense lib false c record = .ok conn)
    (hedit : EditedWithoutKey conn conn') :
    TamperEvident lib conn conn' ↔ SameDeciding conn conn' ∨ SignatureBroken conn conn' := by
  constructor
  · intro h
    by_cases hsame : SameDeciding conn conn'
    · exact Or.inl hsame
    · exact Or.inr ((rejected_iff hlib hsaved hedit).mp (h.rejected hsame))
  · rintro (hsame | hbroken)
    · refine ⟨fun hdiffers => absurd hsame hdiffers, fun env hnot hlicensed => hnot ?_⟩
      rw [isLicensed_offline_iff] at hlicensed ⊢
      refine hlicensed.of_sameDeciding hsame ⟨record, ?_⟩
      cases hsaved
      exact caches_withRecord
    · obtain ⟨e, he⟩ := (rejected_iff hlib hsaved hedit).mpr hbroken
      refine ⟨fun _ => ⟨e, he⟩, fun env _ hlicensed => ?_⟩
      rw [isLicensed_offline_iff] at hlicensed
      obtain ⟨record', hcaches, -⟩ := hlicensed.cached
      rw [Conn.Caches, he] at hcaches
      cases hcaches

/-! ## A sample -/

theorem swap_induction {α : Type*} [DecidableEq α] {P : α → Prop} {a b x : α} (ha : P a) (hb : P b)
    (hx : P x) : P (Equiv.swap a b x) := by
  rw [Equiv.swap_apply_def]
  split_ifs
  · exact hb
  · exact ha
  · exact hx

/-- The two timestamps and the one HMAC of the row below stand where the libraries put them, and
what they displace takes their place. -/
def signedLibraries : Libraries where
  toRfc3339 t :=
    Equiv.swap (toString (0 : ℤ)) "1970-01-01T00:00:00+00:00"
      (Equiv.swap (toString (86400000000000 : ℤ)) "1970-01-02T00:00:00+00:00" (toString t))
  parseFromRfc3339 := sampleLibraries.parseFromRfc3339
  hmacSha256 :=
    Equiv.swap "lic_1|active|1970-01-02T00:00:00+00:00|7|1970-01-01T00:00:00+00:00"
      "nsrgH3TX3CVwYJV3IkwjnEJFGFWtpg/dW8QluRHWNLQ="

theorem signedLibraries_lawful : signedLibraries.Lawful := by
  have hstamp : ∀ t : ℤ, toString t ≠ "" ∧ '|' ∉ (toString t).toList := by
    refine fun t => ⟨?_, bar_not_mem_toString_int t⟩
    rw [← String.toList_inj.ne]
    cases t with
    | ofNat n =>
      rw [toList_toString_ofNat]
      exact Nat.toDigits_ne_nil
    | negSucc n =>
      rw [toList_toString_negSucc]
      simp
  have htexts : ∀ t, signedLibraries.toRfc3339 t ≠ "" ∧
      '|' ∉ (signedLibraries.toRfc3339 t).toList := by
    intro t
    refine swap_induction (P := fun s => s ≠ "" ∧ '|' ∉ s.toList) (hstamp 0) (by decide) ?_
    exact swap_induction (P := fun s => s ≠ "" ∧ '|' ∉ s.toList) (hstamp 86400000000000)
      (by decide) (hstamp t)
  exact {
    hmacSha256_injective := Equiv.injective _
    toRfc3339_injective := (Equiv.injective _).comp
      ((Equiv.injective _).comp toString_int_injective)
    toRfc3339_ne_empty := fun t => (htexts t).1
    bar_not_mem_toRfc3339 := fun t => (htexts t).2 }

/-- The licence of the sample, with the clock seen last two days after its activation. -/
def savedRecord : LocalLicenseRecord where
  customerId := some "cus_1"
  licenseId := some "lic_1"
  licenseKey := some "AAAA-AAAA-AAAA-AAAA"
  subscriptionType := some "trial"
  status := "active"
  expiresAt := some 86400000000000
  lastValidatedAt := some 0
  gracePeriodDays := 7
  highestSeenClock := some 172800000000000

/-- The row as it is saved, and edited to say `record` in the table. -/
def savedConn : Conn := Session.fresh.conn.withRecord signedLibraries savedRecord

def editedTo (record : LocalLicenseRecord) : Conn :=
  { savedConn with
    localLicense := savedConn.localLicense.map fun row => { row with record } }

/-- A status that is edited is given away. -/
theorem edited_status_rejected :
    TamperEvident signedLibraries savedConn (editedTo { savedRecord with status := "revoked" }) := by
  have hedit : EditedWithoutKey savedConn (editedTo { savedRecord with status := "revoked" }) :=
    ⟨_, { record := { savedRecord with status := "revoked" }, integrityHmac := _ }, rfl, rfl,
      Or.inl rfl⟩
  refine (tamper_evident_iff signedLibraries_lawful (c := Session.fresh.conn) rfl hedit).mpr ?_
  refine Or.inr ⟨_, { record := { savedRecord with status := "revoked" }, integrityHmac := _ },
    rfl, rfl, by simp, fun h => ?_⟩
  exact absurd h.owner (by decide)

/-- The clock that was seen last is edited, and a clock set back to the first day is licensed. -/
theorem edited_clock_accepted : ¬ ∀ (c conn conn' : Conn) (record : LocalLicenseRecord),
    saveLocalLicense signedLibraries false c record = .ok conn → EditedWithoutKey conn conn' →
      TamperEvident signedLibraries conn conn' := by
  intro h
  have hedit := h Session.fresh.conn savedConn
    (editedTo { savedRecord with highestSeenClock := some 0 }) savedRecord rfl
    ⟨_, _, rfl, rfl, Or.inl rfl⟩
  exact hedit.notLicensed (sampleEnv 0) (by decide) (by decide)

end Desktop.License
