import BankStatementProcessor.LicenseServer.Interleaving

/-!
# The devices of a licence

`Store` is the database with its `devices` table. `License.terms` are the columns that no
statement writes once the licence is issued; `TermsAfter` says so of the payment side.

`activateDevice` is one transaction: it locks the licence row, counts and writes.
-/

namespace LicenseServer

open Infra

/-! ## Terms of a licence -/

/-- What is fixed when a licence is issued. -/
structure LicenseTerms where
  id : ℕ
  subscriptionId : ℕ
  licenseKey : String
  maxDevices : ℕ
  deriving DecidableEq, Repr

def License.terms (l : License) : LicenseTerms where
  id := l.id
  subscriptionId := l.subscriptionId
  licenseKey := l.licenseKey
  maxDevices := l.maxDevices

def Db.terms (db : Db) : List LicenseTerms := db.licenses.rows.map License.terms

/-- The device limit of the licence a mutation issues. -/
def WebhookMutation.issuedLimit : WebhookMutation → Option ℕ
  | .activateSubscriptionAndLicense _ _ _ (.insert _ maxDevices _) _ => some maxDevices
  | _ => Option.none

/-- At most one licence is issued, and the others keep their terms. -/
def TermsAfter (issued : Option ℕ) (db db' : Db) : Prop :=
  db'.terms = db.terms ∨ ∃ t : LicenseTerms, t.id = db.licenses.nextId ∧
    issued = some t.maxDevices ∧ db'.terms = db.terms ++ [t]

section

variable {db db₁ db' : Db} {issued : Option ℕ}

theorem termsAfter_of_eq (h : db'.licenses = db.licenses) : TermsAfter issued db db' :=
  Or.inl (by rw [Db.terms, Db.terms, h])

theorem prefix_of_terms_eq (h : db'.terms = db.terms) : db.terms <+: db'.terms :=
  h ▸ List.prefix_refl db'.terms

theorem TermsAfter.isPrefix (h : TermsAfter issued db db') : db.terms <+: db'.terms := by
  rcases h with h | ⟨t, -, -, h⟩
  · exact prefix_of_terms_eq h
  · rw [h]
    exact List.prefix_append _ _

theorem TermsAfter.of_sameAccounts (h : TermsAfter issued db₁ db')
    (hsame : SameAccounts db db₁) : TermsAfter issued db db' := by
  unfold TermsAfter Db.terms at h ⊢
  rwa [hsame.licenses] at h

theorem setLicense_terms {id : ℕ} {status : LicenseRecordStatus} {e : Option Timestamp} :
    (db.setLicense id status e).terms = db.terms := by
  unfold Db.terms
  rw [Db.setLicense_licenses]
  refine List.map_map.trans (List.map_congr_left fun l _ => ?_)
  dsimp only [Function.comp_apply]
  split <;> rfl

theorem termsAfter_of_setAffectedLicense {license : Option AffectedLicense}
    {status : LicenseRecordStatus} (h : db₁.licenses = db.licenses) :
    TermsAfter issued db (db₁.setAffectedLicense license status) := by
  cases license with
  | none => exact termsAfter_of_eq h
  | some l =>
    refine Or.inl (setLicense_terms.trans ?_)
    rw [Db.terms, Db.terms, h]

theorem applyMutation_termsAfter {now : Timestamp} {m : WebhookMutation}
    (h : applyMutation db now m = .ok db') : TermsAfter m.issuedLimit db db' := by
  cases m with
  | none =>
    cases h
    exact termsAfter_of_eq rfl
  | markPaymentFailed paymentId =>
    cases h
    exact termsAfter_of_eq rfl
  | updateSubscriptionStatus subscriptionId status e license =>
    cases license with
    | none =>
      cases h
      exact termsAfter_of_eq rfl
    | some l =>
      cases h
      exact Or.inl setLicense_terms
  | activateSubscriptionAndLicense paymentId subscriptionId e license g =>
    obtain ⟨db₁, hact, hlicense⟩ := applyMutation_activate_eq_ok h
    obtain ⟨-, -, -, hl⟩ := activatePayment_eq_ok hact
    have hterms : (db₁.setSubscription now subscriptionId .active e).terms = db.terms := by
      rw [Db.terms, Db.terms, Db.setSubscription_licenses, hl]
    rcases hlicense with ⟨licenseId, rfl, rfl⟩ | ⟨licenseKey, maxDevices, days, rfl, hinsert⟩
    · exact Or.inl (setLicense_terms.trans hterms)
    · obtain ⟨-, hnew, -, -⟩ := insertLicense_eq_ok hinsert
      refine Or.inr ⟨⟨db.licenses.nextId, subscriptionId, licenseKey, maxDevices⟩, rfl, rfl, ?_⟩
      rw [← hterms, Db.terms, hnew, ← hl]
      simp [Table.insert, Db.terms, License.terms, Db.newLicense]
  | refundPayment paymentId license
  | markPaymentDisputed paymentId license
  | resolveDispute paymentId license merchantWon =>
    cases h
    exact termsAfter_of_setAffectedLicense rfl

/-- The one device limit a licence is issued with. -/
theorem issuedLimit_of_resolveEvent {env : CallEnv} {payload : RazorpayWebhookPayload}
    {m : WebhookMutation} (h : resolveEvent db env payload = .ok m) {n : ℕ}
    (hn : m.issuedLimit = some n) : n = 1 := by
  cases resolution_of_resolveEvent h with
  | ignored => cases hn
  | @acts s p event howns hev haccepted =>
    cases event with
    | captured g e =>
      simp only [mutationOf, licenseMutation] at hn
      split at hn <;> cases hn
      rfl
    | _ => cases hn

/-- The transaction of a resolved event: its database afterwards, also when it is rolled back. -/
def settleEvent (db : Db) (env : CallEnv) (eventId : String) (payload : RazorpayWebhookPayload)
    (m : WebhookMutation) : Except PaymentOperationError Unit × Db :=
  match claimAndApply db env.txNow (newEvent eventId payload) m with
  | .error e => (.error (.repository e), db)
  | .ok (_, db) => (.ok (), db)

theorem processWebhookEvent_eq_settleEvent (db : Db) (env : CallEnv) (eventId : String)
    (payload : RazorpayWebhookPayload) {m : WebhookMutation}
    (h : resolveEvent db env payload = .ok m) :
    processWebhookEvent db env eventId payload = settleEvent db env eventId payload m := by
  cases hclaim : claimAndApply db env.txNow (newEvent eventId payload) m with
  | error e => simp only [processWebhookEvent, settleEvent, h, hclaim]
  | ok r => simp only [processWebhookEvent, settleEvent, h, hclaim]

theorem settleEvent_termsAfter (db : Db) (env : CallEnv) (eventId : String)
    (payload : RazorpayWebhookPayload) (m : WebhookMutation) :
    TermsAfter m.issuedLimit db (settleEvent db env eventId payload m).2 := by
  unfold settleEvent claimAndApply
  cases hclaim : db.claim env.txNow (newEvent eventId payload) with
  | none => exact termsAfter_of_eq rfl
  | some c =>
    dsimp only
    cases happly : applyMutation c env.txNow m with
    | error e => exact termsAfter_of_eq rfl
    | ok db' =>
      exact (applyMutation_termsAfter happly).of_sameAccounts (claim_sameAccounts hclaim)

theorem deliver_termsAfter (db : Db) (d : Delivery) : TermsAfter (some 1) db (deliver db d) := by
  obtain ⟨m, hm, -⟩ := resolveEvent_resolution db d.env d.payload
  rw [deliver, processWebhookEvent_eq_settleEvent db d.env d.eventId d.payload hm]
  refine (settleEvent_termsAfter db d.env d.eventId d.payload m).imp_right ?_
  rintro ⟨t, hid, hissued, hterms⟩
  exact ⟨t, hid, by rw [issuedLimit_of_resolveEvent hm hissued], hterms⟩

theorem step_termsAfter (db : Db) (r : Request) : TermsAfter (some 1) db (step db r) := by
  cases r with
  | checkout now userId planTypeStr gateway =>
    refine termsAfter_of_eq ?_
    simp only [step, createCheckoutSession]
    split
    · rfl
    · split
      · rfl
      · split
        · rfl
        · next hdb' => exact (insertPayment_eq_ok hdb').2.2
  | webhook d => exact deliver_termsAfter db d
  | reconcile env payment =>
    rw [step, reconcileOne_eq]
    cases healing db env payment with
    | none => exact termsAfter_of_eq rfl
    | some d => exact deliver_termsAfter db d

end

/-! ## The devices table -/

abbrev Uuid := BitVec 128

/-- One row per licence and machine; the row stays when the device is deactivated. -/
structure Device where
  id : ℕ
  licenseId : ℕ
  deviceId : Uuid
  machineFingerprint : String
  deviceLabel : Option String
  firstSeenAt : Timestamp
  lastSeenAt : Timestamp
  deactivatedAt : Option Timestamp
  deriving DecidableEq, Repr

structure Store extends Db where
  devices : Table Device Device.id
  /-- `UNIQUE (license_id, device_id)` -/
  device_unique : UniqueOn (fun d => some (d.licenseId, d.deviceId)) devices.rows
  device_license : ∀ d ∈ devices.rows, ∃ l ∈ licenses.rows, l.id = d.licenseId

theorem mem_terms {db : Db} {t : LicenseTerms} :
    t ∈ db.terms ↔ ∃ l ∈ db.licenses.rows, l.terms = t := by
  simp [Db.terms]

/-- A licence is still there, with its terms. -/
theorem exists_of_terms {db db' : Db} (h : db.terms <+: db'.terms) {l : License}
    (hl : l ∈ db.licenses.rows) : ∃ l' ∈ db'.licenses.rows, l'.terms = l.terms :=
  mem_terms.mp (h.subset (mem_terms.mpr ⟨l, hl, rfl⟩))

namespace Store

def empty : Store where
  toDb := .empty
  devices := .empty
  device_unique := .nil
  device_license := by simp [Table.empty]

/-- A change of the other tables. -/
def mapDb (st : Store) (f : Db → Db) (h : ∀ db, db.terms <+: (f db).terms) : Store :=
  { st with
    toDb := f st.toDb
    device_license := by
      intro d hd
      obtain ⟨l, hl, hid⟩ := st.device_license d hd
      obtain ⟨l', hl', hterms⟩ := exists_of_terms (h st.toDb) hl
      exact ⟨l', hl', (congrArg LicenseTerms.id hterms).trans hid⟩ }

/-- `UPDATE devices SET f WHERE id = $1`, for an `f` that keeps the keys. -/
def modifyDevice (st : Store) (id : ℕ) (f : Device → Device) (hid : ∀ d, (f d).id = d.id)
    (hkey : ∀ d, (f d).licenseId = d.licenseId ∧ (f d).deviceId = d.deviceId) : Store :=
  { st with
    devices := st.devices.modify id f hid
    device_unique := st.device_unique.modify fun d => by rw [(hkey d).1, (hkey d).2]
    device_license := by
      intro d hd
      obtain ⟨d₀, hd₀, rfl⟩ := Table.mem_modify.mp hd
      have := st.device_license d₀ hd₀
      split
      · rw [(hkey d₀).1]
        exact this
      · exact this }

@[simp] theorem modifyDevice_devices {st : Store} {id : ℕ} {f : Device → Device}
    {hid : ∀ d, (f d).id = d.id}
    {hkey : ∀ d, (f d).licenseId = d.licenseId ∧ (f d).deviceId = d.deviceId} :
    (st.modifyDevice id f hid hkey).devices = st.devices.modify id f hid := rfl

/-! ### Queries -/

section

variable (st : Store)

def findLicenseByKey (licenseKey : String) : Option License :=
  st.licenses.rows.find? (fun l => l.licenseKey = licenseKey)

/-- The id comes from the caller, so it may be negative. -/
def findLicenseById (id : ℤ) : Option License :=
  st.licenses.rows.find? (fun l => (l.id : ℤ) = id)

def findSubscriptionById (id : ℕ) : Option Subscription := st.subscriptions.get? id

/-- The latest by `created_at`, whatever its status. -/
def findLatestByUser (userId : ℤ) : Option Subscription :=
  latestBy Subscription.createdAt (st.subscriptions.rows.filter (fun s => (s.userId : ℤ) = userId))

def findByLicenseAndDeviceId (licenseId : ℕ) (deviceId : Uuid) : Option Device :=
  st.devices.rows.find? (fun d => d.licenseId = licenseId ∧ d.deviceId = deviceId)

/-- The devices of the licence that are not deactivated. -/
def activeDevices (licenseId : ℕ) : List Device :=
  st.devices.rows.filter (fun d => d.licenseId = licenseId ∧ d.deactivatedAt = none)

def countActiveByLicense (licenseId : ℕ) : ℕ := (st.activeDevices licenseId).length

end

/-! ### Statements -/

section

variable (st : Store) (now : Timestamp) (id : ℕ)

/-- `SET last_seen_at = now()` -/
def touched (d : Device) : Device := { d with lastSeenAt := now }

def touchLastSeen : Store :=
  st.modifyDevice id (touched now) (fun _ => rfl) fun _ => ⟨rfl, rfl⟩

/-- `SET deactivated_at = now()` -/
def deactivated (d : Device) : Device := { d with deactivatedAt := some now }

def deactivate : Store :=
  st.modifyDevice id (deactivated now) (fun _ => rfl) fun _ => ⟨rfl, rfl⟩

variable (machineFingerprint deviceLabel : String)

/-- `SET machine_fingerprint = $2, device_label = $3, last_seen_at = now()` -/
def refreshed (d : Device) : Device :=
  { d with machineFingerprint, deviceLabel := some deviceLabel, lastSeenAt := now }

def refreshDevice : Store :=
  st.modifyDevice id (refreshed now machineFingerprint deviceLabel) (fun _ => rfl)
    fun _ => ⟨rfl, rfl⟩

/-- `SET deactivated_at = NULL` with the same. -/
def reactivated (d : Device) : Device :=
  { refreshed now machineFingerprint deviceLabel d with deactivatedAt := none }

def reactivateDevice : Store :=
  st.modifyDevice id (reactivated now machineFingerprint deviceLabel) (fun _ => rfl)
    fun _ => ⟨rfl, rfl⟩

def newDevice (now : Timestamp) (licenseId : ℕ) (deviceId : Uuid)
    (machineFingerprint deviceLabel : String) (id : ℕ) : Device :=
  { id := id
    licenseId
    deviceId
    machineFingerprint
    deviceLabel := some deviceLabel
    firstSeenAt := now
    lastSeenAt := now
    deactivatedAt := none }

def insertDevice (licenseId : ℕ) (deviceId : Uuid) : Except RepositoryError Store :=
  if hfk : ∃ l ∈ st.licenses.rows, l.id = licenseId then
    if hkey : ∀ d ∈ st.devices.rows, ¬ (d.licenseId = licenseId ∧ d.deviceId = deviceId) then
      .ok { st with
        devices := st.devices.insert
          (newDevice now licenseId deviceId machineFingerprint deviceLabel) (fun _ => rfl)
        device_unique := by
          refine st.device_unique.insert ?_
          intro d hd b hb hdb
          cases hb
          simp only [newDevice, Option.some.injEq, Prod.mk.injEq] at hdb
          exact hkey d hd hdb
        device_license := by
          intro d hd
          rcases Table.mem_insert.mp hd with h | rfl
          · exact st.device_license d h
          · exact hfk }
    else .error (.database "devices_license_id_device_id_key")
  else .error (.database "devices_license_id_fkey")

end

end Store

/-! ## `activate_device` -/

inductive DeviceActivationOutcome
  | activated
  /-- Nothing was written; carries the active devices. -/
  | limitReached (existing : List Device)
  deriving DecidableEq, Repr

/-- `as i32` of a count. -/
def asI32 (n : ℕ) : ℤ := Int.bmod n 4294967296

/-- One transaction, serialized by the lock on the licence row. -/
def activateDevice (st : Store) (now : Timestamp) (licenseId maxDevices : ℕ) (deviceId : Uuid)
    (machineFingerprint deviceLabel : String) :
    Except RepositoryError DeviceActivationOutcome × Store :=
  match st.licenses.get? licenseId with
  | none => (.error (.database "no rows returned"), st)
  | some _ =>
    let devices := st.devices.rows.filter (fun d => d.licenseId = licenseId)
    let active := devices.filter (fun d => d.deactivatedAt = none)
    match devices.find? (fun d => d.deviceId = deviceId) with
    | some existing =>
      if existing.deactivatedAt = none then
        -- already active, so no slot is consumed
        (.ok .activated, st.refreshDevice now existing.id machineFingerprint deviceLabel)
      else if (maxDevices : ℤ) ≤ asI32 active.length then (.ok (.limitReached active), st)
      else (.ok .activated, st.reactivateDevice now existing.id machineFingerprint deviceLabel)
    | none =>
      if (maxDevices : ℤ) ≤ asI32 active.length then (.ok (.limitReached active), st)
      else
        match st.insertDevice now machineFingerprint deviceLabel licenseId deviceId with
        | .error e => (.error e, st)
        | .ok st => (.ok .activated, st)

section

variable {st : Store} {now : Timestamp} {licenseId maxDevices : ℕ} {deviceId : Uuid}
  {machineFingerprint deviceLabel : String}

theorem insertDevice_eq_ok {st' : Store}
    (h : st.insertDevice now machineFingerprint deviceLabel licenseId deviceId = .ok st') :
    st'.toDb = st.toDb ∧ st'.devices = st.devices.insert
      (Store.newDevice now licenseId deviceId machineFingerprint deviceLabel) (fun _ => rfl) := by
  unfold Store.insertDevice at h
  split at h
  · split at h
    · cases h
      exact ⟨rfl, rfl⟩
    · cases h
  · cases h

/-- The ways the transaction can end. -/
inductive ActivateDeviceResult (st : Store) (now : Timestamp) (licenseId maxDevices : ℕ)
    (deviceId : Uuid) (machineFingerprint deviceLabel : String) :
    Except RepositoryError DeviceActivationOutcome × Store → Prop
  | failed (e : RepositoryError) : ActivateDeviceResult st now licenseId maxDevices deviceId
      machineFingerprint deviceLabel (.error e, st)
  | limitReached (existing : List Device) : ActivateDeviceResult st now licenseId maxDevices
      deviceId machineFingerprint deviceLabel (.ok (.limitReached existing), st)
  | refreshed {d : Device} (hd : d ∈ st.devices.rows) (hl : d.licenseId = licenseId)
      (hdev : d.deviceId = deviceId) (hactive : d.deactivatedAt = none) :
      ActivateDeviceResult st now licenseId maxDevices deviceId machineFingerprint deviceLabel
        (.ok .activated, st.refreshDevice now d.id machineFingerprint deviceLabel)
  | reactivated {d : Device} (hd : d ∈ st.devices.rows) (hl : d.licenseId = licenseId)
      (hdev : d.deviceId = deviceId) (hinactive : d.deactivatedAt ≠ none)
      (hfree : asI32 (st.countActiveByLicense licenseId) < maxDevices) :
      ActivateDeviceResult st now licenseId maxDevices deviceId machineFingerprint deviceLabel
        (.ok .activated, st.reactivateDevice now d.id machineFingerprint deviceLabel)
  | inserted {st' : Store}
      (hnew : ∀ d ∈ st.devices.rows, d.licenseId = licenseId → d.deviceId ≠ deviceId)
      (hfree : asI32 (st.countActiveByLicense licenseId) < maxDevices)
      (hst : st.insertDevice now machineFingerprint deviceLabel licenseId deviceId = .ok st') :
      ActivateDeviceResult st now licenseId maxDevices deviceId machineFingerprint deviceLabel
        (.ok .activated, st')

variable (st now licenseId maxDevices deviceId machineFingerprint deviceLabel)

theorem activateDevice_result :
    ActivateDeviceResult st now licenseId maxDevices deviceId machineFingerprint deviceLabel
      (activateDevice st now licenseId maxDevices deviceId machineFingerprint deviceLabel) := by
  have hactive : (st.devices.rows.filter (fun d => d.licenseId = licenseId)).filter
      (fun d => d.deactivatedAt = none) = st.activeDevices licenseId := by
    simp only [Store.activeDevices, List.filter_filter, Bool.decide_and]
    refine List.filter_congr fun d _ => Bool.and_comm _ _
  unfold activateDevice
  dsimp only
  rw [hactive, show (st.activeDevices licenseId).length = st.countActiveByLicense licenseId from rfl]
  split
  · exact .failed _
  · split
    · next d hfind =>
      have hmem := List.mem_of_find?_eq_some hfind
      have hdev := List.find?_some hfind
      simp only [List.mem_filter, decide_eq_true_eq] at hmem hdev
      split
      · next hactive => exact .refreshed hmem.1 hmem.2 hdev hactive
      · next hinactive =>
        split
        · exact .limitReached _
        · next hfree => exact .reactivated hmem.1 hmem.2 hdev hinactive (by omega)
    · next hfind =>
      split
      · exact .limitReached _
      · next hfree =>
        split
        · exact .failed _
        · next hst =>
          refine .inserted ?_ (by omega) hst
          simpa using hfind

theorem activateDevice_toDb :
    (activateDevice st now licenseId maxDevices deviceId machineFingerprint deviceLabel).2.toDb =
      st.toDb := by
  generalize hr :
    activateDevice st now licenseId maxDevices deviceId machineFingerprint deviceLabel = r
  have hresult := hr ▸ activateDevice_result st now licenseId maxDevices deviceId
    machineFingerprint deviceLabel
  cases hresult with
  | inserted hnew hfree hst => exact (insertDevice_eq_ok hst).1
  | _ => rfl

end

end LicenseServer
