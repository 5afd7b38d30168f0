import BankStatementProcessor.Infra.Table
import BankStatementProcessor.LicenseServer.Domain

/-!
# The licence database

The tables with their constraints, the `SELECT`s of the repositories and the statements a
webhook transaction is made of. The primary keys, unique indexes and foreign keys of the
schema are fields of `Db`, so a statement that would break one has to refuse.
-/

namespace LicenseServer

open Infra

inductive RepositoryError
  /-- A failed statement; the text names the violated constraint. -/
  | database (constraint : String)
  | invalidData (msg : String)
  | duplicateProviderReference (providerRef : String)
  deriving DecidableEq, Repr

structure Db where
  subscriptions : Table Subscription Subscription.id
  payments : Table Payment Payment.id
  licenses : Table License License.id
  paymentWebhookEvents : Table PaymentWebhookEvent PaymentWebhookEvent.id
  /-- `idx_payments_provider_ref_unique` -/
  providerRef_unique : UniqueOn Payment.providerRef payments.rows
  /-- `idx_payments_gateway_payment_id_unique` -/
  gatewayPaymentId_unique : UniqueOn Payment.gatewayPaymentId payments.rows
  licenseKey_unique : UniqueOn (fun l => some l.licenseKey) licenses.rows
  event_unique : UniqueOn (fun e => some (e.provider, e.eventId)) paymentWebhookEvents.rows
  payment_subscription : ∀ p ∈ payments.rows, ∃ s ∈ subscriptions.rows, s.id = p.subscriptionId
  license_subscription : ∀ l ∈ licenses.rows, ∃ s ∈ subscriptions.rows, s.id = l.subscriptionId

namespace Db

def empty : Db where
  subscriptions := .empty
  payments := .empty
  licenses := .empty
  paymentWebhookEvents := .empty
  providerRef_unique := .nil
  gatewayPaymentId_unique := .nil
  licenseKey_unique := .nil
  event_unique := .nil
  payment_subscription := by simp [Table.empty]
  license_subscription := by simp [Table.empty]

/-! ## Queries -/

/-- `single_payment_or_duplicate_error` -/
def singlePaymentOrDuplicateError (rows : List Payment) (providerRef : String) :
    Except RepositoryError (Option Payment) :=
  match rows with
  | [] => .ok none
  | [p] => .ok (some p)
  | _ => .error (.duplicateProviderReference providerRef)

def findByProviderRef (db : Db) (providerRef : String) :
    Except RepositoryError (Option Payment) :=
  singlePaymentOrDuplicateError
    (db.payments.rows.filter (fun p => p.providerRef = some providerRef)) providerRef

/-- `ORDER BY created_at DESC LIMIT 1`. -/
def findByGatewayPaymentId (db : Db) (gatewayPaymentId : String) : Option Payment :=
  latestBy Payment.createdAt
    (db.payments.rows.filter (fun p => p.gatewayPaymentId = some gatewayPaymentId))

/-- The most recently issued licence of the subscription that is not revoked. -/
def findLatestBySubscription (db : Db) (subscriptionId : ℕ) : Option License :=
  latestBy License.issuedAt
    (db.licenses.rows.filter (fun l => l.subscriptionId = subscriptionId ∧ l.status ≠ .revoked))

section

variable {db : Db}

theorem findByProviderRef_of_mem {p : Payment} {ref : String} (hp : p ∈ db.payments.rows)
    (href : p.providerRef = some ref) : db.findByProviderRef ref = .ok (some p) := by
  unfold findByProviderRef
  rw [db.providerRef_unique.filter_eq_singleton hp href]
  rfl

theorem findByProviderRef_of_forall {ref : String}
    (h : ∀ p ∈ db.payments.rows, p.providerRef ≠ some ref) : db.findByProviderRef ref = .ok none := by
  have hnil : db.payments.rows.filter (fun p => p.providerRef = some ref) = [] := by
    simpa [List.filter_eq_nil_iff] using h
  unfold findByProviderRef
  rw [hnil]
  rfl

/-- The unique index makes a reference that two rows share impossible. -/
theorem findByProviderRef_cases (db : Db) (ref : String) :
    (∃ p ∈ db.payments.rows, p.providerRef = some ref ∧ db.findByProviderRef ref = .ok (some p)) ∨
      (∀ p ∈ db.payments.rows, p.providerRef ≠ some ref) ∧ db.findByProviderRef ref = .ok none := by
  by_cases h : ∃ p ∈ db.payments.rows, p.providerRef = some ref
  · obtain ⟨p, hp, href⟩ := h
    exact Or.inl ⟨p, hp, href, findByProviderRef_of_mem hp href⟩
  · push Not at h
    exact Or.inr ⟨h, findByProviderRef_of_forall h⟩

theorem findByProviderRef_eq_some {p : Payment} {ref : String} :
    db.findByProviderRef ref = .ok (some p) ↔ p ∈ db.payments.rows ∧ p.providerRef = some ref := by
  constructor
  · intro h
    rcases db.findByProviderRef_cases ref with ⟨q, hq, href, hfind⟩ | ⟨-, hfind⟩
    · rw [hfind] at h
      cases h
      exact ⟨hq, href⟩
    · rw [hfind] at h
      cases h
  · rintro ⟨hp, href⟩
    exact findByProviderRef_of_mem hp href

theorem findByGatewayPaymentId_of_mem {p : Payment} {g : String} (hp : p ∈ db.payments.rows)
    (hg : p.gatewayPaymentId = some g) : db.findByGatewayPaymentId g = some p := by
  unfold findByGatewayPaymentId
  rw [db.gatewayPaymentId_unique.filter_eq_singleton hp hg]
  rfl

theorem findByGatewayPaymentId_eq_some {p : Payment} {g : String} :
    db.findByGatewayPaymentId g = some p ↔
      p ∈ db.payments.rows ∧ p.gatewayPaymentId = some g := by
  constructor
  · intro h
    have := mem_of_latestBy h
    simpa using this
  · rintro ⟨hp, hg⟩
    exact findByGatewayPaymentId_of_mem hp hg

theorem findLatestBySubscription_eq_none {sid : ℕ} :
    db.findLatestBySubscription sid = none ↔
      ∀ l ∈ db.licenses.rows, l.subscriptionId = sid → ¬ l.Live := by
  simp [findLatestBySubscription, List.filter_eq_nil_iff, License.Live]

theorem mem_of_findLatestBySubscription {sid : ℕ} {l : License}
    (h : db.findLatestBySubscription sid = some l) :
    l ∈ db.licenses.rows ∧ l.subscriptionId = sid ∧ l.Live := by
  have := mem_of_latestBy h
  simpa [License.Live] using this

end

/-! ## Statements -/

section Statements

variable (db : Db)

/-- `SET status = $2` -/
def setStatus (status : PaymentStatus) (p : Payment) : Payment := { p with status := status }

@[simp] theorem setStatus_id (status : PaymentStatus) (p : Payment) :
    (setStatus status p).id = p.id := rfl

@[simp] theorem setStatus_subscriptionId (status : PaymentStatus) (p : Payment) :
    (setStatus status p).subscriptionId = p.subscriptionId := rfl

/-- `UPDATE payments SET status = $2 WHERE id = $1` -/
def setPaymentStatus (id : ℕ) (status : PaymentStatus) : Db :=
  { db with
    payments := db.payments.modify id (setStatus status) (setStatus_id status)
    providerRef_unique := db.providerRef_unique.modify (fun _ => rfl)
    gatewayPaymentId_unique := db.gatewayPaymentId_unique.modify (fun _ => rfl)
    payment_subscription := by
      intro p hp
      obtain ⟨p₀, hp₀, rfl⟩ := Table.mem_modify.mp hp
      have := db.payment_subscription p₀ hp₀
      split <;> exact this }

/-- Another payment row already carries this gateway payment id. -/
def GatewayPaymentIdTaken (id : ℕ) (gatewayPaymentId : Option String) : Prop :=
  gatewayPaymentId ≠ none ∧ (∃ p ∈ db.payments.rows, p.id = id) ∧
    ∃ q ∈ db.payments.rows, q.id ≠ id ∧ q.gatewayPaymentId = gatewayPaymentId

instance (id : ℕ) (gatewayPaymentId : Option String) :
    Decidable (db.GatewayPaymentIdTaken id gatewayPaymentId) := by
  unfold GatewayPaymentIdTaken
  infer_instance

/-- `COALESCE($3, gateway_payment_id)` with the new status. -/
def activated (gatewayPaymentId : Option String) (p : Payment) : Payment :=
  { p with
    status := .succeeded
    gatewayPaymentId := gatewayPaymentId <|> p.gatewayPaymentId }

@[simp] theorem activated_id (gatewayPaymentId : Option String) (p : Payment) :
    (activated gatewayPaymentId p).id = p.id := rfl

@[simp] theorem activated_subscriptionId (gatewayPaymentId : Option String) (p : Payment) :
    (activated gatewayPaymentId p).subscriptionId = p.subscriptionId := rfl

/--
`UPDATE payments SET status = $2, gateway_payment_id = COALESCE($3, gateway_payment_id)
WHERE id = $1`
-/
def activatePayment (id : ℕ) (gatewayPaymentId : Option String) : Except RepositoryError Db :=
  if htaken : db.GatewayPaymentIdTaken id gatewayPaymentId then
    .error (.database "idx_payments_gateway_payment_id_unique")
  else
    .ok { db with
      payments := db.payments.modify id (activated gatewayPaymentId) (activated_id gatewayPaymentId)
      providerRef_unique := db.providerRef_unique.modify (fun _ => rfl)
      gatewayPaymentId_unique := by
        cases gatewayPaymentId with
        -- `COALESCE` keeps the column
        | none => exact db.gatewayPaymentId_unique.modify (fun _ => rfl)
        | some g =>
          refine db.gatewayPaymentId_unique.modify_of_free ?_
          intro p hp q hq hpid hqid b hb hqb
          cases hb
          exact htaken ⟨by simp, ⟨p, hp, hpid⟩, q, hq, hqid, hqb⟩
      payment_subscription := by
        intro p hp
        obtain ⟨p₀, hp₀, rfl⟩ := Table.mem_modify.mp hp
        have := db.payment_subscription p₀ hp₀
        split <;> exact this }

/-- `SET status = $2, current_period_end = $3, updated_at = now()` -/
def setStatusAndPeriod (now : Timestamp) (status : SubscriptionStatus)
    (currentPeriodEnd : Option Timestamp) (s : Subscription) : Subscription :=
  { s with status := status, currentPeriodEnd := currentPeriodEnd, updatedAt := now }

@[simp] theorem setStatusAndPeriod_id (now : Timestamp) (status : SubscriptionStatus)
    (currentPeriodEnd : Option Timestamp) (s : Subscription) :
    (setStatusAndPeriod now status currentPeriodEnd s).id = s.id := rfl

/--
`UPDATE subscriptions SET status = $2, current_period_end = $3, updated_at = now()
WHERE id = $1`
-/
def setSubscription (now : Timestamp) (id : ℕ) (status : SubscriptionStatus)
    (currentPeriodEnd : Option Timestamp) : Db :=
  { db with
    subscriptions := db.subscriptions.modify id (setStatusAndPeriod now status currentPeriodEnd)
      (setStatusAndPeriod_id now status currentPeriodEnd)
    payment_subscription := fun p hp => Table.exists_key_modify (db.payment_subscription p hp)
    license_subscription := fun l hl => Table.exists_key_modify (db.license_subscription l hl) }

/-- `SET status = $2, expires_at = $3` -/
def setStatusAndExpiry (status : LicenseRecordStatus) (expiresAt : Option Timestamp)
    (l : License) : License :=
  { l with status := status, expiresAt := expiresAt }

@[simp] theorem setStatusAndExpiry_id (status : LicenseRecordStatus)
    (expiresAt : Option Timestamp) (l : License) :
    (setStatusAndExpiry status expiresAt l).id = l.id := rfl

@[simp] theorem setStatusAndExpiry_subscriptionId (status : LicenseRecordStatus)
    (expiresAt : Option Timestamp) (l : License) :
    (setStatusAndExpiry status expiresAt l).subscriptionId = l.subscriptionId := rfl

/-- `UPDATE licenses SET status = $2, expires_at = $3 WHERE id = $1` -/
def setLicense (id : ℕ) (status : LicenseRecordStatus) (expiresAt : Option Timestamp) : Db :=
  { db with
    licenses := db.licenses.modify id (setStatusAndExpiry status expiresAt)
      (setStatusAndExpiry_id status expiresAt)
    licenseKey_unique := db.licenseKey_unique.modify (fun _ => rfl)
    license_subscription := by
      intro l hl
      obtain ⟨l₀, hl₀, rfl⟩ := Table.mem_modify.mp hl
      have := db.license_subscription l₀ hl₀
      split <;> exact this }

/-- The row an `INSERT INTO licenses` with default `issued_at` stores. -/
def newLicense (now : Timestamp) (new : NewLicense) (id : ℕ) : License :=
  { id := id
    subscriptionId := new.subscriptionId
    licenseKey := new.licenseKey
    status := new.status
    expiresAt := new.expiresAt
    maxDevices := new.maxDevices
    gracePeriodDays := new.gracePeriodDays
    issuedAt := now }

theorem newLicense_id (now : Timestamp) (new : NewLicense) (id : ℕ) :
    (newLicense now new id).id = id := rfl

def insertLicense (now : Timestamp) (new : NewLicense) : Except RepositoryError Db :=
  if hfk : ∃ s ∈ db.subscriptions.rows, s.id = new.subscriptionId then
    if hkey : ∀ l ∈ db.licenses.rows, l.licenseKey ≠ new.licenseKey then
      .ok { db with
        licenses := db.licenses.insert (newLicense now new) (newLicense_id now new)
        licenseKey_unique := by
          refine db.licenseKey_unique.insert ?_
          intro l hl b hb hlb
          cases hb
          exact hkey l hl (Option.some.inj hlb)
        license_subscription := by
          intro l hl
          rcases Table.mem_insert.mp hl with h | rfl
          · exact db.license_subscription l h
          · exact hfk }
    else .error (.database "licenses_license_key_key")
  else .error (.database "licenses_subscription_id_fkey")

def newSubscription (now : Timestamp) (new : NewSubscription) (id : ℕ) : Subscription :=
  { id := id
    userId := new.userId
    planType := new.planType
    status := new.status
    startedAt := new.startedAt
    currentPeriodEnd := new.currentPeriodEnd
    autoRenew := new.autoRenew
    createdAt := now
    updatedAt := now }

theorem newSubscription_id (now : Timestamp) (new : NewSubscription) (id : ℕ) :
    (newSubscription now new id).id = id := rfl

def insertSubscription (now : Timestamp) (new : NewSubscription) : Db :=
  { db with
    subscriptions := db.subscriptions.insert (newSubscription now new)
      (newSubscription_id now new)
    payment_subscription := by
      intro p hp
      obtain ⟨s, hs, hid⟩ := db.payment_subscription p hp
      exact ⟨s, Table.mem_insert_of_mem hs, hid⟩
    license_subscription := by
      intro l hl
      obtain ⟨s, hs, hid⟩ := db.license_subscription l hl
      exact ⟨s, Table.mem_insert_of_mem hs, hid⟩ }

theorem mem_insertSubscription {now : Timestamp} {new : NewSubscription} {s : Subscription} :
    s ∈ (db.insertSubscription now new).subscriptions.rows ↔
      s ∈ db.subscriptions.rows ∨ s = newSubscription now new db.subscriptions.nextId := by
  simp only [insertSubscription, Table.mem_insert]

/-- The row an `INSERT INTO payments` stores; `gateway_payment_id` starts `NULL`. -/
def newPayment (now : Timestamp) (new : NewPayment) (id : ℕ) : Payment :=
  { id := id
    subscriptionId := new.subscriptionId
    amountMinor := new.amountMinor
    currency := new.currency
    provider := new.provider
    providerRef := new.providerRef
    gatewayPaymentId := none
    status := new.status
    createdAt := now }

theorem newPayment_id (now : Timestamp) (new : NewPayment) (id : ℕ) :
    (newPayment now new id).id = id := rfl

def insertPayment (now : Timestamp) (new : NewPayment) : Except RepositoryError Db :=
  if hfk : ∃ s ∈ db.subscriptions.rows, s.id = new.subscriptionId then
    if href : ∀ p ∈ db.payments.rows, new.providerRef = none ∨ p.providerRef ≠ new.providerRef then
      .ok { db with
        payments := db.payments.insert (newPayment now new) (newPayment_id now new)
        providerRef_unique := by
          refine db.providerRef_unique.insert ?_
          intro p hp b hb hpb
          rcases href p hp with h | h
          · rw [show (newPayment now new db.payments.nextId).providerRef = new.providerRef from rfl,
              h] at hb
            cases hb
          · exact h (hpb.trans hb.symm)
        gatewayPaymentId_unique := by
          refine db.gatewayPaymentId_unique.insert ?_
          intro p hp b hb
          cases hb
        payment_subscription := by
          intro p hp
          rcases Table.mem_insert.mp hp with h | rfl
          · exact db.payment_subscription p h
          · exact hfk }
    else .error (.database "idx_payments_provider_ref_unique")
  else .error (.database "payments_subscription_id_fkey")

/-- The ledger already has a row for this provider and event id. -/
def EventProcessed (provider eventId : String) : Prop :=
  ∃ e ∈ db.paymentWebhookEvents.rows, e.provider = provider ∧ e.eventId = eventId

instance (provider eventId : String) : Decidable (db.EventProcessed provider eventId) := by
  unfold EventProcessed
  infer_instance

/--
`INSERT INTO payment_webhook_events ... ON CONFLICT (provider, event_id) DO NOTHING`; `none`
when no row was inserted.
-/
def claim (now : Timestamp) (new : NewPaymentWebhookEvent) : Option Db :=
  if h : db.EventProcessed new.provider new.eventId then none
  else some { db with
    paymentWebhookEvents := db.paymentWebhookEvents.insert
      (fun id =>
        { id := id
          provider := new.provider
          eventId := new.eventId
          eventType := new.eventType
          payload := new.payload
          processedAt := now })
      (fun _ => rfl)
    event_unique := by
      refine db.event_unique.insert ?_
      intro e he b hb heb
      cases hb
      simp only [Option.some.injEq, Prod.mk.injEq] at heb
      exact h ⟨e, he, heb.1, heb.2⟩ }

/-! Each `UPDATE` writes one table. -/

section

variable (now : Timestamp) (id : ℕ) (paymentStatus : PaymentStatus)
  (subscriptionStatus : SubscriptionStatus) (licenseStatus : LicenseRecordStatus)
  (e : Option Timestamp)

@[simp] theorem setPaymentStatus_payments : (db.setPaymentStatus id paymentStatus).payments =
    db.payments.modify id (setStatus paymentStatus) (setStatus_id paymentStatus) := rfl

@[simp] theorem setSubscription_subscriptions :
    (db.setSubscription now id subscriptionStatus e).subscriptions =
      db.subscriptions.modify id (setStatusAndPeriod now subscriptionStatus e)
        (setStatusAndPeriod_id now subscriptionStatus e) := rfl

@[simp] theorem setSubscription_licenses :
    (db.setSubscription now id subscriptionStatus e).licenses = db.licenses := rfl

@[simp] theorem setLicense_licenses : (db.setLicense id licenseStatus e).licenses =
    db.licenses.modify id (setStatusAndExpiry licenseStatus e)
      (setStatusAndExpiry_id licenseStatus e) := rfl

@[simp] theorem setLicense_subscriptions :
    (db.setLicense id licenseStatus e).subscriptions = db.subscriptions := rfl

end

end Statements

end Db

end LicenseServer
