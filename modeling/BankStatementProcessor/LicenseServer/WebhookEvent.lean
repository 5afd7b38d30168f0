import BankStatementProcessor.LicenseServer.Db

/-!
# The webhook ledger

`claimAndApply` is the one transaction a webhook writes: it claims `(provider, event_id)`
and applies a mutation that was resolved earlier, without reading again.
-/

namespace LicenseServer

inductive LicenseMutation
  /-- Reuse an existing licence row (a renewal). -/
  | extend (licenseId : ℕ)
  /-- Issue a fresh licence row. -/
  | insert (licenseKey : String) (maxDevices gracePeriodDays : ℕ)
  deriving DecidableEq, Repr

structure AffectedLicense where
  licenseId : ℕ
  expiresAt : Option Timestamp
  deriving DecidableEq, Repr

structure AffectedLicenseStatusChange where
  licenseId : ℕ
  expiresAt : Option Timestamp
  status : LicenseRecordStatus
  deriving DecidableEq, Repr

inductive WebhookMutation
  | activateSubscriptionAndLicense (paymentId subscriptionId : ℕ) (periodEnd : Option Timestamp)
      (license : LicenseMutation) (gatewayPaymentId : Option String)
  | markPaymentFailed (paymentId : ℕ)
  | updateSubscriptionStatus (subscriptionId : ℕ) (status : SubscriptionStatus)
      (currentPeriodEnd : Option Timestamp) (license : Option AffectedLicenseStatusChange)
  | refundPayment (paymentId : ℕ) (license : Option AffectedLicense)
  | markPaymentDisputed (paymentId : ℕ) (license : Option AffectedLicense)
  | resolveDispute (paymentId : ℕ) (license : Option AffectedLicense) (merchantWon : Bool)
  | none
  deriving DecidableEq, Repr

inductive ClaimOutcome
  | applied
  | alreadyProcessed
  deriving DecidableEq, Repr

/-- `UPDATE licenses` for the licence of a refund or dispute, when there is one. -/
def Db.setAffectedLicense (db : Db) (license : Option AffectedLicense)
    (status : LicenseRecordStatus) : Db :=
  match license with
  | some l => db.setLicense l.licenseId status l.expiresAt
  | .none => db

/-- The statements of the transaction that follow the claim. -/
def applyMutation (db : Db) (now : Timestamp) : WebhookMutation → Except RepositoryError Db
  | .none => .ok db
  | .markPaymentFailed paymentId => .ok (db.setPaymentStatus paymentId .failed)
  | .updateSubscriptionStatus subscriptionId status currentPeriodEnd license =>
    let db := db.setSubscription now subscriptionId status currentPeriodEnd
    match license with
    | some l => .ok (db.setLicense l.licenseId l.status l.expiresAt)
    | .none => .ok db
  | .activateSubscriptionAndLicense paymentId subscriptionId periodEnd license gatewayPaymentId =>
    match db.activatePayment paymentId gatewayPaymentId with
    | .error e => .error e
    | .ok db =>
      let db := db.setSubscription now subscriptionId .active periodEnd
      match license with
      | .extend licenseId => .ok (db.setLicense licenseId .active periodEnd)
      | .insert licenseKey maxDevices gracePeriodDays =>
        db.insertLicense now
          { subscriptionId, licenseKey, status := .active, expiresAt := periodEnd, maxDevices,
            gracePeriodDays }
  | .refundPayment paymentId license =>
    .ok ((db.setPaymentStatus paymentId .refunded).setAffectedLicense license .revoked)
  | .markPaymentDisputed paymentId license =>
    .ok ((db.setPaymentStatus paymentId .disputed).setAffectedLicense license .suspended)
  | .resolveDispute paymentId license merchantWon =>
    -- the subscription is not looked at, whatever it has become
    let paymentStatus := if merchantWon then PaymentStatus.succeeded else .refunded
    let licenseStatus := if merchantWon then LicenseRecordStatus.active else .revoked
    .ok ((db.setPaymentStatus paymentId paymentStatus).setAffectedLicense license licenseStatus)

/-- An activation updates the payment and the subscription, and extends a licence or issues one. -/
theorem applyMutation_activate_eq_ok {db db' : Db} {now : Timestamp} {paymentId subscriptionId : ℕ}
    {e : Option Timestamp} {license : LicenseMutation} {g : Option String}
    (h : applyMutation db now
      (.activateSubscriptionAndLicense paymentId subscriptionId e license g) = .ok db') :
    ∃ db₁, db.activatePayment paymentId g = .ok db₁ ∧
      ((∃ licenseId, license = .extend licenseId ∧
          db' = (db₁.setSubscription now subscriptionId .active e).setLicense licenseId .active e) ∨
        ∃ licenseKey maxDevices gracePeriodDays,
          license = .insert licenseKey maxDevices gracePeriodDays ∧
          (db₁.setSubscription now subscriptionId .active e).insertLicense now
            { subscriptionId, licenseKey, status := .active, expiresAt := e, maxDevices,
              gracePeriodDays } = .ok db') := by
  simp only [applyMutation] at h
  split at h
  · cases h
  · next db₁ hact =>
    refine ⟨db₁, hact, ?_⟩
    cases license with
    | extend licenseId =>
      cases h
      exact Or.inl ⟨licenseId, rfl, rfl⟩
    | insert licenseKey maxDevices gracePeriodDays =>
      exact Or.inr ⟨licenseKey, maxDevices, gracePeriodDays, rfl, h⟩

/-- On an error the transaction is rolled back, the claim included, and no database results. -/
def claimAndApply (db : Db) (now : Timestamp) (newEvent : NewPaymentWebhookEvent)
    (mutation : WebhookMutation) : Except RepositoryError (ClaimOutcome × Db) :=
  match db.claim now newEvent with
  | .none => .ok (.alreadyProcessed, db)
  | some claimed =>
    match applyMutation claimed now mutation with
    | .error e => .error e
    | .ok db => .ok (.applied, db)

end LicenseServer
