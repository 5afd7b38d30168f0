import BankStatementProcessor.Infra.Json

/-!
# Domain types of the licence server

`subscriptions`, `payments`, `licenses` and `payment_webhook_events`. A status column holds a
text that a `CHECK` constraint limits to the listed values, so a row holds the enumeration.
-/

namespace LicenseServer

open Infra

/-- `DateTime<Utc>` in microseconds since the epoch, the resolution of `timestamptz`. -/
abbrev Timestamp := ℤ

inductive PlanType
  | trial
  | monthly
  | yearly
  | lifetime
  deriving DecidableEq, Repr

def PlanType.fromStr (s : String) : Option PlanType :=
  if s = "trial" then some .trial
  else if s = "monthly" then some .monthly
  else if s = "yearly" then some .yearly
  else if s = "lifetime" then some .lifetime
  else none

inductive SubscriptionStatus
  | active
  | expired
  | cancelled
  | suspended
  | pendingPayment
  deriving DecidableEq, Repr

inductive LicenseRecordStatus
  | active
  | revoked
  | expired
  | suspended
  deriving DecidableEq, Repr

inductive PaymentStatus
  | pending
  | succeeded
  | failed
  | refunded
  | disputed
  deriving DecidableEq, Repr

structure Subscription where
  id : ℕ
  userId : ℕ
  planType : PlanType
  status : SubscriptionStatus
  startedAt : Timestamp
  /-- `none` for `lifetime` plans. -/
  currentPeriodEnd : Option Timestamp
  autoRenew : Bool
  createdAt : Timestamp
  updatedAt : Timestamp
  deriving DecidableEq, Repr

structure NewSubscription where
  userId : ℕ
  planType : PlanType
  status : SubscriptionStatus
  startedAt : Timestamp
  currentPeriodEnd : Option Timestamp
  autoRenew : Bool

structure Payment where
  id : ℕ
  subscriptionId : ℕ
  /-- Smallest currency unit (paise). -/
  amountMinor : ℤ
  currency : String
  provider : String
  /-- The checkout-time reference a webhook event is correlated by. -/
  providerRef : Option String
  /-- The gateway's payment id, the only reference of refund and dispute events. -/
  gatewayPaymentId : Option String
  status : PaymentStatus
  createdAt : Timestamp
  deriving DecidableEq, Repr

structure NewPayment where
  subscriptionId : ℕ
  amountMinor : ℤ
  currency : String
  provider : String
  providerRef : Option String
  status : PaymentStatus

structure License where
  id : ℕ
  subscriptionId : ℕ
  licenseKey : String
  status : LicenseRecordStatus
  expiresAt : Option Timestamp
  maxDevices : ℕ
  gracePeriodDays : ℕ
  issuedAt : Timestamp
  deriving DecidableEq, Repr

structure NewLicense where
  subscriptionId : ℕ
  licenseKey : String
  status : LicenseRecordStatus
  expiresAt : Option Timestamp
  maxDevices : ℕ
  gracePeriodDays : ℕ

structure PaymentWebhookEvent where
  id : ℕ
  provider : String
  eventId : String
  eventType : String
  payload : JsonValue
  processedAt : Timestamp

structure NewPaymentWebhookEvent where
  provider : String
  eventId : String
  eventType : String
  payload : JsonValue

/-- A licence that has not been revoked. -/
def License.Live (l : License) : Prop := l.status ≠ .revoked

instance (l : License) : Decidable l.Live :=
  inferInstanceAs (Decidable (l.status ≠ .revoked))

end LicenseServer
