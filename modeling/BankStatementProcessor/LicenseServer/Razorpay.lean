import BankStatementProcessor.LicenseServer.Domain

/-!
# What the gateway sends

The webhook payload, the fields the service reads out of it, and the payment record of the
gateway's list that reconciliation reads.
-/

namespace LicenseServer

open Infra

structure RazorpayWebhookPayload where
  event : String
  payload : JsonValue

/-- `payload.<entity_key>.entity` -/
def entity (payload : JsonValue) (entityKey : String) : Option JsonValue :=
  (payload.get entityKey).bind (·.get "entity")

/-- `payload.<entity_key>.entity.order_id`, or else `.id`. -/
def extractEntityRef (payload : JsonValue) (entityKey : String) : Option String :=
  (entity payload entityKey).bind fun e =>
    ((e.get "order_id").bind JsonValue.asStr).or ((e.get "id").bind JsonValue.asStr)

/-- `payload.<entity_key>.entity.id` -/
def extractEntityId (payload : JsonValue) (entityKey : String) : Option String :=
  (entity payload entityKey).bind fun e => (e.get "id").bind JsonValue.asStr

/-- `payload.<entity_key>.entity.amount` -/
def extractEntityAmountMinor (payload : JsonValue) (entityKey : String) : Option ℤ :=
  (entity payload entityKey).bind fun e => (e.get "amount").bind JsonValue.asI64

/-- `payload.<entity_key>.entity.currency` -/
def extractEntityCurrency (payload : JsonValue) (entityKey : String) : Option String :=
  (entity payload entityKey).bind fun e => (e.get "currency").bind JsonValue.asStr

/-- `payload.dispute.entity.status` -/
def extractDisputeStatus (payload : JsonValue) : Option String :=
  (entity payload "dispute").bind fun e => (e.get "status").bind JsonValue.asStr

/-- A payment as the gateway's payments list reports it. -/
structure RazorpayPayment where
  id : String
  orderId : Option String
  status : String
  deriving DecidableEq, Repr

structure CreateCheckoutRequest where
  planType : PlanType
  amountMinor : ℤ
  currency : String
  receipt : String

structure CreateCheckoutResponse where
  checkoutUrl : String
  providerRef : String

end LicenseServer
