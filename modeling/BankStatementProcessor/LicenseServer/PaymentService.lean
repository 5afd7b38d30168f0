import BankStatementProcessor.LicenseServer.Razorpay
import BankStatementProcessor.LicenseServer.WebhookEvent

/-!
# The payment service

Checkout, webhook processing and reconciliation. Each `resolve` function only reads; its
result is written later by `claimAndApply`.
-/

namespace LicenseServer

open Infra

inductive PaymentOperationError
  | invalidPlanType
  | providerError (msg : String)
  | repository (e : RepositoryError)
  deriving DecidableEq, Repr

def provider : String := "razorpay"

/-- What a call reads besides the database: the clock of the resolver, the draws of
`gen_range`, and the `now()` of the transaction. -/
structure CallEnv where
  now : Timestamp
  rng : ℕ → Fin 32
  txNow : Timestamp

/-! ## Prices and terms -/

def planAmountMinor : PlanType → ℤ
  | .trial => 0
  | .monthly => 49900
  | .yearly => 399900
  | .lifetime => 999900

/-- `Duration::days`, in microseconds. -/
def days (n : ℤ) : ℤ := n * 86400000000

def planDuration : PlanType → Option ℤ
  | .trial => some (days 14)
  | .monthly => some (days 30)
  | .yearly => some (days 365)
  | .lifetime => none

def charset : List Char := "ABCDEFGHJKLMNPQRSTUVWXYZ23456789".toList

/-- Four groups of four characters; the draw `4 * g + i` picks character `i` of group `g`. -/
def generateLicenseKey (rng : ℕ → Fin 32) : String :=
  let char := fun n => charset.getD (rng n) 'A'
  let group := fun g => (List.range 4).map (fun i => char (4 * g + i))
  String.ofList (List.intercalate ['-'] ((List.range 4).map group))

/-! ## Resolving an event -/

/-- The arms `process_webhook_event` distinguishes the event type by. -/
inductive EventKind
  | paymentCaptured
  | paymentLinkPaid
  | paymentFailed
  | subscriptionActive
  | subscriptionInactive
  | refund
  | disputeCreated
  | disputeClosed
  | other
  deriving DecidableEq, Repr

def eventKind (event : String) : EventKind :=
  if event = "payment.captured" then .paymentCaptured
  else if event = "payment_link.paid" then .paymentLinkPaid
  else if event = "payment.failed" then .paymentFailed
  else if event = "subscription.activated" ∨ event = "subscription.charged" then
    .subscriptionActive
  else if event = "subscription.cancelled" ∨ event = "subscription.halted" then
    .subscriptionInactive
  else if event = "refund.created" ∨ event = "refund.processed" then .refund
  else if event = "payment.dispute.created" then .disputeCreated
  else if event = "payment.dispute.closed" then .disputeClosed
  else .other

section Resolve

variable (db : Db) (env : CallEnv)

/-- An ambiguous reference is treated like an unknown one. -/
def findPaymentByProviderRefOrNone (providerRef : String) :
    Except PaymentOperationError (Option Payment) :=
  match db.findByProviderRef providerRef with
  | .ok payment => .ok payment
  | .error (.duplicateProviderReference _) => .ok none
  | .error e => .error (.repository e)

/-- The captured amount and currency, where reported, are those stored at checkout. -/
def captureMatches (payment : Payment) (capturedAmountMinor : Option ℤ)
    (capturedCurrency : Option String) : Bool :=
  capturedAmountMinor.all (· == payment.amountMinor) &&
    capturedCurrency.all (· == payment.currency)

def resolveActivation (providerRef : String) (gatewayPaymentId : Option String)
    (capturedAmountMinor : Option ℤ) (capturedCurrency : Option String) :
    Except PaymentOperationError WebhookMutation :=
  match findPaymentByProviderRefOrNone db providerRef with
  | .error e => .error e
  | .ok none => .ok .none
  | .ok (some payment) =>
    if !captureMatches payment capturedAmountMinor capturedCurrency then .ok .none
    -- the status as read here: nothing reads it again before the write
    else if payment.status = .refunded ∨ payment.status = .disputed then .ok .none
    else
      match db.subscriptions.get? payment.subscriptionId with
      | none => .error (.repository (.invalidData
          s!"payment references missing subscription {payment.subscriptionId}"))
      | some subscription =>
        let periodEnd := (planDuration subscription.planType).map (env.now + ·)
        let license := match db.findLatestBySubscription subscription.id with
          | some existing => LicenseMutation.extend existing.id
          | none => .insert (generateLicenseKey env.rng) 1 7
        .ok (.activateSubscriptionAndLicense payment.id subscription.id periodEnd license
          gatewayPaymentId)

/-- The three activation-shaped resolvers read the reference from their own entity and the
capture from the payment entity. -/
def resolveActivationOf (entityKey : String) (payload : RazorpayWebhookPayload) :
    Except PaymentOperationError WebhookMutation :=
  match extractEntityRef payload.payload entityKey with
  | none => .ok .none
  | some providerRef =>
    resolveActivation db env providerRef (extractEntityId payload.payload "payment")
      (extractEntityAmountMinor payload.payload "payment")
      (extractEntityCurrency payload.payload "payment")

def resolvePaymentCaptured := resolveActivationOf db env "payment"

def resolvePaymentLinkPaid := resolveActivationOf db env "payment_link"

def resolveSubscriptionActive := resolveActivationOf db env "subscription"

def resolvePaymentFailed (payload : RazorpayWebhookPayload) :
    Except PaymentOperationError WebhookMutation :=
  match extractEntityRef payload.payload "payment" with
  | none => .ok .none
  | some providerRef =>
    match findPaymentByProviderRefOrNone db providerRef with
    | .error e => .error e
    | .ok none => .ok .none
    | .ok (some payment) =>
      -- a failure that arrives after the capture is out of order
      if payment.status ≠ .pending then .ok .none
      else .ok (.markPaymentFailed payment.id)

def resolveSubscriptionInactive (payload : RazorpayWebhookPayload) :
    Except PaymentOperationError WebhookMutation :=
  match extractEntityRef payload.payload "subscription" with
  | none => .ok .none
  | some providerRef =>
    match findPaymentByProviderRefOrNone db providerRef with
    | .error e => .error e
    | .ok none => .ok .none
    | .ok (some payment) =>
      match db.subscriptions.get? payment.subscriptionId with
      | none => .ok .none
      | some subscription =>
        let (newStatus, licenseStatus) :=
          -- halted is temporary and keeps the licence, cancelled is terminal
          if payload.event = "subscription.halted" then
            (SubscriptionStatus.suspended, LicenseRecordStatus.suspended)
          else (.cancelled, .revoked)
        let license := (db.findLatestBySubscription subscription.id).map fun l =>
          { licenseId := l.id, expiresAt := l.expiresAt, status := licenseStatus }
        .ok (.updateSubscriptionStatus subscription.id newStatus subscription.currentPeriodEnd
          license)

def findPaymentAndLicense (gatewayPaymentId : String) :
    Option (Payment × Option AffectedLicense) :=
  (db.findByGatewayPaymentId gatewayPaymentId).map fun payment =>
    (payment, (db.findLatestBySubscription payment.subscriptionId).map fun l =>
      { licenseId := l.id, expiresAt := l.expiresAt })

/-- The mutation for the payment that the payload names by its gateway payment id, whatever
the status of that payment is. -/
def resolveReversal (mutation : ℕ → Option AffectedLicense → WebhookMutation)
    (payload : RazorpayWebhookPayload) : WebhookMutation :=
  match extractEntityId payload.payload "payment" with
  | none => .none
  | some gatewayPaymentId =>
    match findPaymentAndLicense db gatewayPaymentId with
    | none => .none
    | some (payment, license) => mutation payment.id license

def resolveRefund := resolveReversal db .refundPayment

def resolveDisputeCreated := resolveReversal db .markPaymentDisputed

/-- `Some("won")`, `Some("lost")`, or anything else. -/
def merchantWon (status : Option String) : Option Bool :=
  if status = some "won" then some true
  else if status = some "lost" then some false
  else none

def resolveDisputeClosed (payload : RazorpayWebhookPayload) : WebhookMutation :=
  match extractEntityId payload.payload "payment" with
  | none => .none
  | some gatewayPaymentId =>
    match merchantWon (extractDisputeStatus payload.payload) with
    | none => .none
    | some won =>
      match findPaymentAndLicense db gatewayPaymentId with
      | none => .none
      | some (payment, license) => .resolveDispute payment.id license won

/-- The `match` on the event type at the head of `process_webhook_event`. -/
def resolveEvent (payload : RazorpayWebhookPayload) :
    Except PaymentOperationError WebhookMutation :=
  match eventKind payload.event with
  | .paymentCaptured => resolvePaymentCaptured db env payload
  | .paymentLinkPaid => resolvePaymentLinkPaid db env payload
  | .paymentFailed => resolvePaymentFailed db payload
  | .subscriptionActive => resolveSubscriptionActive db env payload
  | .subscriptionInactive => resolveSubscriptionInactive db payload
  | .refund => .ok (resolveRefund db payload)
  | .disputeCreated => .ok (resolveDisputeCreated db payload)
  | .disputeClosed => .ok (resolveDisputeClosed db payload)
  | .other => .ok .none

end Resolve

/-! ## Processing an event -/

def newEvent (eventId : String) (payload : RazorpayWebhookPayload) : NewPaymentWebhookEvent :=
  { provider := provider, eventId, eventType := payload.event, payload := payload.payload }

/-- Resolves, then claims and applies. The second component is the database afterwards. -/
def processWebhookEvent (db : Db) (env : CallEnv) (eventId : String)
    (payload : RazorpayWebhookPayload) : Except PaymentOperationError Unit × Db :=
  match resolveEvent db env payload with
  | .error e => (.error e, db)
  | .ok mutation =>
    match claimAndApply db env.txNow (newEvent eventId payload) mutation with
    | .error e => (.error (.repository e), db)
    | .ok (_, db) => (.ok (), db)

/-! ## Checkout -/

structure CheckoutOutcome where
  checkoutUrl : String
  providerRef : String

/--
The three writes are not one transaction: when the gateway or the payment insert fails, the
subscription row stays. `gateway` is the answer of `create_checkout`.
-/
def createCheckoutSession (db : Db) (now : Timestamp) (userId : ℕ) (planTypeStr : String)
    (gateway : CreateCheckoutRequest → Except String CreateCheckoutResponse) :
    Except PaymentOperationError CheckoutOutcome × Db :=
  match PlanType.fromStr planTypeStr with
  | none => (.error .invalidPlanType, db)
  | some planType =>
    -- inserted before the gateway is asked, and not taken back
    let subscriptionId := db.subscriptions.nextId
    let db := db.insertSubscription now
      { userId, planType, status := .pendingPayment, startedAt := now, currentPeriodEnd := none,
        autoRenew := true }
    let amountMinor := planAmountMinor planType
    match gateway { planType, amountMinor, currency := "INR", receipt := s!"sub_{subscriptionId}" } with
    | .error msg => (.error (.providerError msg), db)
    | .ok checkout =>
      match db.insertPayment now
          { subscriptionId, amountMinor, currency := "INR", provider := provider,
            providerRef := some checkout.providerRef, status := .pending } with
      | .error e => (.error (.repository e), db)
      | .ok db =>
        (.ok { checkoutUrl := checkout.checkoutUrl, providerRef := checkout.providerRef }, db)

/-! ## Reconciliation -/

def mapRazorpayPaymentStatus (status : String) : Option PaymentStatus :=
  if status = "captured" then some .succeeded
  else if status = "failed" then some .failed
  else if status = "refunded" then some .refunded
  else none

/-- The first of `order_id` and `id` that a local row is found by. -/
def findLocalPayment (db : Db) (payment : RazorpayPayment) :
    Except RepositoryError (Option Payment) :=
  let byId := db.findByProviderRef payment.id
  match payment.orderId with
  | none => byId
  | some orderId =>
    match db.findByProviderRef orderId with
    | .error e => .error e
    | .ok (some p) => .ok (some p)
    | .ok none => byId

/-- The event type a mismatch is healed by; the other statuses never come from the list. -/
def healingEvent : PaymentStatus → Option String
  | .succeeded => some "payment.captured"
  | .failed => some "payment.failed"
  | .refunded => some "refund.created"
  | _ => none

/-- The synthetic payload: the payment's `id` and `order_id`, and nothing else. -/
def syntheticPayload (event : String) (payment : RazorpayPayment) : RazorpayWebhookPayload :=
  { event
    payload := .object [("payment", .object [("entity", .object
      [("id", .string payment.id),
       ("order_id", match payment.orderId with
        | some orderId => .string orderId
        | none => .null)])])] }

def reconcileOne (db : Db) (env : CallEnv) (payment : RazorpayPayment) :
    Except PaymentOperationError Bool × Db :=
  match mapRazorpayPaymentStatus payment.status with
  | none => (.ok false, db)
  | some razorpayStatus =>
    match findLocalPayment db payment with
    | .error e => (.error (.repository e), db)
    | .ok none => (.ok false, db)
    | .ok (some localPayment) =>
      -- already in sync, so a repeated pass does nothing
      if localPayment.status = razorpayStatus then (.ok false, db)
      else
        match healingEvent razorpayStatus with
        | none => (.ok false, db)
        | some event =>
          let eventId := s!"reconcile:{localPayment.id}:{payment.status}:{payment.id}"
          match processWebhookEvent db env eventId (syntheticPayload event payment) with
          | (.error e, db) => (.error e, db)
          | (.ok (), db) => (.ok true, db)

structure ReconciliationSummary where
  checked : ℕ
  healed : ℕ
  deriving DecidableEq, Repr

/-- One pass over the listed payments, each with what its own call reads. An error of one
payment does not end the pass. -/
def reconcileOnce (db : Db) (payments : List (RazorpayPayment × CallEnv)) :
    ReconciliationSummary × Db :=
  payments.foldl
    (fun (summary, db) (payment, env) =>
      match reconcileOne db env payment with
      | (.ok true, db) => ({ summary with healed := summary.healed + 1 }, db)
      | (_, db) => (summary, db))
    ({ checked := payments.length, healed := 0 }, db)

end LicenseServer
