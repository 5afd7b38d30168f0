import BankStatementProcessor.Infra.Program
import BankStatementProcessor.LicenseServer.Store

/-!
# The licence service

Activation, validation, heartbeat and deactivation, as programs whose actions are the
statements they send to the database one by one. The audit log is left out: it is written on
the side, and nothing reads it back.
-/

namespace LicenseServer

open Infra

inductive LicenseOperationError
  | licenseNotFound
  | licenseRevoked
  | licenseExpired
  | deviceNotActivated
  | deviceLimitReached (existing : List Device)
  | deviceMismatch
  | repository (e : RepositoryError)
  deriving DecidableEq, Repr

structure ActivationOutcome where
  license : License
  customerId : ℕ
  planType : PlanType
  deriving DecidableEq, Repr

structure ValidationOutcome where
  status : LicenseRecordStatus
  expiresAt : Option Timestamp
  gracePeriodDays : ℕ
  fingerprintMatched : Bool
  deriving DecidableEq, Repr

structure HeartbeatOutcome where
  status : LicenseRecordStatus
  deriving DecidableEq, Repr

structure DeactivationOutcome where
  devicesActive : ℕ
  deriving DecidableEq, Repr

structure LicenseSummaryOutcome where
  licenseId : ℕ
  status : LicenseRecordStatus
  devicesActive : ℕ
  maxDevices : ℕ
  licenseKey : String
  deriving DecidableEq, Repr

structure SubscriptionSummaryOutcome where
  subscription : Subscription
  licenses : List LicenseSummaryOutcome
  deriving DecidableEq, Repr

/-- The status to report: a licence stored as active is expired once its expiry has passed. -/
def effectiveStatus (license : License) (now : Timestamp) : LicenseRecordStatus :=
  if license.status = .active ∧ license.expiresAt.any (· ≤ now) then .expired
  else license.status

/-- A call of the service. -/
abbrev LicenseM := ExceptT LicenseOperationError (Prog Store CallEnv)

namespace LicenseM

def query {α : Type} (f : Store → α) : LicenseM α := ExceptT.lift (Prog.query fun _ st => f st)

/-- `Utc::now()` -/
def clock : LicenseM Timestamp := ExceptT.lift (Prog.query fun env _ => env.now)

/-- A statement that writes, with the `now()` of its transaction. -/
def execute (f : Timestamp → Store → Store) : LicenseM Unit :=
  ExceptT.lift (Prog.atomically fun env st => ((), f env.txNow st))

/-- `?` on the result of a repository. -/
def ofRepository {α : Type} : Except RepositoryError α → LicenseM α
  | .ok a => pure a
  | .error e => throw (.repository e)

/-- A transaction that can fail. -/
def transaction {α : Type} (f : Timestamp → Store → Except RepositoryError α × Store) :
    LicenseM α :=
  ExceptT.lift (Prog.atomically fun env st => f env.txNow st) >>= ofRepository

theorem transaction_bind {α β : Type} (f : Timestamp → Store → Except RepositoryError α × Store)
    (g : α → LicenseM β) : transaction f >>= g =
      ExceptT.lift (Prog.atomically fun env st => f env.txNow st) >>= fun r =>
        ofRepository r >>= g := rfl

end LicenseM

open LicenseM

namespace LicenseService

/-- The part of `activate` that follows the check of the licence's status. -/
def activateLicense (license : License) (deviceId : Uuid)
    (machineFingerprint deviceLabel : String) : LicenseM ActivationOutcome := do
  let outcome ← transaction fun txNow st =>
    activateDevice st txNow license.id license.maxDevices deviceId machineFingerprint deviceLabel
  match outcome with
  | .limitReached existing => throw (.deviceLimitReached existing)
  | .activated =>
    let some subscription ← query (·.findSubscriptionById license.subscriptionId)
      | throw (.repository (.invalidData
          s!"license {license.id} references missing subscription {license.subscriptionId}"))
    pure { license, customerId := subscription.userId, planType := subscription.planType }

def activate (licenseKey : String) (deviceId : Uuid) (machineFingerprint deviceLabel : String) :
    LicenseM ActivationOutcome := do
  let some license ← query (·.findLicenseByKey licenseKey) | throw .licenseNotFound
  let now ← clock
  match effectiveStatus license now with
  | .revoked => throw .licenseRevoked
  | .expired => throw .licenseExpired
  -- a suspended licence may still be activated
  | .active | .suspended => activateLicense license deviceId machineFingerprint deviceLabel

/-- A call without a session owns everything. -/
def ownsSubscription (subscriptionId : ℕ) (requestingUserId : Option ℤ) : LicenseM Bool :=
  match requestingUserId with
  | none => pure true
  | some userId => do
    let owner ← query fun st => (st.findSubscriptionById subscriptionId).map Subscription.userId
    pure (owner.map Nat.cast = some userId)

/-- A licence that is someone else's is masked like a device that was never activated. -/
def findActiveDevice (licenseId : ℤ) (deviceId : Uuid) (requestingUserId : Option ℤ) :
    LicenseM (License × Device) := do
  let some license ← query (·.findLicenseById licenseId) | throw .deviceNotActivated
  if !(← ownsSubscription license.subscriptionId requestingUserId) then
    throw .deviceNotActivated
  let device ← query (·.findByLicenseAndDeviceId license.id deviceId)
  let some device := device.filter (·.deactivatedAt = none) | throw .deviceNotActivated
  pure (license, device)

def validate (licenseId : ℤ) (deviceId : Uuid) (machineFingerprint : String)
    (requestingUserId : Option ℤ) : LicenseM ValidationOutcome := do
  let (license, device) ← findActiveDevice licenseId deviceId requestingUserId
  -- before the fingerprint is looked at
  execute fun txNow st => st.touchLastSeen txNow device.id
  let now ← clock
  let status := effectiveStatus license now
  if device.machineFingerprint ≠ machineFingerprint then throw .deviceMismatch
  pure { status, expiresAt := license.expiresAt, gracePeriodDays := license.gracePeriodDays,
         fingerprintMatched := true }

def heartbeat (licenseId : ℤ) (deviceId : Uuid) (requestingUserId : Option ℤ) :
    LicenseM HeartbeatOutcome := do
  let (license, device) ← findActiveDevice licenseId deviceId requestingUserId
  execute fun txNow st => st.touchLastSeen txNow device.id
  let now ← clock
  pure { status := effectiveStatus license now }

def deactivate (licenseId : ℤ) (deviceId : Uuid) (machineFingerprint : String)
    (requestingUserId : Option ℤ) : LicenseM DeactivationOutcome := do
  let some license ← query (·.findLicenseById licenseId) | throw .licenseNotFound
  if !(← ownsSubscription license.subscriptionId requestingUserId) then
    throw .licenseNotFound
  let device ← query (·.findByLicenseAndDeviceId license.id deviceId)
  let some device := device.filter (·.deactivatedAt = none) | throw .deviceNotActivated
  if device.machineFingerprint ≠ machineFingerprint then throw .deviceMismatch
  execute fun txNow st => st.deactivate txNow device.id
  let devicesActive ← query (·.countActiveByLicense license.id)
  pure { devicesActive }

/-- Reports the status as it is stored. -/
def subscriptionSummary (userId : ℤ) : LicenseM SubscriptionSummaryOutcome := do
  let some subscription ← query (·.findLatestByUser userId)
    | throw (.repository (.invalidData s!"user {userId} has no subscription"))
  let license ← query fun st => st.findLatestBySubscription subscription.id
  match license with
  | none => pure { subscription, licenses := [] }
  | some license =>
    let devicesActive ← query (·.countActiveByLicense license.id)
    pure { subscription,
           licenses := [{ licenseId := license.id, status := license.status, devicesActive,
                          maxDevices := license.maxDevices, licenseKey := license.licenseKey }] }

end LicenseService

/-! ## Calls -/

/-- The calls of the licence endpoints. -/
inductive LicenseCall
  | activate (licenseKey : String) (deviceId : Uuid) (machineFingerprint deviceLabel : String)
  | validate (licenseId : ℤ) (deviceId : Uuid) (machineFingerprint : String)
      (requestingUserId : Option ℤ)
  | heartbeat (licenseId : ℤ) (deviceId : Uuid) (requestingUserId : Option ℤ)
  | deactivate (licenseId : ℤ) (deviceId : Uuid) (machineFingerprint : String)
      (requestingUserId : Option ℤ)
  deriving DecidableEq

inductive LicenseOutcome
  | activation (o : ActivationOutcome)
  | validation (o : ValidationOutcome)
  | heartbeat (o : HeartbeatOutcome)
  | deactivation (o : DeactivationOutcome)
  deriving DecidableEq, Repr

def LicenseCall.run : LicenseCall → LicenseM LicenseOutcome
  | .activate licenseKey deviceId machineFingerprint deviceLabel =>
    .activation <$> LicenseService.activate licenseKey deviceId machineFingerprint deviceLabel
  | .validate licenseId deviceId machineFingerprint requestingUserId =>
    .validation <$>
      LicenseService.validate licenseId deviceId machineFingerprint requestingUserId
  | .heartbeat licenseId deviceId requestingUserId =>
    .heartbeat <$> LicenseService.heartbeat licenseId deviceId requestingUserId
  | .deactivate licenseId deviceId machineFingerprint requestingUserId =>
    .deactivation <$>
      LicenseService.deactivate licenseId deviceId machineFingerprint requestingUserId

/-- `process_webhook_event`: it reads in one action and writes in another. -/
def processEvent (eventId : String) (payload : RazorpayWebhookPayload) :
    ExceptT PaymentOperationError (Prog Store CallEnv) Unit := do
  let resolved ← ExceptT.lift (Prog.query fun env st => resolveEvent st.toDb env payload)
  match resolved with
  | .error e => throw e
  | .ok m =>
    let settled ← ExceptT.lift (Prog.atomically fun env st =>
      ((settleEvent st.toDb env eventId payload m).1,
        st.mapDb (fun db => (settleEvent db env eventId payload m).2)
          fun db => (settleEvent_termsAfter db env eventId payload m).isPrefix))
    ExceptT.mk (pure settled)

/-- What runs in parallel on the server. -/
inductive ServiceCall
  | license (call : LicenseCall)
  | webhook (eventId : String) (payload : RazorpayWebhookPayload)

inductive CallResult
  | license (r : Except LicenseOperationError LicenseOutcome)
  | webhook (r : Except PaymentOperationError Unit)

def ServiceCall.prog : ServiceCall → Prog Store CallEnv CallResult
  | .license call => .license <$> call.run.run
  | .webhook eventId payload => .webhook <$> (processEvent eventId payload).run

/-- The calls, none of which has begun. -/
def startCalls {κ : Type} (calls : κ → ServiceCall) (st : Store) :
    Pool Store CallEnv CallResult κ where
  store := st
  calls := fun k => (calls k).prog

end LicenseServer
