import BankStatementProcessor.Infra.StateMachine
import BankStatementProcessor.LicenseServer.Domain

/-!
# What one subscription is, abstractly

An account is a subscription together with its one payment and the licence that is not
revoked, if there is one. The events are what the gateway tells about it. No row ids, no
references, no ledger.

The invariants are stated and proved here, over runs of the account. They come down to the
database through the refinement.
-/

namespace LicenseServer

open Infra

/-- The licence of an account. A revoked one is no licence any more. -/
structure AccountLicense where
  status : LicenseRecordStatus
  expiresAt : Option Timestamp
  deriving DecidableEq, Repr

structure Account where
  /-- The price agreed on at checkout. -/
  amountMinor : ℤ
  currency : String
  payment : PaymentStatus
  gatewayPaymentId : Option String
  subscription : SubscriptionStatus
  currentPeriodEnd : Option Timestamp
  license : Option AccountLicense
  deriving DecidableEq, Repr

inductive AccountEvent
  | captured (gatewayPaymentId : Option String) (periodEnd : Option Timestamp)
  | failed
  | halted
  | cancelled
  | refunded
  | disputed
  | disputeWon
  | disputeLost
  deriving DecidableEq, Repr

namespace Account

/-- What a checkout at this price leaves. -/
def initial (amountMinor : ℤ) (currency : String) : Account where
  amountMinor := amountMinor
  currency := currency
  payment := .pending
  gatewayPaymentId := none
  subscription := .pendingPayment
  currentPeriodEnd := none
  license := none

def setLicenseStatus (a : Account) (status : LicenseRecordStatus) : Option AccountLicense :=
  a.license.map fun l => { l with status := status }

/-- The account a capture makes. -/
def capture (a : Account) (gatewayPaymentId : Option String) (periodEnd : Option Timestamp) :
    Account :=
  { a with
    payment := .succeeded
    gatewayPaymentId := gatewayPaymentId <|> a.gatewayPaymentId
    subscription := .active
    currentPeriodEnd := periodEnd
    license := some { status := .active, expiresAt := periodEnd } }

/-- A capture on a refunded or disputed payment, and a failure of one that is no longer
pending, change nothing. The other events are not guarded. -/
def step (a : Account) : AccountEvent → Account
  | .captured gatewayPaymentId periodEnd =>
    if a.payment = .refunded ∨ a.payment = .disputed then a
    else a.capture gatewayPaymentId periodEnd
  | .failed => if a.payment = .pending then { a with payment := .failed } else a
  | .halted => { a with subscription := .suspended, license := a.setLicenseStatus .suspended }
  | .cancelled => { a with subscription := .cancelled, license := none }
  | .refunded => { a with payment := .refunded, license := none }
  | .disputed => { a with payment := .disputed, license := a.setLicenseStatus .suspended }
  | .disputeWon => { a with payment := .succeeded, license := a.setLicenseStatus .active }
  | .disputeLost => { a with payment := .refunded, license := none }

variable {a : Account}

theorem step_captured_of_closed {g : Option String} {e : Option Timestamp}
    (h : a.payment = .refunded ∨ a.payment = .disputed) : a.step (.captured g e) = a :=
  if_pos h

theorem step_captured {g : Option String} {e : Option Timestamp}
    (h : ¬ (a.payment = .refunded ∨ a.payment = .disputed)) :
    a.step (.captured g e) = a.capture g e :=
  if_neg h

theorem step_failed (h : a.payment = .pending) :
    a.step .failed = { a with payment := .failed } :=
  if_pos h

theorem step_failed_of_ne (h : a.payment ≠ .pending) : a.step .failed = a :=
  if_neg h

/-- A step that may be a stutter. -/
def stepOption (a : Account) : Option AccountEvent → Account
  | none => a
  | some event => a.step event

/-- The status of the licence, when there is one. -/
def licenseStatus (a : Account) : Option LicenseRecordStatus := a.license.map (·.status)

/-! ## Payment and licence -/

/-- An active licence is paid for, and a refunded payment has no licence. -/
structure Paid (a : Account) : Prop where
  active : a.licenseStatus = some .active → a.payment = .succeeded
  refunded : a.payment = .refunded → a.license = none

theorem paid_initial (amountMinor : ℤ) (currency : String) :
    Paid (initial amountMinor currency) := by
  constructor <;> simp [initial, licenseStatus]

theorem paid_step (h : a.Paid) (event : AccountEvent) : (a.step event).Paid := by
  obtain ⟨hactive, hrefunded⟩ := h
  cases event with
  | captured g e =>
    by_cases hclosed : a.payment = .refunded ∨ a.payment = .disputed
    · rw [step_captured_of_closed hclosed]
      exact ⟨hactive, hrefunded⟩
    · rw [step_captured hclosed]
      constructor <;> simp [capture]
  | failed =>
    by_cases hpending : a.payment = .pending
    · rw [step_failed hpending]
      constructor
      · -- a pending payment has no active licence
        intro hl
        exact absurd (hactive hl) (by simp [hpending])
      · simp
    · rw [step_failed_of_ne hpending]
      exact ⟨hactive, hrefunded⟩
  | halted =>
    constructor
    · simp [step, licenseStatus, setLicenseStatus]
    · intro hp
      simp [step, setLicenseStatus, hrefunded hp]
  | cancelled => constructor <;> simp [step, licenseStatus]
  | refunded => constructor <;> simp [step, licenseStatus]
  | disputed => constructor <;> simp [step, licenseStatus, setLicenseStatus]
  | disputeWon => constructor <;> simp [step]
  | disputeLost => constructor <;> simp [step, licenseStatus]

theorem paid_stepOption (h : a.Paid) (event : Option AccountEvent) :
    (a.stepOption event).Paid := by
  cases event with
  | none => exact h
  | some event => exact paid_step h event

/-! ## What made it so -/

theorem step_price (a : Account) (event : AccountEvent) :
    (a.step event).amountMinor = a.amountMinor ∧ (a.step event).currency = a.currency := by
  cases event with
  | captured g e =>
    unfold step
    dsimp only
    split <;> exact ⟨rfl, rfl⟩
  | failed =>
    unfold step
    dsimp only
    split <;> exact ⟨rfl, rfl⟩
  | _ => exact ⟨rfl, rfl⟩

/-- A gateway payment id is recorded by a capture that carries it. -/
theorem step_gatewayPaymentId {event : AccountEvent} {g : String}
    (h : (a.step event).gatewayPaymentId = some g) :
    a.gatewayPaymentId = some g ∨
      ∃ e, event = .captured (some g) e ∧ ¬ (a.payment = .refunded ∨ a.payment = .disputed) := by
  cases event with
  | captured g' e =>
    by_cases hclosed : a.payment = .refunded ∨ a.payment = .disputed
    · rw [step_captured_of_closed hclosed] at h
      exact Or.inl h
    · rw [step_captured hclosed] at h
      cases g' with
      | none => exact Or.inl h
      | some g' =>
        cases h
        exact Or.inr ⟨e, rfl, hclosed⟩
  | failed =>
    by_cases hpending : a.payment = .pending
    · rw [step_failed hpending] at h
      exact Or.inl h
    · rw [step_failed_of_ne hpending] at h
      exact Or.inl h
  | _ => exact Or.inl h

/-- The events that can make a payment succeed or a licence active. -/
def Grants (a : Account) (event : AccountEvent) : Prop :=
  event = .disputeWon ∨
    ∃ g e, event = .captured g e ∧ ¬ (a.payment = .refunded ∨ a.payment = .disputed)

theorem step_succeeded {event : AccountEvent} (h : (a.step event).payment = .succeeded) :
    a.payment = .succeeded ∨ a.Grants event := by
  cases event with
  | captured g e =>
    by_cases hclosed : a.payment = .refunded ∨ a.payment = .disputed
    · rw [step_captured_of_closed hclosed] at h
      exact Or.inl h
    · exact Or.inr (Or.inr ⟨g, e, rfl, hclosed⟩)
  | disputeWon => exact Or.inr (Or.inl rfl)
  | failed =>
    by_cases hpending : a.payment = .pending
    · simp [step_failed hpending] at h
    · rw [step_failed_of_ne hpending] at h
      exact Or.inl h
  | halted => exact Or.inl h
  | cancelled => exact Or.inl h
  | refunded => cases h
  | disputed => cases h
  | disputeLost => cases h

theorem step_active {event : AccountEvent} (h : (a.step event).licenseStatus = some .active) :
    a.licenseStatus = some .active ∨ a.Grants event := by
  cases event with
  | captured g e =>
    by_cases hclosed : a.payment = .refunded ∨ a.payment = .disputed
    · rw [step_captured_of_closed hclosed] at h
      exact Or.inl h
    · exact Or.inr (Or.inr ⟨g, e, rfl, hclosed⟩)
  | disputeWon => exact Or.inr (Or.inl rfl)
  | failed =>
    by_cases hpending : a.payment = .pending
    · rw [step_failed hpending] at h
      exact Or.inl h
    · rw [step_failed_of_ne hpending] at h
      exact Or.inl h
  | _ => simp [step, licenseStatus, setLicenseStatus] at h

/-! ## Refunds -/

/-- The event takes a refunded payment out of `refunded`. -/
def Reopens (event : AccountEvent) : Prop := event = .disputed ∨ event = .disputeWon

theorem step_refunded_iff (h : a.payment = .refunded) (event : AccountEvent) :
    (a.step event).payment = .refunded ↔ ¬ Reopens event := by
  cases event <;> simp [step, h, Reopens]

/-! ## Subscription and licence -/

/-- An active licence belongs to an active subscription. -/
def Entitled (a : Account) : Prop := a.licenseStatus = some .active → a.subscription = .active

theorem entitled_initial (amountMinor : ℤ) (currency : String) :
    Entitled (initial amountMinor currency) := by
  simp [Entitled, initial, licenseStatus]

/-- The event revives the licence of a subscription that is not active. -/
def Revives (a : Account) (event : AccountEvent) : Prop :=
  event = .disputeWon ∧ a.subscription ≠ .active ∧ a.license ≠ none

theorem entitled_step_iff (h : a.Entitled) (event : AccountEvent) :
    (a.step event).Entitled ↔ ¬ a.Revives event := by
  cases event with
  | captured g e =>
    by_cases hclosed : a.payment = .refunded ∨ a.payment = .disputed
    · simp [step_captured_of_closed hclosed, h, Revives]
    · simp [step_captured hclosed, Entitled, Revives, capture]
  | failed =>
    by_cases hpending : a.payment = .pending
    · simpa [step_failed hpending, Entitled, Revives, licenseStatus] using h
    · simp [step_failed_of_ne hpending, h, Revives]
  | disputeWon =>
    -- the only event that makes a licence active and leaves the subscription alone
    cases hl : a.license with
    | none => simp [step, Entitled, Revives, licenseStatus, setLicenseStatus, hl]
    | some l => simp [step, Entitled, Revives, licenseStatus, setLicenseStatus, hl]
  | halted => simp [step, Entitled, Revives, licenseStatus, setLicenseStatus]
  | cancelled => simp [step, Entitled, Revives, licenseStatus]
  | refunded => simp [step, Entitled, Revives, licenseStatus]
  | disputed => simp [step, Entitled, Revives, licenseStatus, setLicenseStatus]
  | disputeLost => simp [step, Entitled, Revives, licenseStatus]

end Account

end LicenseServer
