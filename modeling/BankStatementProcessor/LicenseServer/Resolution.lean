import BankStatementProcessor.LicenseServer.Account
import BankStatementProcessor.LicenseServer.PaymentService

/-!
# What a resolver decides

`accountEvent` says which account event a webhook payload is for a given payment row, with
no database lookup. `resolveEvent_resolution` is the one fact about the eight `resolve`
functions that the rest uses: they find the payment the payload names, and their mutation is
`mutationOf` the account event, unless the account refuses the event.
-/

namespace LicenseServer

open Infra

/-! ## Correlation -/

/-- The entity whose reference is looked up as a `provider_ref`. -/
def EventKind.refKey : EventKind → Option String
  | .paymentCaptured | .paymentFailed => some "payment"
  | .paymentLinkPaid => some "payment_link"
  | .subscriptionActive | .subscriptionInactive => some "subscription"
  | _ => none

/-- The events that are looked up by `gateway_payment_id`. -/
def EventKind.ByGatewayPaymentId (kind : EventKind) : Prop :=
  kind = .refund ∨ kind = .disputeCreated ∨ kind = .disputeClosed

instance (kind : EventKind) : Decidable kind.ByGatewayPaymentId := by
  unfold EventKind.ByGatewayPaymentId
  infer_instance

/-- The activation-shaped events. -/
def EventKind.Activates (kind : EventKind) : Prop :=
  kind = .paymentCaptured ∨ kind = .paymentLinkPaid ∨ kind = .subscriptionActive

instance (kind : EventKind) : Decidable kind.Activates := by
  unfold EventKind.Activates
  infer_instance

def eventRef (payload : RazorpayWebhookPayload) : Option String :=
  (eventKind payload.event).refKey.bind (extractEntityRef payload.payload)

def eventGatewayPaymentId (payload : RazorpayWebhookPayload) : Option String :=
  if (eventKind payload.event).ByGatewayPaymentId then extractEntityId payload.payload "payment"
  else none

/-- The payload names this payment row. -/
def Names (payload : RazorpayWebhookPayload) (p : Payment) : Prop :=
  (eventRef payload ≠ none ∧ p.providerRef = eventRef payload) ∨
    (eventGatewayPaymentId payload ≠ none ∧ p.gatewayPaymentId = eventGatewayPaymentId payload)

instance (payload : RazorpayWebhookPayload) (p : Payment) : Decidable (Names payload p) := by
  unfold Names
  infer_instance

/-- The capture an activation-shaped payload reports, where it reports one, is the payment's. -/
def Reports (payload : RazorpayWebhookPayload) (p : Payment) : Prop :=
  (eventKind payload.event).Activates →
    captureMatches p (extractEntityAmountMinor payload.payload "payment")
      (extractEntityCurrency payload.payload "payment") = true

instance (payload : RazorpayWebhookPayload) (p : Payment) : Decidable (Reports payload p) := by
  unfold Reports
  infer_instance

/-- The event of the payload, for a subscription with this plan. -/
def toldEvent (env : CallEnv) (plan : PlanType) (payload : RazorpayWebhookPayload) :
    Option AccountEvent :=
  match eventKind payload.event with
  | .paymentCaptured | .paymentLinkPaid | .subscriptionActive =>
    some (.captured (extractEntityId payload.payload "payment")
      ((planDuration plan).map (env.now + ·)))
  | .paymentFailed => some .failed
  | .subscriptionInactive =>
    some (if payload.event = "subscription.halted" then .halted else .cancelled)
  | .refund => some .refunded
  | .disputeCreated => some .disputed
  | .disputeClosed =>
    (merchantWon (extractDisputeStatus payload.payload)).map fun won =>
      if won then .disputeWon else .disputeLost
  | .other => none

/-- What the payload says about payment `p` of subscription `s`. -/
def accountEvent (env : CallEnv) (s : Subscription) (p : Payment)
    (payload : RazorpayWebhookPayload) : Option AccountEvent :=
  if Names payload p ∧ Reports payload p then toldEvent env s.planType payload else none

/-- A capture of a closed payment and a failure of one that is not pending. -/
def Refused (status : PaymentStatus) : AccountEvent → Prop
  | .captured _ _ => status = .refunded ∨ status = .disputed
  | .failed => status ≠ .pending
  | _ => False

theorem Account.step_of_refused {a : Account} {event : AccountEvent} (h : Refused a.payment event) :
    a.step event = a := by
  cases event with
  | captured g e => exact step_captured_of_closed h
  | failed => exact step_failed_of_ne h
  | halted => exact h.elim
  | cancelled => exact h.elim
  | refunded => exact h.elim
  | disputed => exact h.elim
  | disputeWon => exact h.elim
  | disputeLost => exact h.elim

/-- A payment row and its subscription row. -/
structure Owns (db : Db) (s : Subscription) (p : Payment) : Prop where
  subscription : s ∈ db.subscriptions.rows
  payment : p ∈ db.payments.rows
  id_eq : p.subscriptionId = s.id

instance (db : Db) (s : Subscription) (p : Payment) : Decidable (Owns db s p) :=
  decidable_of_iff
    (s ∈ db.subscriptions.rows ∧ p ∈ db.payments.rows ∧ p.subscriptionId = s.id)
    ⟨fun ⟨hs, hp, hid⟩ => ⟨hs, hp, hid⟩, fun ⟨hs, hp, hid⟩ => ⟨hs, hp, hid⟩⟩

theorem exists_owns {db : Db} {p : Payment} (hp : p ∈ db.payments.rows) : ∃ s, Owns db s p := by
  obtain ⟨s, hs, hid⟩ := db.payment_subscription p hp
  exact ⟨s, hs, hp, hid.symm⟩

/-- A payload names at most one payment row. -/
theorem names_unique {db : Db} {payload : RazorpayWebhookPayload} {p q : Payment}
    (hp : p ∈ db.payments.rows) (hq : q ∈ db.payments.rows) (hpn : Names payload p)
    (hqn : Names payload q) : p = q := by
  -- no event is looked up both ways
  have hexcl : eventRef payload ≠ none → eventGatewayPaymentId payload = none := by
    intro href
    unfold eventGatewayPaymentId
    rw [if_neg]
    rintro (hk | hk | hk) <;> simp [eventRef, hk, EventKind.refKey] at href
  rcases hpn with ⟨href, hpr⟩ | ⟨hgw, hpg⟩
  · rcases hqn with ⟨-, hqr⟩ | ⟨hgw, -⟩
    · obtain ⟨r, hr⟩ := Option.ne_none_iff_exists'.mp href
      exact db.providerRef_unique p hp q hq r (hpr.trans hr) (hqr.trans hr)
    · exact absurd (hexcl href) hgw
  · rcases hqn with ⟨href, -⟩ | ⟨-, hqg⟩
    · exact absurd (hexcl href) hgw
    · obtain ⟨g, hg⟩ := Option.ne_none_iff_exists'.mp hgw
      exact db.gatewayPaymentId_unique p hp q hq g (hpg.trans hg) (hqg.trans hg)

theorem accountEvent_eq_some {env : CallEnv} {s : Subscription} {p : Payment}
    {payload : RazorpayWebhookPayload} {event : AccountEvent} :
    accountEvent env s p payload = some event ↔
      (Names payload p ∧ Reports payload p) ∧ toldEvent env s.planType payload = some event := by
  unfold accountEvent
  split
  · next h => simp [h]
  · next h => simp [h]

/-- The payload carries the payment's gateway payment id. -/
def CarriesGatewayPaymentId (payload : RazorpayWebhookPayload) (p : Payment) : Prop :=
  extractEntityId payload.payload "payment" ≠ none ∧
    p.gatewayPaymentId = extractEntityId payload.payload "payment"

instance (payload : RazorpayWebhookPayload) (p : Payment) :
    Decidable (CarriesGatewayPaymentId payload p) := by
  unfold CarriesGatewayPaymentId
  infer_instance

section

variable {env : CallEnv} {s : Subscription} {p : Payment} {payload : RazorpayWebhookPayload}

theorem names_iff_gatewayPaymentId (hk : (eventKind payload.event).ByGatewayPaymentId) :
    Names payload p ↔ CarriesGatewayPaymentId payload p := by
  have href : eventRef payload = none := by
    rcases hk with hk | hk | hk <;> simp [eventRef, hk, EventKind.refKey]
  simp [Names, eventGatewayPaymentId, hk, href, CarriesGatewayPaymentId]

theorem reports_of_byGatewayPaymentId (hk : (eventKind payload.event).ByGatewayPaymentId) :
    Reports payload p := by
  rcases hk with hk | hk | hk <;> simp [Reports, hk, EventKind.Activates]

theorem accountEvent_of_byGatewayPaymentId (hk : (eventKind payload.event).ByGatewayPaymentId)
    {event : AccountEvent} : accountEvent env s p payload = some event ↔
      CarriesGatewayPaymentId payload p ∧ toldEvent env s.planType payload = some event := by
  rw [accountEvent_eq_some, names_iff_gatewayPaymentId hk]
  simp [reports_of_byGatewayPaymentId hk]

/-- What a payload has to be to tell an event. -/
def Tells (env : CallEnv) (plan : PlanType) (payload : RazorpayWebhookPayload) :
    AccountEvent → Prop
  | .captured g e => (eventKind payload.event).Activates ∧
      g = extractEntityId payload.payload "payment" ∧ e = (planDuration plan).map (env.now + ·)
  | .failed => eventKind payload.event = .paymentFailed
  | .halted => eventKind payload.event = .subscriptionInactive ∧
      payload.event = "subscription.halted"
  | .cancelled => eventKind payload.event = .subscriptionInactive ∧
      payload.event ≠ "subscription.halted"
  | .refunded => eventKind payload.event = .refund
  | .disputed => eventKind payload.event = .disputeCreated
  | .disputeWon => eventKind payload.event = .disputeClosed ∧
      merchantWon (extractDisputeStatus payload.payload) = some true
  | .disputeLost => eventKind payload.event = .disputeClosed ∧
      merchantWon (extractDisputeStatus payload.payload) = some false

theorem toldEvent_eq_some {plan : PlanType} {event : AccountEvent} :
    toldEvent env plan payload = some event ↔ Tells env plan payload event := by
  unfold toldEvent
  cases hk : eventKind payload.event with
  | subscriptionInactive =>
    dsimp only
    split <;> cases event <;> simp_all [Tells, EventKind.Activates]
  | disputeClosed =>
    cases hwon : merchantWon (extractDisputeStatus payload.payload) with
    | none => cases event <;> simp [Tells, EventKind.Activates, hk, hwon]
    | some won => cases won <;> cases event <;> simp [Tells, EventKind.Activates, hk, hwon]
  | _ => cases event <;> simp [Tells, EventKind.Activates, hk, eq_comm]

theorem accountEvent_eq_reversal {event : AccountEvent}
    (hk : Tells env s.planType payload event → (eventKind payload.event).ByGatewayPaymentId) :
    accountEvent env s p payload = some event ↔
      Tells env s.planType payload event ∧ CarriesGatewayPaymentId payload p := by
  constructor
  · intro h
    have htells := toldEvent_eq_some.mp (accountEvent_eq_some.mp h).2
    exact ⟨htells, ((accountEvent_of_byGatewayPaymentId (hk htells)).mp h).1⟩
  · rintro ⟨htells, hcarries⟩
    exact (accountEvent_of_byGatewayPaymentId (hk htells)).mpr
      ⟨hcarries, toldEvent_eq_some.mpr htells⟩

theorem accountEvent_eq_refunded : accountEvent env s p payload = some .refunded ↔
    eventKind payload.event = .refund ∧ CarriesGatewayPaymentId payload p :=
  accountEvent_eq_reversal Or.inl

theorem accountEvent_eq_disputed : accountEvent env s p payload = some .disputed ↔
    eventKind payload.event = .disputeCreated ∧ CarriesGatewayPaymentId payload p :=
  accountEvent_eq_reversal fun hk => Or.inr (Or.inl hk)

theorem accountEvent_eq_disputeWon : accountEvent env s p payload = some .disputeWon ↔
    (eventKind payload.event = .disputeClosed ∧
      merchantWon (extractDisputeStatus payload.payload) = some true) ∧
      CarriesGatewayPaymentId payload p :=
  accountEvent_eq_reversal fun ⟨hk, _⟩ => Or.inr (Or.inr hk)

theorem accountEvent_eq_captured {g : Option String} {e : Option Timestamp} :
    accountEvent env s p payload = some (.captured g e) ↔
      (eventKind payload.event).Activates ∧ (Names payload p ∧ Reports payload p) ∧
        g = extractEntityId payload.payload "payment" ∧
        e = (planDuration s.planType).map (env.now + ·) := by
  rw [accountEvent_eq_some, toldEvent_eq_some, Tells]
  tauto

end

/-! ## Mutations -/

section Mutation

variable (db : Db) (env : CallEnv)

/-- Extend the live licence, or issue one. -/
def licenseMutation (subscriptionId : ℕ) : LicenseMutation :=
  match db.findLatestBySubscription subscriptionId with
  | some existing => .extend existing.id
  | none => .insert (generateLicenseKey env.rng) 1 7

def affectedLicense (subscriptionId : ℕ) : Option AffectedLicense :=
  (db.findLatestBySubscription subscriptionId).map fun l =>
    { licenseId := l.id, expiresAt := l.expiresAt }

def affectedLicenseStatusChange (subscriptionId : ℕ) (status : LicenseRecordStatus) :
    Option AffectedLicenseStatusChange :=
  (db.findLatestBySubscription subscriptionId).map fun l =>
    { licenseId := l.id, expiresAt := l.expiresAt, status }

/-- The mutation that carries out an account event. -/
def mutationOf (s : Subscription) (p : Payment) : AccountEvent → WebhookMutation
  | .captured gatewayPaymentId periodEnd =>
    .activateSubscriptionAndLicense p.id s.id periodEnd (licenseMutation db env s.id)
      gatewayPaymentId
  | .failed => .markPaymentFailed p.id
  | .halted =>
    .updateSubscriptionStatus s.id .suspended s.currentPeriodEnd
      (affectedLicenseStatusChange db s.id .suspended)
  | .cancelled =>
    .updateSubscriptionStatus s.id .cancelled s.currentPeriodEnd
      (affectedLicenseStatusChange db s.id .revoked)
  | .refunded => .refundPayment p.id (affectedLicense db s.id)
  | .disputed => .markPaymentDisputed p.id (affectedLicense db s.id)
  | .disputeWon => .resolveDispute p.id (affectedLicense db s.id) true
  | .disputeLost => .resolveDispute p.id (affectedLicense db s.id) false

/-! ## The resolvers -/

variable (payload : RazorpayWebhookPayload)

/-- The mutation a payload is resolved to. -/
inductive Resolution : WebhookMutation → Prop
  | acts {s : Subscription} {p : Payment} {event : AccountEvent} (owns : Owns db s p)
      (told : accountEvent env s p payload = some event) (accepted : ¬ Refused p.status event) :
      Resolution (mutationOf db env s p event)
  | ignored (h : ∀ s p event, Owns db s p → accountEvent env s p payload = some event →
      Refused p.status event) : Resolution .none

end Mutation

section Resolve

variable {db : Db} {env : CallEnv} {payload : RazorpayWebhookPayload}

theorem names_iff_providerRef (hk : ¬ (eventKind payload.event).ByGatewayPaymentId) {p : Payment} :
    Names payload p ↔ eventRef payload ≠ none ∧ p.providerRef = eventRef payload := by
  simp [Names, eventGatewayPaymentId, hk]

theorem Resolution.of_not_names (h : ∀ p ∈ db.payments.rows, ¬ Names payload p) :
    Resolution db env payload .none := by
  refine .ignored ?_
  intro s p event howns htold
  exact absurd (accountEvent_eq_some.mp htold).1.1 (h p howns.payment)

theorem Resolution.of_not_told (h : ∀ plan, toldEvent env plan payload = none) :
    Resolution db env payload .none := by
  refine .ignored ?_
  intro s p event howns htold
  have := (accountEvent_eq_some.mp htold).2
  rw [h] at this
  cases this

/-- The named payment refuses whatever the payload says about it. -/
theorem Resolution.of_refused {p : Payment} (hp : p ∈ db.payments.rows) (hnames : Names payload p)
    (h : ∀ s event, accountEvent env s p payload = some event → Refused p.status event) :
    Resolution db env payload .none := by
  refine .ignored ?_
  intro s q event howns htold
  have hq : q = p := names_unique howns.payment hp (accountEvent_eq_some.mp htold).1.1 hnames
  subst hq
  exact h s event htold

theorem findPaymentByProviderRefOrNone_cases (db : Db) (ref : String) :
    (∃ p ∈ db.payments.rows, p.providerRef = some ref ∧
        findPaymentByProviderRefOrNone db ref = .ok (some p)) ∨
      (∀ p ∈ db.payments.rows, p.providerRef ≠ some ref) ∧
        findPaymentByProviderRefOrNone db ref = .ok none := by
  unfold findPaymentByProviderRefOrNone
  rcases db.findByProviderRef_cases ref with ⟨p, hp, href, hfind⟩ | ⟨hno, hfind⟩
  · exact Or.inl ⟨p, hp, href, by rw [hfind]⟩
  · exact Or.inr ⟨hno, by rw [hfind]⟩

theorem subscription_get?_of_owns {s : Subscription} {p : Payment} (h : Owns db s p) :
    db.subscriptions.get? p.subscriptionId = some s :=
  Table.get?_eq_some.mpr ⟨h.subscription, h.id_eq.symm⟩

/-- A `provider_ref` is missing from the payload, or unknown, or that of the named payment. -/
theorem providerRef_cases {key : String} (hkey : (eventKind payload.event).refKey = some key) :
    (extractEntityRef payload.payload key = none ∧ Resolution db env payload .none) ∨
      ∃ ref, extractEntityRef payload.payload key = some ref ∧
        ((findPaymentByProviderRefOrNone db ref = .ok none ∧ Resolution db env payload .none) ∨
          ∃ s p, Owns db s p ∧ Names payload p ∧
            findPaymentByProviderRefOrNone db ref = .ok (some p)) := by
  have hby : ¬ (eventKind payload.event).ByGatewayPaymentId := by
    rintro (hk | hk | hk) <;> simp [hk, EventKind.refKey] at hkey
  have heventRef : eventRef payload = extractEntityRef payload.payload key := by
    simp [eventRef, hkey]
  cases href : extractEntityRef payload.payload key with
  | none =>
    refine Or.inl ⟨rfl, .of_not_names ?_⟩
    intro p _
    rw [names_iff_providerRef hby, heventRef, href]
    simp
  | some ref =>
    refine Or.inr ⟨ref, rfl, ?_⟩
    rcases findPaymentByProviderRefOrNone_cases db ref with ⟨p, hp, hpr, hfind⟩ | ⟨hno, hfind⟩
    · obtain ⟨s, howns⟩ := exists_owns hp
      refine Or.inr ⟨s, p, howns, ?_, hfind⟩
      rw [names_iff_providerRef hby, heventRef, href, hpr]
      simp
    · refine Or.inl ⟨hfind, .of_not_names ?_⟩
      intro p hp
      rw [names_iff_providerRef hby, heventRef, href]
      simp [hno p hp]

theorem resolveActivationOf_resolution {key : String} (hk : (eventKind payload.event).Activates)
    (hkey : (eventKind payload.event).refKey = some key) :
    ∃ m, resolveActivationOf db env key payload = .ok m ∧ Resolution db env payload m := by
  have htold : ∀ plan, toldEvent env plan payload =
      some (.captured (extractEntityId payload.payload "payment")
        ((planDuration plan).map (env.now + ·))) := by
    intro plan
    rcases hk with hk | hk | hk <;> simp [toldEvent, hk]
  unfold resolveActivationOf
  rcases providerRef_cases hkey with
    ⟨href, hres⟩ | ⟨ref, href, ⟨hfind, hres⟩ | ⟨s, p, howns, hnames, hfind⟩⟩
  · exact ⟨.none, by rw [href], hres⟩
  · exact ⟨.none, by rw [href]; simp only [resolveActivation, hfind], hres⟩
  · rw [href]
    simp only [resolveActivation, hfind]
    split
    · -- the capture is not the payment's
      next hmatch =>
      refine ⟨.none, rfl, .of_refused howns.payment hnames ?_⟩
      intro s event h
      have := (accountEvent_eq_some.mp h).1.2 hk
      simp [this] at hmatch
    · next hmatch =>
      split
      · next hclosed =>
        refine ⟨.none, rfl, .of_refused howns.payment hnames ?_⟩
        intro s event h
        have := (accountEvent_eq_some.mp h).2
        rw [htold] at this
        cases this
        exact hclosed
      · next hopen =>
        rw [subscription_get?_of_owns howns]
        have hreports : Reports payload p := fun _ => by simpa using hmatch
        have hev := accountEvent_eq_some.mpr ⟨⟨hnames, hreports⟩, htold s.planType⟩
        exact ⟨_, rfl, .acts howns hev hopen⟩

theorem resolvePaymentFailed_resolution (hk : eventKind payload.event = .paymentFailed) :
    ∃ m, resolvePaymentFailed db payload = .ok m ∧ Resolution db env payload m := by
  have hkey : (eventKind payload.event).refKey = some "payment" := by simp [hk, EventKind.refKey]
  have htold : ∀ plan, toldEvent env plan payload = some .failed := by simp [toldEvent, hk]
  unfold resolvePaymentFailed
  rcases providerRef_cases hkey with
    ⟨href, hres⟩ | ⟨ref, href, ⟨hfind, hres⟩ | ⟨s, p, howns, hnames, hfind⟩⟩
  · exact ⟨.none, by rw [href], hres⟩
  · exact ⟨.none, by rw [href]; simp only [hfind], hres⟩
  · rw [href]
    simp only [hfind]
    split
    · next hstatus =>
      refine ⟨.none, rfl, .of_refused howns.payment hnames ?_⟩
      intro s event h
      have := (accountEvent_eq_some.mp h).2
      rw [htold] at this
      cases this
      exact hstatus
    · next hstatus =>
      have hreports : Reports payload p := by simp [Reports, hk, EventKind.Activates]
      have hev := accountEvent_eq_some.mpr ⟨⟨hnames, hreports⟩, htold s.planType⟩
      exact ⟨_, rfl, .acts howns hev hstatus⟩

theorem resolveSubscriptionInactive_resolution
    (hk : eventKind payload.event = .subscriptionInactive) :
    ∃ m, resolveSubscriptionInactive db payload = .ok m ∧ Resolution db env payload m := by
  have hkey : (eventKind payload.event).refKey = some "subscription" := by
    simp [hk, EventKind.refKey]
  unfold resolveSubscriptionInactive
  rcases providerRef_cases hkey with
    ⟨href, hres⟩ | ⟨ref, href, ⟨hfind, hres⟩ | ⟨s, p, howns, hnames, hfind⟩⟩
  · exact ⟨.none, by rw [href], hres⟩
  · exact ⟨.none, by rw [href]; simp only [hfind], hres⟩
  · rw [href]
    simp only [hfind, subscription_get?_of_owns howns]
    have hreports : Reports payload p := by simp [Reports, hk, EventKind.Activates]
    by_cases hhalted : payload.event = "subscription.halted"
    · have htold : toldEvent env s.planType payload = some .halted := by
        simp only [toldEvent, hk, if_pos hhalted]
      have hev := accountEvent_eq_some.mpr ⟨⟨hnames, hreports⟩, htold⟩
      exact ⟨_, by rw [if_pos hhalted]; rfl, .acts howns hev id⟩
    · have htold : toldEvent env s.planType payload = some .cancelled := by
        simp only [toldEvent, hk, if_neg hhalted]
      have hev := accountEvent_eq_some.mpr ⟨⟨hnames, hreports⟩, htold⟩
      exact ⟨_, by rw [if_neg hhalted]; rfl, .acts howns hev id⟩

/-- What a gateway payment id is looked up to: the row, and the licence it affects. -/
theorem findPaymentAndLicense_cases (db : Db) (g : String) :
    (∃ s p, Owns db s p ∧ p.gatewayPaymentId = some g ∧
        findPaymentAndLicense db g = some (p, affectedLicense db s.id)) ∨
      (∀ p ∈ db.payments.rows, p.gatewayPaymentId ≠ some g) ∧ findPaymentAndLicense db g = none := by
  unfold findPaymentAndLicense
  cases hfind : db.findByGatewayPaymentId g with
  | some p =>
    obtain ⟨hp, hg⟩ := Db.findByGatewayPaymentId_eq_some.mp hfind
    obtain ⟨s, howns⟩ := exists_owns hp
    refine Or.inl ⟨s, p, howns, hg, ?_⟩
    rw [← howns.id_eq]
    rfl
  | none =>
    refine Or.inr ⟨?_, rfl⟩
    intro p hp hg
    rw [Db.findByGatewayPaymentId_of_mem hp hg] at hfind
    cases hfind

/-- Refunds and disputes are resolved alike: the payment the gateway payment id names, and
whatever the payload tells of it. -/
theorem resolveReversal_resolution (hk : (eventKind payload.event).ByGatewayPaymentId)
    {event : AccountEvent} (htold : ∀ plan, toldEvent env plan payload = some event)
    (haccepted : ∀ status, ¬ Refused status event)
    {mutation : ℕ → Option AffectedLicense → WebhookMutation}
    (hmutation : ∀ s p, mutation p.id (affectedLicense db s.id) = mutationOf db env s p event) :
    Resolution db env payload (resolveReversal db mutation payload) := by
  unfold resolveReversal
  cases hg : extractEntityId payload.payload "payment" with
  | none =>
    refine .of_not_names ?_
    intro p _
    rw [names_iff_gatewayPaymentId hk]
    simp [CarriesGatewayPaymentId, hg]
  | some g =>
    dsimp only
    rcases findPaymentAndLicense_cases db g with ⟨s, p, howns, hpg, hfind⟩ | ⟨hno, hfind⟩
    · have hcarries : CarriesGatewayPaymentId payload p := by
        simp [CarriesGatewayPaymentId, hg, hpg]
      have hev := (accountEvent_of_byGatewayPaymentId hk).mpr ⟨hcarries, htold s.planType⟩
      rw [hfind]
      dsimp only
      rw [hmutation s p]
      exact .acts howns hev (haccepted _)
    · rw [hfind]
      refine .of_not_names ?_
      intro p hp
      rw [names_iff_gatewayPaymentId hk]
      simp [CarriesGatewayPaymentId, hg, hno p hp]

theorem resolveRefund_resolution (hk : eventKind payload.event = .refund) :
    Resolution db env payload (resolveRefund db payload) := by
  have htold : ∀ plan, toldEvent env plan payload = some .refunded := by simp [toldEvent, hk]
  exact resolveReversal_resolution (Or.inl hk) htold (fun _ => id) fun _ _ => rfl

theorem resolveDisputeCreated_resolution (hk : eventKind payload.event = .disputeCreated) :
    Resolution db env payload (resolveDisputeCreated db payload) := by
  have htold : ∀ plan, toldEvent env plan payload = some .disputed := by simp [toldEvent, hk]
  exact resolveReversal_resolution (Or.inr (Or.inl hk)) htold (fun _ => id) fun _ _ => rfl

/-- A closed dispute is resolved like a refund once its outcome is known. -/
theorem resolveDisputeClosed_eq : resolveDisputeClosed db payload =
    (merchantWon (extractDisputeStatus payload.payload)).elim .none fun won =>
      resolveReversal db (fun id license => .resolveDispute id license won) payload := by
  unfold resolveDisputeClosed resolveReversal
  cases merchantWon (extractDisputeStatus payload.payload) <;>
    cases extractEntityId payload.payload "payment" <;> rfl

theorem resolveDisputeClosed_resolution (hk : eventKind payload.event = .disputeClosed) :
    Resolution db env payload (resolveDisputeClosed db payload) := by
  have hby : (eventKind payload.event).ByGatewayPaymentId := Or.inr (Or.inr hk)
  rw [resolveDisputeClosed_eq]
  cases hwon : merchantWon (extractDisputeStatus payload.payload) with
  | none =>
    refine .of_not_told ?_
    intro plan
    simp [toldEvent, hk, hwon]
  | some won =>
    rw [Option.elim_some]
    have htold : ∀ plan, toldEvent env plan payload =
        some (if won then .disputeWon else .disputeLost) := by
      simp [toldEvent, hk, hwon]
    refine resolveReversal_resolution hby htold ?_ ?_
    · intro status
      cases won <;> exact id
    · intro s p
      cases won <;> rfl

variable (db env payload)

/--
**A resolver never fails, and decides what the payload says about the payment it names.**

The constraints of the schema leave the resolvers no other way: the reference of a payload
is that of at most one payment, and the subscription of a payment exists.
-/
theorem resolveEvent_resolution :
    ∃ m, resolveEvent db env payload = .ok m ∧ Resolution db env payload m := by
  unfold resolveEvent
  cases hk : eventKind payload.event with
  | paymentCaptured =>
    exact resolveActivationOf_resolution (Or.inl hk) (by simp [hk, EventKind.refKey])
  | paymentLinkPaid =>
    exact resolveActivationOf_resolution (Or.inr (Or.inl hk)) (by simp [hk, EventKind.refKey])
  | subscriptionActive =>
    exact resolveActivationOf_resolution (Or.inr (Or.inr hk)) (by simp [hk, EventKind.refKey])
  | paymentFailed => exact resolvePaymentFailed_resolution hk
  | subscriptionInactive => exact resolveSubscriptionInactive_resolution hk
  | refund => exact ⟨_, rfl, resolveRefund_resolution hk⟩
  | disputeCreated => exact ⟨_, rfl, resolveDisputeCreated_resolution hk⟩
  | disputeClosed => exact ⟨_, rfl, resolveDisputeClosed_resolution hk⟩
  | other =>
    refine ⟨.none, rfl, .of_not_told ?_⟩
    intro plan
    simp [toldEvent, hk]

variable {db env payload}

theorem resolution_of_resolveEvent {m : WebhookMutation}
    (h : resolveEvent db env payload = .ok m) : Resolution db env payload m := by
  obtain ⟨m', hm', hres⟩ := resolveEvent_resolution db env payload
  rw [h] at hm'
  cases hm'
  exact hres

/-- An accepted event of an owned payment is what the payload is resolved to. -/
theorem resolveEvent_of_accountEvent {s : Subscription} {p : Payment} {event : AccountEvent}
    (howns : Owns db s p) (hev : accountEvent env s p payload = some event)
    (haccepted : ¬ Refused p.status event) :
    resolveEvent db env payload = .ok (mutationOf db env s p event) := by
  obtain ⟨m, hm, hres⟩ := resolveEvent_resolution db env payload
  rw [hm]
  cases hres with
  | @acts s' p' event' howns' hev' _ =>
    have hp : p' = p := names_unique howns'.payment howns.payment
      (accountEvent_eq_some.mp hev').1.1 (accountEvent_eq_some.mp hev).1.1
    subst hp
    have hs : s' = s := db.subscriptions.eq_of_key howns'.subscription howns.subscription
      (howns'.id_eq.symm.trans howns.id_eq)
    subst hs
    rw [hev] at hev'
    cases hev'
    rfl
  | ignored h => exact absurd (h s p event howns hev) haccepted

end Resolve

end LicenseServer
