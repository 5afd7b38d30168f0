import BankStatementProcessor.LicenseServer.Server

/-!
# Finding the payment a refund is about

Refund and dispute events carry nothing but a gateway payment id. `refundable_iff` — after a
run of deliveries they find a payment row by the id of the last charge that was applied to
it, and by no other.
-/

namespace LicenseServer

open Infra

/-- Every refund event and every `payment.dispute.created` event that names the gateway
payment `g` is resolved to the payment row `pid`. -/
def Refundable (db : Db) (pid : ℕ) (g : String) : Prop :=
  ∀ env payload, extractEntityId payload.payload "payment" = some g →
    (eventKind payload.event = .refund →
      ∃ license, resolveEvent db env payload = .ok (.refundPayment pid license)) ∧
    (eventKind payload.event = .disputeCreated →
      ∃ license, resolveEvent db env payload = .ok (.markPaymentDisputed pid license))

/-- The delivery carries out an activation of the payment row `pid`. -/
def AppliesTo (db : Db) (pid : ℕ) (d : Delivery) : Prop :=
  ∃ s ∈ db.subscriptions.rows, ∃ p ∈ db.payments.rows, p.id = pid ∧ ActivationApplies db d s p

instance (db : Db) (pid : ℕ) (d : Delivery) : Decidable (AppliesTo db pid d) := by
  unfold AppliesTo
  infer_instance

/-- The gateway payment id of the last activation applied to the row `pid`, where it carried
one; `g` when there was none. -/
def lastCharge (pid : ℕ) (db : Db) (g : Option String) : List Delivery → Option String
  | [] => g
  | d :: ds =>
    lastCharge pid (deliver db d)
      (if AppliesTo db pid d then extractEntityId d.payload.payload "payment" <|> g else g) ds

section

variable {db : Db} {s : Subscription} {p : Payment} {l : Option License} {d : Delivery}

theorem refundable_of_gatewayPaymentId (h : Owns db s p) {g : String}
    (hg : p.gatewayPaymentId = some g) : Refundable db p.id g := by
  intro env payload hid
  have hcarries : CarriesGatewayPaymentId payload p := by
    simp [CarriesGatewayPaymentId, hid, hg]
  constructor
  · intro hk
    exact ⟨_, resolveEvent_of_accountEvent h (accountEvent_eq_refunded.mpr ⟨hk, hcarries⟩) id⟩
  · intro hk
    exact ⟨_, resolveEvent_of_accountEvent h (accountEvent_eq_disputed.mpr ⟨hk, hcarries⟩) id⟩

/-- A refund that resolves to a row carries the row's gateway payment id. -/
theorem gatewayPaymentId_of_refundable {g : String} (hp : p ∈ db.payments.rows)
    (h : Refundable db p.id g) : p.gatewayPaymentId = some g := by
  have hid : extractEntityId (sampleReversal "refund.created" g).payload "payment" = some g := rfl
  obtain ⟨license, hres⟩ := (h (sampleEnv 0) (sampleReversal "refund.created" g) hid).1 rfl
  generalize hm : WebhookMutation.refundPayment p.id license = m at hres
  cases resolution_of_resolveEvent hres with
  | ignored => cases hm
  | @acts s' p' event howns hev _ =>
    cases event <;> simp only [mutationOf, reduceCtorEq, WebhookMutation.refundPayment.injEq] at hm
    obtain rfl : p = p' := db.payments.eq_of_key hp howns.payment hm.1
    exact (accountEvent_eq_refunded.mp hev).2.2.trans hid

/-- One delivery sets the gateway payment id of the account only by an activation of it. -/
theorem deliver_gatewayPaymentId (h : AccountRows db s p l) :
    ∃ a, AccountAfter (deliver db d) s p a ∧
      a.gatewayPaymentId = if AppliesTo db p.id d then
        extractEntityId d.payload.payload "payment" <|> p.gatewayPaymentId
      else p.gatewayPaymentId := by
  have happlies : AppliesTo db p.id d ↔ ActivationApplies db d s p := by
    constructor
    · rintro ⟨s', hs', p', hp', hid, hact⟩
      obtain rfl := db.payments.eq_of_key hp' h.payment hid
      have howns := (activationApplies_iff.mp hact).1
      obtain rfl := db.subscriptions.eq_of_key hs' h.subscription
        (howns.id_eq.symm.trans h.id_eq)
      exact hact
    · intro hact
      exact ⟨s, h.subscription, p, h.payment, rfl, hact⟩
  simp only [happlies]
  by_cases hact : ActivationApplies db d s p
  · obtain ⟨-, hcommits, g, e, hev, hopen⟩ := activationApplies_iff.mp hact
    have hg := (accountEvent_eq_captured.mp hev).2.2.1
    refine ⟨_, step_account_of_commits (r := .webhook d) h rfl hcommits hev, ?_⟩
    rw [Account.step_captured (a := account s p l) hopen, if_pos hact, hg]
    rfl
  · rw [if_neg hact]
    rcases processWebhookEvent_account (d := d) h with ⟨-, h'⟩ | ⟨hcommits, hafter⟩
    · exact ⟨_, ⟨s, p, l, h', .refl s p, rfl⟩, rfl⟩
    · refine ⟨_, hafter, ?_⟩
      cases hev : accountEvent d.env s p d.payload with
      | none => rfl
      | some event =>
        cases event with
        | captured g e =>
          -- a capture that commits without applying was refused by the account
          by_cases hclosed : Refused p.status (.captured g e)
          · exact congrArg (·.gatewayPaymentId)
              (Account.step_captured_of_closed (a := account s p l) hclosed)
          · exact absurd (activationApplies_iff.mpr ⟨h.toOwns, hcommits, g, e, hev, hclosed⟩) hact
        | failed =>
          simp only [Account.stepOption, Account.step]
          split <;> rfl
        | halted => rfl
        | cancelled => rfl
        | refunded => rfl
        | disputed => rfl
        | disputeWon => rfl
        | disputeLost => rfl

/-- The run lemma: the column holds the last charge. -/
theorem run_gatewayPaymentId (ds : List Delivery) (h : AccountRows db s p l) :
    ∃ a, AccountAfter (run deliver db ds) s p a ∧
      a.gatewayPaymentId = lastCharge p.id db p.gatewayPaymentId ds := by
  induction ds generalizing db s p l with
  | nil => exact ⟨_, ⟨s, p, l, h, .refl s p, rfl⟩, rfl⟩
  | cons d ds ih =>
    obtain ⟨a, ⟨s', p', l', hrows, hcont, rfl⟩, hg⟩ := deliver_gatewayPaymentId (d := d) h
    obtain ⟨a', hafter, hg'⟩ := ih hrows
    refine ⟨a', hafter.trans hcont, ?_⟩
    rw [hg', hcont.paymentId]
    exact congrArg (fun g => lastCharge p.id (deliver db d) g ds) hg

end

/--
**After any deliveries, refunds and disputes of a gateway payment find a payment row exactly
when that gateway payment is the last charge applied to the row.**
-/
theorem refundable_iff (rs : List Request) (p : Payment)
    (hp : p ∈ (run step .empty rs).payments.rows) (ds : List Delivery) (g : String) :
    Refundable (run deliver (run step .empty rs) ds) p.id g ↔
      lastCharge p.id (run step .empty rs) p.gatewayPaymentId ds = some g := by
  obtain ⟨s, l, hrows, -⟩ := (accounts_paid rs).of_payment hp
  obtain ⟨a, ⟨s', p', l', hrows', hcont, rfl⟩, hg⟩ := run_gatewayPaymentId ds hrows
  rw [← hg, ← hcont.paymentId]
  constructor
  · exact gatewayPaymentId_of_refundable hrows'.payment
  · exact refundable_of_gatewayPaymentId hrows'.toOwns

/-- The first charge of a subscription, and a renewal. -/
def chargedAndRenewed : List Delivery :=
  [sampleDelivery 1 "evt_1" (sampleCharge "subscription.charged" "sub_1" "pay_1"),
   sampleDelivery (days 30) "evt_2" (sampleCharge "subscription.charged" "sub_1" "pay_2")]

/-- The payment row of that subscription, as checkout leaves it. -/
def pendingPayment : Payment where
  id := 1
  subscriptionId := 1
  amountMinor := 49900
  currency := "INR"
  provider := "razorpay"
  providerRef := some "sub_1"
  gatewayPaymentId := none
  status := .pending
  createdAt := 0

theorem refundable_renewal :
    Refundable (run deliver (run step .empty [sampleCheckout "sub_1"]) chargedAndRenewed) 1
      "pay_2" :=
  (refundable_iff [sampleCheckout "sub_1"] pendingPayment (by decide) chargedAndRenewed
    "pay_2").mpr (by decide)

/-- The first charge is not found any more. -/
theorem first_charge_not_refundable :
    ¬ ∀ rs, ∀ p ∈ (run step .empty rs).payments.rows, ∀ ds : List Delivery,
      (∀ d ∈ ds, (eventKind d.payload.event).Activates ∧ Names d.payload p) →
      (ds.map fun d => extractEntityId d.payload.payload "payment").Nodup →
      ∀ d ∈ ds, ∀ g, extractEntityId d.payload.payload "payment" = some g →
        Refundable (run deliver (run step .empty rs) ds) p.id g := by
  intro h
  have hfirst := h [sampleCheckout "sub_1"] pendingPayment (by decide) chargedAndRenewed (by decide)
    (by decide) _ (List.mem_cons_self ..) "pay_1" rfl
  obtain ⟨license, hres⟩ := (hfirst (sampleEnv (days 31)) (sampleReversal "refund.created" "pay_1")
    rfl).1 rfl
  have hnone : resolveEvent (run deliver (run step .empty [sampleCheckout "sub_1"])
      chargedAndRenewed) (sampleEnv (days 31)) (sampleReversal "refund.created" "pay_1") =
        .ok .none := by
    decide
  rw [hnone] at hres
  cases hres

end LicenseServer
