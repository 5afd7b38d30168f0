import BankStatementProcessor.LicenseServer.Server

/-!
# Captured amounts

`no_wrong_activation` — a gateway payment of another amount or currency than a payment row
does not make the row succeeded or its licence active, as long as no activation is carried
out from a payload that leaves the differing value out. A webhook can report both values; the
synthetic payload of a reconciliation never does.
-/

namespace LicenseServer

open Infra

/-- A payment as the gateway has it, under its id. -/
structure GatewayPayment where
  orderId : Option String
  amountMinor : ℤ
  currency : String

section

variable (gateway : String → GatewayPayment)

/-- The gateway payment `g` is of another amount or currency than the row. -/
def Differs (g : String) (p : Payment) : Prop :=
  (gateway g).amountMinor ≠ p.amountMinor ∨ (gateway g).currency ≠ p.currency

instance (g : String) (p : Payment) : Decidable (Differs gateway g p) := by
  unfold Differs
  infer_instance

/-- An amount or currency the payload reports is that of the gateway payment it names. -/
def ReportsTruly (payload : RazorpayWebhookPayload) : Prop :=
  ∀ g ∈ extractEntityId payload.payload "payment",
    (∀ amount ∈ extractEntityAmountMinor payload.payload "payment",
      amount = (gateway g).amountMinor) ∧
    ∀ currency ∈ extractEntityCurrency payload.payload "payment",
      currency = (gateway g).currency

instance (payload : RazorpayWebhookPayload) : Decidable (ReportsTruly gateway payload) := by
  unfold ReportsTruly
  infer_instance

def Truthful : Request → Prop
  | .webhook d => ReportsTruly gateway d.payload
  | _ => True

instance : ∀ r, Decidable (Truthful gateway r)
  | .checkout _ _ _ _ => instDecidableTrue
  | .webhook d => inferInstanceAs (Decidable (ReportsTruly gateway d.payload))
  | .reconcile _ _ => instDecidableTrue

/-- A webhook with a payment entity reports the gateway payment completely, and the list of a
reconciliation its order. -/
def ReportsCompletely : Request → Prop
  | .webhook d => ∀ e, entity d.payload.payload "payment" = some e →
      ∃ g, extractEntityId d.payload.payload "payment" = some g ∧
        (e.get "order_id").bind JsonValue.asStr = (gateway g).orderId ∧
        extractEntityAmountMinor d.payload.payload "payment" = some (gateway g).amountMinor ∧
        extractEntityCurrency d.payload.payload "payment" = some (gateway g).currency
  | .reconcile _ payment => payment.orderId = (gateway payment.id).orderId
  | .checkout _ _ _ _ => True

/-- A live activation, carried out from a payload that leaves out a value in which the gateway
payment differs from the row. -/
def ActivatesUnchecked (db : Db) (r : Request) : Prop :=
  ∃ d ∈ r.delivery db, ∃ g ∈ extractEntityId d.payload.payload "payment",
    ∃ s ∈ db.subscriptions.rows, ∃ p ∈ db.payments.rows, ActivationApplies db d s p ∧
      (extractEntityAmountMinor d.payload.payload "payment" = none ∧
          (gateway g).amountMinor ≠ p.amountMinor ∨
        extractEntityCurrency d.payload.payload "payment" = none ∧
          (gateway g).currency ≠ p.currency)

instance (db : Db) (r : Request) : Decidable (ActivatesUnchecked gateway db r) := by
  unfold ActivatesUnchecked
  infer_instance

def HasActiveLicense (db : Db) (sid : ℕ) : Prop :=
  ∃ l ∈ db.licenses.rows, l.subscriptionId = sid ∧ l.status = .active

instance (db : Db) (sid : ℕ) : Decidable (HasActiveLicense db sid) := by
  unfold HasActiveLicense
  infer_instance

def HasSucceeded (db : Db) (pid : ℕ) : Prop :=
  ∃ p ∈ db.payments.rows, p.id = pid ∧ p.status = .succeeded

instance (db : Db) (pid : ℕ) : Decidable (HasSucceeded db pid) := by
  unfold HasSucceeded
  infer_instance

/-- The request makes no row succeed, and no licence active, for a gateway payment that
differs from the row. -/
def GrantsNothingWrong (db : Db) (r : Request) : Prop :=
  ∀ d ∈ r.delivery db, ∀ g ∈ extractEntityId d.payload.payload "payment",
    ∀ p ∈ db.payments.rows, Differs gateway g p →
      (HasSucceeded (step db r) p.id → HasSucceeded db p.id) ∧
      (HasActiveLicense (step db r) p.subscriptionId → HasActiveLicense db p.subscriptionId)

instance (db : Db) (r : Request) : Decidable (GrantsNothingWrong gateway db r) := by
  unfold GrantsNothingWrong
  infer_instance

/-- The gateway payment recorded on an account is of its price. -/
def RecordedMatches (a : Account) : Prop :=
  ∀ g, a.gatewayPaymentId = some g →
    (gateway g).amountMinor = a.amountMinor ∧ (gateway g).currency = a.currency

end

section

variable {gateway : String → GatewayPayment} {db : Db} {r : Request} {d : Delivery}
  {s : Subscription} {p : Payment} {l : Option License}

theorem reportsTruly_of_completely (h : ReportsCompletely gateway r) : Truthful gateway r := by
  cases r with
  | webhook d =>
    intro g hg
    cases he : entity d.payload.payload "payment" with
    | none => simp [extractEntityId, he] at hg
    | some e =>
      obtain ⟨g', hg', -, hamount, hcurrency⟩ := h e he
      obtain rfl : g' = g := Option.some.inj (hg'.symm.trans hg)
      simp [hamount, hcurrency]
  | checkout => trivial
  | reconcile => trivial

/-- The synthetic payload reports no amount and no currency. -/
theorem truthful_delivery (h : Truthful gateway r) (hd : r.delivery db = some d) :
    ReportsTruly gateway d.payload := by
  cases r with
  | checkout => cases hd
  | webhook d' =>
    cases hd
    exact h
  | reconcile env payment =>
    simp only [Request.delivery, healing] at hd
    split at hd
    · split at hd
      · cases hd
      · obtain ⟨event, -, rfl⟩ := Option.map_eq_some_iff.mp hd
        intro g _
        have hamount : extractEntityAmountMinor (syntheticPayload event payment).payload
            "payment" = none := rfl
        have hcurrency : extractEntityCurrency (syntheticPayload event payment).payload
            "payment" = none := rfl
        simp [hamount, hcurrency]
    · cases hd

/-- A truthful activation that checks what it has to check is of the row's price. -/
theorem matches_of_activation (htrue : ReportsTruly gateway d.payload)
    (hd : r.delivery db = some d) (hchecked : ¬ ActivatesUnchecked gateway db r)
    (hact : ActivationApplies db d s p) {g : String}
    (hg : extractEntityId d.payload.payload "payment" = some g) :
    (gateway g).amountMinor = p.amountMinor ∧ (gateway g).currency = p.currency := by
  have happlies := hact
  obtain ⟨hk, howns, -, hreports, -⟩ := happlies
  obtain ⟨hamounts, hcurrencies⟩ := htrue g hg
  have hmatch := hreports hk
  simp only [captureMatches, Bool.and_eq_true] at hmatch
  -- a value left out would go unchecked, a reported one was compared with the row
  have hunchecked : ¬ (extractEntityAmountMinor d.payload.payload "payment" = none ∧
        (gateway g).amountMinor ≠ p.amountMinor ∨
      extractEntityCurrency d.payload.payload "payment" = none ∧
        (gateway g).currency ≠ p.currency) := fun h =>
    hchecked ⟨d, hd, g, hg, s, howns.subscription, p, howns.payment, hact, h⟩
  constructor
  · cases hamount : extractEntityAmountMinor d.payload.payload "payment" with
    | none => exact not_not.mp fun hne => hunchecked (Or.inl ⟨hamount, hne⟩)
    | some amount =>
      rw [← hamounts amount hamount]
      simpa [hamount] using hmatch.1
  · cases hcurrency : extractEntityCurrency d.payload.payload "payment" with
    | none => exact not_not.mp fun hne => hunchecked (Or.inr ⟨hcurrency, hne⟩)
    | some currency =>
      rw [← hcurrencies currency hcurrency]
      simpa [hcurrency] using hmatch.2

/-- An event that grants comes from a gateway payment of the account's price. -/
theorem matches_of_grants (htrue : Truthful gateway r)
    (hchecked : ¬ ActivatesUnchecked gateway db r) (hd : r.delivery db = some d)
    (hcommits : Commits db d) (h : AccountRows db s p l)
    (hrecorded : RecordedMatches gateway (account s p l)) {event : AccountEvent}
    (hev : accountEvent d.env s p d.payload = some event)
    (hgrants : (account s p l).Grants event) {g : String}
    (hg : extractEntityId d.payload.payload "payment" = some g) :
    (gateway g).amountMinor = p.amountMinor ∧ (gateway g).currency = p.currency := by
  rcases hgrants with rfl | ⟨g', e, rfl, hopen⟩
  · -- a won dispute names the payment by the recorded id
    have hcarries := (accountEvent_eq_disputeWon.mp hev).2
    exact hrecorded g (hcarries.2.trans hg)
  · have hact := activationApplies_iff.mpr ⟨h.toOwns, hcommits, g', e, hev, hopen⟩
    exact matches_of_activation (truthful_delivery htrue hd) hd hchecked hact hg

theorem recordedMatches_step (htrue : Truthful gateway r)
    (hchecked : ¬ ActivatesUnchecked gateway db r) (h : Accounts (RecordedMatches gateway) db) :
    Accounts (RecordedMatches gateway) (step db r) := by
  refine h.step (fun _ _ g hg => by cases hg) ?_
  intro d hd s p l hrows hrecorded hcommits
  cases hev : accountEvent d.env s p d.payload with
  | none => exact hrecorded
  | some event =>
    intro g hg
    obtain ⟨hamount, hcurrency⟩ := (account s p l).step_price event
    simp only [Account.stepOption] at hg ⊢
    rw [hamount, hcurrency]
    rcases Account.step_gatewayPaymentId hg with hold | ⟨e, rfl, hopen⟩
    · exact hrecorded g hold
    · have hid := (accountEvent_eq_captured.mp hev).2.2.1
      exact matches_of_grants htrue hchecked hd hcommits hrows hrecorded hev
        (Or.inr ⟨_, _, rfl, hopen⟩) hid.symm

theorem hasActiveLicense_iff (h : AccountRows db s p l) :
    HasActiveLicense db s.id ↔ (account s p l).licenseStatus = some .active := by
  constructor
  · rintro ⟨k, hk, hks, hactive⟩
    have hl := (h.license k).mp ⟨hk, hks, by simp [License.Live, hactive]⟩
    simp [account, Account.licenseStatus, hl, hactive]
  · intro hstatus
    cases l with
    | none => simp [account, Account.licenseStatus] at hstatus
    | some k =>
      obtain ⟨hk, hks, -⟩ := (h.license k).mpr rfl
      exact ⟨k, hk, hks, by simpa [account, Account.licenseStatus] using hstatus⟩

theorem hasSucceeded_iff (h : AccountRows db s p l) :
    HasSucceeded db p.id ↔ (account s p l).payment = .succeeded := by
  constructor
  · rintro ⟨q, hq, hid, hstatus⟩
    rw [db.payments.eq_of_key hq h.payment hid] at hstatus
    exact hstatus
  · intro hstatus
    exact ⟨p, h.payment, rfl, hstatus⟩

/-- One request grants nothing wrong. -/
theorem grantsNothingWrong_step (htrue : Truthful gateway r)
    (hchecked : ¬ ActivatesUnchecked gateway db r) (h : Accounts (RecordedMatches gateway) db) :
    GrantsNothingWrong gateway db r := by
  intro d hd g hg p hp hdiffers
  obtain ⟨s, l, hrows, hrecorded⟩ := h.of_payment hp
  obtain ⟨event, ⟨s', p', l', hrows', hcont, hacc⟩, htold⟩ := step_account hrows r
  have hnogrant : ∀ ev, event = some ev → ¬ (account s p l).Grants ev := by
    intro ev hev hgrants
    obtain ⟨d', hd', hcommits, htold'⟩ := htold ev hev
    obtain rfl : d' = d := Option.some.inj (hd'.symm.trans hd)
    obtain ⟨hamount, hcurrency⟩ :=
      matches_of_grants htrue hchecked hd hcommits hrows hrecorded htold' hgrants hg
    rcases hdiffers with hne | hne
    · exact hne hamount
    · exact hne hcurrency
  rw [← hcont.paymentId, hasSucceeded_iff hrows', hcont.paymentId, hasSucceeded_iff hrows, hacc,
    hrows.id_eq, ← hcont.subscriptionId, hasActiveLicense_iff hrows', hcont.subscriptionId,
    hasActiveLicense_iff hrows, hacc]
  cases event with
  | none => exact ⟨id, id⟩
  | some ev =>
    exact ⟨fun hs => (Account.step_succeeded hs).resolve_right (hnogrant ev rfl),
      fun ha => (Account.step_active ha).resolve_right (hnogrant ev rfl)⟩

end

/--
**A run of truthful requests grants nothing for a gateway payment of another amount or
currency, unless one of its activations goes unchecked.**
-/
theorem no_wrong_activation (gateway : String → GatewayPayment) (rs : List Request)
    (htrue : ∀ r ∈ rs, Truthful gateway r)
    (hchecked : EveryStep step (fun db r => ¬ ActivatesUnchecked gateway db r) .empty rs) :
    EveryStep step (GrantsNothingWrong gateway) .empty rs := by
  have hboth : EveryStep step
      (fun db r => Truthful gateway r ∧ ¬ ActivatesUnchecked gateway db r) .empty rs := by
    rw [everyStep_iff] at hchecked ⊢
    intro pre r post hrs
    exact ⟨htrue r (by simp [hrs]), hchecked pre r post hrs⟩
  exact hboth.of_invariant (fun _ _ hI hr => recordedMatches_step hr.1 hr.2 hI)
    (fun _ _ hI hr => grantsNothingWrong_step hr.1 hr.2 hI) accounts_empty

/-- Every gateway payment is of one rupee, but `pay_2`, which is of the monthly price. -/
def sampleGateway (g : String) : GatewayPayment where
  orderId := some "order_1"
  amountMinor := if g = "pay_2" then 49900 else 100
  currency := "INR"

def sampleCapture (gatewayPaymentId : String) (amountMinor : ℤ) : RazorpayWebhookPayload :=
  samplePayload "payment.captured"
    [("payment", [("id", .string gatewayPaymentId), ("order_id", .string "order_1"),
      ("amount", .number (.int amountMinor)), ("currency", .string "INR")])]

/-- A capture of one rupee is delivered, and then one of the monthly price. -/
def capturedTwice : List Request :=
  [sampleCheckout "order_1",
   .webhook (sampleDelivery 1 "evt_1" (sampleCapture "pay_1" 100)),
   .webhook (sampleDelivery 2 "evt_2" (sampleCapture "pay_2" 49900))]

theorem capturedTwice_grantsNothingWrong :
    EveryStep step (GrantsNothingWrong sampleGateway) .empty capturedTwice :=
  no_wrong_activation sampleGateway capturedTwice (by decide) (by decide)

/-- The refused capture of one rupee comes back through a reconciliation. -/
def refusedThenReconciled : List Request :=
  [sampleCheckout "order_1",
   .webhook (sampleDelivery 1 "evt_1" (sampleCapture "pay_1" 100)),
   .reconcile (sampleEnv 2) { id := "pay_1", orderId := some "order_1", status := "captured" }]

theorem reconciled_wrong_amount :
    ¬ ∀ gateway rs, (∀ r ∈ rs, ReportsCompletely gateway r) →
      EveryStep step (GrantsNothingWrong gateway) .empty rs := by
  intro h
  have hrun := h sampleGateway refusedThenReconciled ?_
  · exact absurd hrun (by decide)
  · intro r hr
    simp only [refusedThenReconciled, List.mem_cons, List.not_mem_nil, or_false] at hr
    rcases hr with rfl | rfl | rfl
    · trivial
    · intro e he
      obtain rfl := Option.some.inj he
      exact ⟨"pay_1", rfl, rfl, rfl, rfl⟩
    · rfl

end LicenseServer
