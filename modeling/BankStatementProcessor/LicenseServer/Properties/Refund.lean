import BankStatementProcessor.LicenseServer.Server

/-!
# Refunds

`refund_terminal_iff` — a refunded payment stays refunded, and its subscription without an
active licence, as long as no dispute event names a refunded payment.
-/

namespace LicenseServer

open Infra

/-- Payment `p` is still refunded, and no licence of its subscription is active. -/
def StillRefunded (db : Db) (p : Payment) : Prop :=
  (∃ q ∈ db.payments.rows, q.id = p.id ∧ q.status = .refunded) ∧
    ∀ l ∈ db.licenses.rows, l.subscriptionId = p.subscriptionId → l.status ≠ .active

instance (db : Db) (p : Payment) : Decidable (StillRefunded db p) := by
  unfold StillRefunded
  infer_instance

/-- Whatever is refunded after `pre` is still refunded after any further part of the run. -/
def RefundTerminal (rs : List Request) : Prop :=
  ∀ pre mid post, rs = pre ++ mid ++ post →
    ∀ p ∈ (run step .empty pre).payments.rows, p.status = .refunded →
      StillRefunded (run step .empty (pre ++ mid)) p

/-- A new `payment.dispute.created`, or `payment.dispute.closed` with outcome `won`, names a
refunded payment. -/
def DisputesRefunded (db : Db) (r : Request) : Prop :=
  ∃ d, r.delivery db = some d ∧ ¬ db.EventProcessed provider d.eventId ∧
    (eventKind d.payload.event = .disputeCreated ∨
      eventKind d.payload.event = .disputeClosed ∧
        merchantWon (extractDisputeStatus d.payload.payload) = some true) ∧
    ∃ p ∈ db.payments.rows, CarriesGatewayPaymentId d.payload p ∧ p.status = .refunded

/-- The account of payment `p` is refunded. -/
def RefundedAccount (s : Subscription) (p : Payment) (db : Db) : Prop :=
  ∃ a, AccountAfter db s p a ∧ a.Paid ∧ a.payment = .refunded

theorem stillRefunded_of_account {db : Db} {s : Subscription} {p : Payment}
    (hid : p.subscriptionId = s.id) (h : RefundedAccount s p db) : StillRefunded db p := by
  obtain ⟨a, ⟨s', p', l', hrows, hcont, rfl⟩, hpaid, hrefunded⟩ := h
  refine ⟨⟨p', hrows.payment, hcont.paymentId, hrefunded⟩, ?_⟩
  intro k hk hks hactive
  have hl : l' = some k := (hrows.license k).mp
    ⟨hk, hks.trans (hid.trans hcont.subscriptionId.symm), by simp [License.Live, hactive]⟩
  have := hpaid.refunded hrefunded
  simp [account, hl] at this

theorem reopens_iff {env : CallEnv} {s : Subscription} {p : Payment}
    {payload : RazorpayWebhookPayload} :
    (∃ event, accountEvent env s p payload = some event ∧ Account.Reopens event) ↔
      (eventKind payload.event = .disputeCreated ∨
        eventKind payload.event = .disputeClosed ∧
          merchantWon (extractDisputeStatus payload.payload) = some true) ∧
        CarriesGatewayPaymentId payload p := by
  constructor
  · rintro ⟨event, hev, rfl | rfl⟩
    · obtain ⟨hk, hcarries⟩ := accountEvent_eq_disputed.mp hev
      exact ⟨Or.inl hk, hcarries⟩
    · obtain ⟨hk, hcarries⟩ := accountEvent_eq_disputeWon.mp hev
      exact ⟨Or.inr hk, hcarries⟩
  · rintro ⟨hk | hk, hcarries⟩
    · exact ⟨.disputed, accountEvent_eq_disputed.mpr ⟨hk, hcarries⟩, Or.inl rfl⟩
    · exact ⟨.disputeWon, accountEvent_eq_disputeWon.mpr ⟨hk, hcarries⟩, Or.inr rfl⟩

/-- One request keeps a refunded account refunded unless it disputes a refunded payment. -/
theorem refundedAccount_step {db : Db} {s : Subscription} {p : Payment} {r : Request}
    (h : RefundedAccount s p db) (hr : ¬ DisputesRefunded db r) :
    RefundedAccount s p (step db r) := by
  obtain ⟨a, ⟨s', p', l', hrows, hcont, rfl⟩, hpaid, hrefunded⟩ := h
  obtain ⟨event, hafter, htold⟩ := step_account hrows r
  refine ⟨_, hafter.trans hcont, Account.paid_stepOption hpaid event, ?_⟩
  cases event with
  | none => exact hrefunded
  | some event =>
    obtain ⟨d, hd, hcommits, hev⟩ := htold event rfl
    refine (Account.step_refunded_iff hrefunded event).mpr fun hreopens => hr ?_
    obtain ⟨hk, hcarries⟩ := reopens_iff.mp ⟨event, hev, hreopens⟩
    exact ⟨d, hd, hcommits.not_processed, hk, p', hrows.payment, hcarries, hrefunded⟩

/-- A dispute event takes the refunded payment it names out of `refunded`. -/
theorem not_stillRefunded_of_disputes {db : Db} {r : Request} (h : Accounts Account.Paid db)
    (hr : DisputesRefunded db r) :
    ∃ p ∈ db.payments.rows, p.status = .refunded ∧ ¬ StillRefunded (step db r) p := by
  obtain ⟨d, hd, hnew, hk, p, hp, hcarries, hrefunded⟩ := hr
  refine ⟨p, hp, hrefunded, ?_⟩
  obtain ⟨s, l, hrows, hpaid⟩ := h.of_payment hp
  obtain ⟨event, hev, hreopens⟩ := reopens_iff.mpr ⟨hk, hcarries⟩
  have haccepted : ¬ Refused p.status event := by
    rcases hreopens with rfl | rfl <;> exact id
  have hcapture : ∀ g e, event ≠ .captured g e := by
    rcases hreopens with rfl | rfl <;> simp
  have hcommits := commits_of_accountEvent hrows.toOwns hnew hev haccepted hcapture
  obtain ⟨s', p', l', hrows', hcont, hacc⟩ := step_account_of_commits hrows hd hcommits hev
  rintro ⟨⟨q, hq, hqid, hqs⟩, -⟩
  obtain rfl : q = p' := (step db r).payments.eq_of_key hq hrows'.payment
    (hqid.trans hcont.paymentId.symm)
  have hstill : ((account s p l).step event).payment = .refunded := by
    rw [← hacc]
    exact hqs
  exact (Account.step_refunded_iff (a := account s p l) hrefunded event).mp hstill hreopens

/--
**In a run a refund is terminal exactly when no request of the run disputes a refunded
payment.**
-/
theorem refund_terminal_iff (rs : List Request) :
    RefundTerminal rs ↔ EveryStep step (fun db r => ¬ DisputesRefunded db r) .empty rs := by
  constructor
  · intro h
    rw [everyStep_iff]
    rintro pre r post rfl hr
    obtain ⟨p, hp, hrefunded, hnot⟩ := not_stillRefunded_of_disputes (accounts_paid pre) hr
    have := h pre [r] post (by simp) p hp hrefunded
    rw [run_append] at this
    exact hnot this
  · rintro h pre mid post rfl p hp hrefunded
    rw [List.append_assoc] at h
    have hmid := (EveryStep.append.mp (EveryStep.append.mp h).2).1
    obtain ⟨s, l, hrows, hacc⟩ := (accounts_paid pre).of_payment hp
    have hstart : RefundedAccount s p (run step .empty pre) :=
      ⟨_, ⟨s, p, l, hrows, .refl s p, rfl⟩, hacc, hrefunded⟩
    rw [run_append]
    exact stillRefunded_of_account hrows.id_eq
      (hmid.invariant (fun _ _ hI hr => refundedAccount_step hI hr) hstart)

/-- Charged and refunded. -/
def chargedThenRefunded : List Request :=
  [sampleCheckout "sub_1",
   .webhook (sampleDelivery 1 "evt_1" (sampleCharge "subscription.charged" "sub_1" "pay_1")),
   .webhook (sampleDelivery 2 "evt_2" (sampleReversal "refund.processed" "pay_1"))]

/-- A dispute about the refunded payment is won, and the charge is delivered once more. -/
def disputedThenRedelivered : List Request :=
  [.webhook (sampleDelivery 3 "evt_3" (sampleReversal "payment.dispute.created" "pay_1")),
   .webhook (sampleDelivery 4 "evt_4" (sampleDisputeClosed "won" "pay_1")),
   .webhook (sampleDelivery 5 "evt_5" (sampleCharge "subscription.charged" "sub_1" "pay_1"))]

theorem refund_reopened : ¬ ∀ rs, RefundTerminal rs := by
  intro h
  have hp : ∀ p ∈ (run step .empty chargedThenRefunded).payments.rows, p.status = .refunded →
      StillRefunded (run step .empty (chargedThenRefunded ++ disputedThenRedelivered)) p :=
    h (chargedThenRefunded ++ disputedThenRedelivered) _ _ [] (by simp)
  exact absurd hp (by decide)

end LicenseServer
