import BankStatementProcessor.LicenseServer.ReconcilePass

/-!
# What reconciliation heals

`lookupsAgree_iff` — the row a record is matched to is the row its synthetic event is looked
up to, unless the match fell back from an unknown `order_id` to the payment's own id.

`reconcileOnce_heals_iff` — when the records of a pass are healed as reported, and when a
second pass over the same records has nothing left to heal.
-/

namespace LicenseServer

open Infra

/-! ## The two lookups -/

/-- The row a payload is resolved to by the capture and the failure resolver. -/
def resolvedPayment (db : Db) (payload : RazorpayWebhookPayload) :
    Except PaymentOperationError (Option Payment) :=
  match extractEntityRef payload.payload "payment" with
  | none => .ok none
  | some providerRef => findPaymentByProviderRefOrNone db providerRef

theorem resolvedPayment_eq_some {db : Db} {payload : RazorpayWebhookPayload} {p : Payment} :
    resolvedPayment db payload = .ok (some p) ↔ p ∈ db.payments.rows ∧
      extractEntityRef payload.payload "payment" ≠ none ∧
        p.providerRef = extractEntityRef payload.payload "payment" := by
  unfold resolvedPayment
  cases href : extractEntityRef payload.payload "payment" with
  | none => simp
  | some ref =>
    dsimp only
    rcases findPaymentByProviderRefOrNone_cases db ref with ⟨q, hq, hqr, hfind⟩ | ⟨hno, hfind⟩
    · rw [hfind]
      constructor
      · intro h
        cases h
        exact ⟨hq, by simp, hqr⟩
      · rintro ⟨hp, -, hpr⟩
        rw [db.providerRef_unique q hq p hp ref hqr hpr]
    · rw [hfind]
      constructor
      · intro h
        cases h
      · rintro ⟨hp, -, hpr⟩
        exact absurd hpr (hno p hp)

/-- A capture or failure writes no other payment than the one the payload is resolved to. -/
theorem resolvedPayment_of_paymentWrite {db : Db} {env : CallEnv}
    {payload : RazorpayWebhookPayload} {m : WebhookMutation} {id : ℕ} {status : PaymentStatus}
    (hk : (eventKind payload.event).refKey = some "payment")
    (hm : resolveEvent db env payload = .ok m) (hwrite : m.paymentWrite = some (id, status)) :
    ∃ p, resolvedPayment db payload = .ok (some p) ∧ p.id = id := by
  cases resolution_of_resolveEvent hm with
  | ignored => cases hwrite
  | @acts s p event howns hev haccepted =>
    have hnames := (accountEvent_eq_some.mp hev).1.1
    have hby : ¬ (eventKind payload.event).ByGatewayPaymentId := by
      rintro (h | h | h) <;> rw [h] at hk <;> cases hk
    have href : eventRef payload = extractEntityRef payload.payload "payment" := by
      simp only [eventRef, hk, Option.bind_some]
    rw [names_iff_providerRef hby, href] at hnames
    refine ⟨p, resolvedPayment_eq_some.mpr ⟨howns.payment, hnames⟩, ?_⟩
    cases event <;> cases hwrite <;> rfl

/-- `reconcile_one` and the resolvers of its synthetic event mean the same row. -/
def LookupsAgree (db : Db) (event : String) (payment : RazorpayPayment) : Prop :=
  ∀ p, findLocalPayment db payment = .ok (some p) ↔
    resolvedPayment db (syntheticPayload event payment) = .ok (some p)

/-- No row has the `order_id`, and one has the payment's own id. -/
def FallsBack (db : Db) (payment : RazorpayPayment) : Prop :=
  ∃ orderId, payment.orderId = some orderId ∧
    (∀ p ∈ db.payments.rows, p.providerRef ≠ some orderId) ∧
    ∃ p ∈ db.payments.rows, p.providerRef = some payment.id

/-- **The two lookups agree unless the match falls back to the id of a payment with an order.** -/
theorem lookupsAgree_iff (db : Db) (event : String) (payment : RazorpayPayment) :
    LookupsAgree db event payment ↔ ¬ FallsBack db payment := by
  simp only [LookupsAgree, findLocalPayment_eq_some, resolvedPayment_eq_some,
    extractEntityRef_synthetic]
  constructor
  · rintro h ⟨o, ho, hno, p, hp, href⟩
    have hrow := (h p).mp ⟨hp, Or.inr ⟨href, fun o' ho' q hq => ?_⟩⟩
    · rw [ho, Option.getD_some] at hrow
      exact hno p hp hrow.2.2
    · rw [ho] at ho'
      cases ho'
      exact hno q hq
  · intro h p
    constructor
    · rintro ⟨hp, ⟨o, ho, href⟩ | ⟨href, hno⟩⟩
      · exact ⟨hp, by simp, by rw [ho]; exact href⟩
      · cases horder : payment.orderId with
        | none => exact ⟨hp, by simp, href⟩
        | some o => exact absurd ⟨o, horder, hno o horder, p, hp, href⟩ h
    · rintro ⟨hp, -, href⟩
      cases horder : payment.orderId with
      | none =>
        rw [horder] at href
        refine ⟨hp, Or.inr ⟨href, ?_⟩⟩
        intro o ho
        cases ho
      | some o =>
        rw [horder] at href
        exact ⟨hp, Or.inl ⟨o, rfl, href⟩⟩

/-- The pending row of a checkout whose reference is a payment id. -/
def paymentIdRow : Payment where
  id := 1
  subscriptionId := 1
  amountMinor := 49900
  currency := "INR"
  provider := "razorpay"
  providerRef := some "pay_xyz"
  gatewayPaymentId := none
  status := .pending
  createdAt := 0

/-- The payment is listed with an `order_id` that no row has. -/
theorem lookups_disagree : ¬ ∀ (db : Db) (payment : RazorpayPayment),
    LookupsAgree db "payment.captured" payment ∧ LookupsAgree db "payment.failed" payment := by
  intro h
  have hagree := (h (run step .empty [sampleCheckout "pay_xyz"])
    { id := "pay_xyz", orderId := some "order_abc", status := "captured" }).1 paymentIdRow
  have hresolved := hagree.mp (by decide)
  revert hresolved
  decide

/-! ## What a pass heals -/

/-- A call that reports the record as healed leaves the matched row with the reported status. -/
def HealsWhatItSays (db : Db) (x : RazorpayPayment × CallEnv) : Prop :=
  (reconcileOne db x.2 x.1).1 = .ok true →
    ∃ p status, findLocalPayment db x.1 = .ok (some p) ∧
      mapRazorpayPaymentStatus x.1.status = some status ∧
      ∃ q ∈ (reconcileOne db x.2 x.1).2.payments.rows, q.id = p.id ∧ q.status = status

/-- The records of two passes, with what the first one reads besides the database. -/
def firstPass (payments : List (RazorpayPayment × CallEnv × CallEnv)) :
    List (RazorpayPayment × CallEnv) :=
  payments.map fun x => (x.1, x.2.1)

/-- The same records with what the second one reads. -/
def secondPass (payments : List (RazorpayPayment × CallEnv × CallEnv)) :
    List (RazorpayPayment × CallEnv) :=
  payments.map fun x => (x.1, x.2.2)

theorem exists_row_iff_statusOf {db : Db} {id : ℕ} {status : PaymentStatus} :
    (∃ q ∈ db.payments.rows, q.id = id ∧ q.status = status) ↔ statusOf db id = some status := by
  simp [statusOf, Table.get?_eq_some, and_assoc]

theorem healsWhatItSays_iff {db : Db} {x : RazorpayPayment × CallEnv} :
    HealsWhatItSays db x ↔ Healable db x.1 := by
  unfold HealsWhatItSays
  simp only [exists_row_iff_statusOf]
  cases hout : outOfSync db x.1 with
  | none =>
    refine iff_of_true (fun h => absurd h (reconcileOne_of_inSync hout).1) ?_
    simp [Healable, hout]
  | some y =>
    obtain ⟨p, status⟩ := y
    obtain ⟨hmatched, hne⟩ := outOfSync_eq_some.mp hout
    obtain ⟨hstatus, hfind⟩ := matched_eq_some.mp hmatched
    by_cases hheal : Healable db x.1
    · refine iff_of_true (fun hok => ⟨p, status, hfind, hstatus, ?_⟩) hheal
      have hfree : ¬ Stopped db x.2 x.1 := fun h => (reconcileOne_of_stopped h).1 hok
      rw [(reconcileOne_of_healable hout hheal hfree).2.statusOf,
        statusOf_of_mem (matched_mem hmatched)]
      simp [written_some]
    · refine iff_of_false ?_ hheal
      intro h
      obtain ⟨hok, hold⟩ := reconcileOne_of_not_healable x.2 hout hheal
      obtain ⟨p', status', hfind', hstatus', hrow⟩ := h hok
      rw [hfind] at hfind'
      cases hfind'
      rw [hstatus] at hstatus'
      cases hstatus'
      rw [hold] at hrow
      exact hne (Option.some.inj hrow)

/-- After an unhindered pass, the second pass heals nothing if and only if the reports agree. -/
theorem settled_secondPass_iff {db : Db} {payments : List (RazorpayPayment × CallEnv × CallEnv)}
    (h : EveryStep passStep Unhindered db (firstPass payments)) :
    EveryStep passStep Settled (run passStep db (firstPass payments)) (secondPass payments) ↔
      ReportsAgree db (payments.map Prod.fst) := by
  have hrecords : (firstPass payments).map Prod.fst = payments.map Prod.fst := by
    simp [firstPass]
  rw [everyStep_settled_iff, ← hrecords, ← inSync_run_iff h]
  · simp only [firstPass, secondPass, List.forall_mem_map]
  · intro x hx
    obtain ⟨y, hy, rfl⟩ := List.mem_map.mp hx
    exact not_stopped_run (x := (y.1, y.2.1)) h (List.mem_map.mpr ⟨y, hy, rfl⟩) y.2.2

/--
**A pass heals what it says, and a second one has nothing left to heal, exactly when** each
record can be healed in its turn and is in sync or stopped when it comes again. Where no
unique index stops an activation of the first pass, the latter says that the records agree.
-/
theorem reconcileOnce_heals_iff (db : Db)
    (payments : List (RazorpayPayment × CallEnv × CallEnv)) :
    (EveryStep passStep HealsWhatItSays db (firstPass payments) ∧
        (reconcileOnce (reconcileOnce db (firstPass payments)).2 (secondPass payments)).1.healed =
          0 ↔
      EveryStep passStep (fun db x => Healable db x.1) db (firstPass payments) ∧
        EveryStep passStep Settled (reconcileOnce db (firstPass payments)).2
          (secondPass payments)) ∧
    (EveryStep passStep Unhindered db (firstPass payments) ∧
        EveryStep passStep Settled (reconcileOnce db (firstPass payments)).2
          (secondPass payments) ↔
      EveryStep passStep Unhindered db (firstPass payments) ∧
        ReportsAgree db (payments.map Prod.fst)) := by
  rw [healed_eq_zero_iff, reconcileOnce_eq_run_passStep]
  constructor
  · exact and_congr_left fun _ => EveryStep.congr fun _ _ => healsWhatItSays_iff
  · exact and_congr_right settled_secondPass_iff

/-- A first try of the order that failed, listed after a second one was captured. -/
def failedTry : RazorpayPayment :=
  { id := "pay_first", orderId := some "order_1", status := "failed" }

/-- The order, paid. -/
def paidOrder : List Request :=
  [sampleCheckout "order_1",
   .webhook (sampleDelivery 1 "evt_1" (samplePayload "payment.captured"
     [("payment", [("id", .string "pay_second"), ("order_id", .string "order_1")])]))]

/-- The captured row is reported as healed to failed, by each pass again. -/
theorem reconcile_reports_unhealed :
    (¬ ∀ rs env payment, HealsWhatItSays (run step .empty rs) (payment, env)) ∧
      ¬ ∀ rs payments, (reconcileOnce (reconcileOnce (run step .empty rs) (firstPass payments)).2
        (secondPass payments)).1.healed = 0 := by
  constructor
  · intro h
    have hstays : ∀ q ∈ (reconcileOne (run step .empty paidOrder) (sampleEnv 2)
        failedTry).2.payments.rows, q.status = .succeeded := by decide
    obtain ⟨p, status, -, hstatus, q, hq, -, hqs⟩ :=
      h paidOrder (sampleEnv 2) failedTry (by decide)
    rw [hstays q hq] at hqs
    subst hqs
    cases hstatus
  · intro h
    have hsecond := h paidOrder [(failedTry, sampleEnv 2, sampleEnv 3)]
    revert hsecond
    decide

end LicenseServer
