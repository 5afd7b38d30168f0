import BankStatementProcessor.LicenseServer.Interleaving

/-!
# A reconciliation pass

`matched` is the local row a payment record is about, with the status the record reports, and
`outOfSync` the same for a record whose report differs from the row. `Healable` says that the
synthetic event is new, names that very row and is accepted by it, `Stopped` that a unique
index is in the way of its activation. With these `reconcileOne` is known in every case.
-/

namespace LicenseServer

open Infra

/-- The row a record is matched to, and the status it reports for it. -/
def matched (db : Db) (payment : RazorpayPayment) : Option (Payment × PaymentStatus) :=
  match mapRazorpayPaymentStatus payment.status, findLocalPayment db payment with
  | some status, .ok (some p) => some (p, status)
  | _, _ => none

def outOfSync (db : Db) (payment : RazorpayPayment) : Option (Payment × PaymentStatus) :=
  (matched db payment).filter fun x => x.1.status ≠ x.2

def reconcileEventId (p : Payment) (payment : RazorpayPayment) : String :=
  s!"reconcile:{p.id}:{payment.status}:{payment.id}"

/-- The synthetic event for `status` is looked up to the row. -/
def SyntheticNames (payment : RazorpayPayment) (status : PaymentStatus) (p : Payment) : Prop :=
  if status = .refunded then p.gatewayPaymentId = some payment.id
  else p.providerRef = some (payment.orderId.getD payment.id)

instance (payment : RazorpayPayment) (status : PaymentStatus) (p : Payment) :
    Decidable (SyntheticNames payment status p) := by
  unfold SyntheticNames
  infer_instance

/-- The event that reports `status` takes effect on a row that has `local`. -/
def Accepts (status localStatus : PaymentStatus) : Prop :=
  (status = .succeeded → localStatus ≠ .refunded ∧ localStatus ≠ .disputed) ∧
    (status = .failed → localStatus = .pending)

instance (status localStatus : PaymentStatus) : Decidable (Accepts status localStatus) := by
  unfold Accepts
  infer_instance

/-- The synthetic event of a record that is out of sync is new, and about the matched row. -/
def Healable (db : Db) (payment : RazorpayPayment) : Prop :=
  ∀ x ∈ outOfSync db payment, ¬ db.EventProcessed provider (reconcileEventId x.1 payment) ∧
    SyntheticNames payment x.2 x.1 ∧ Accepts x.2 x.1.status

instance (db : Db) (payment : RazorpayPayment) : Decidable (Healable db payment) := by
  unfold Healable
  infer_instance

/-- The activation that would heal the record violates a unique index. -/
def Stopped (db : Db) (env : CallEnv) (payment : RazorpayPayment) : Prop :=
  ∃ x ∈ outOfSync db payment, x.2 = .succeeded ∧
    (¬ db.EventProcessed provider (reconcileEventId x.1 payment) ∧
      SyntheticNames payment x.2 x.1 ∧ Accepts x.2 x.1.status) ∧
    (db.GatewayPaymentIdTaken x.1.id (some payment.id) ∨
      ¬ LicenseKeyFree db env x.1.subscriptionId)

/-! ## The record and the row -/

section

variable {db : Db} {payment : RazorpayPayment} {p : Payment} {status : PaymentStatus}

theorem matched_eq_some : matched db payment = some (p, status) ↔
    mapRazorpayPaymentStatus payment.status = some status ∧
      findLocalPayment db payment = .ok (some p) := by
  unfold matched
  cases mapRazorpayPaymentStatus payment.status with
  | none => simp
  | some status' =>
    cases findLocalPayment db payment with
    | error e => simp
    | ok row => cases row <;> simp [and_comm]

theorem outOfSync_eq_some : outOfSync db payment = some (p, status) ↔
    matched db payment = some (p, status) ∧ p.status ≠ status := by
  simp [outOfSync, Option.filter_eq_some_iff]

theorem healable_of_outOfSync (h : outOfSync db payment = some (p, status)) :
    Healable db payment ↔ ¬ db.EventProcessed provider (reconcileEventId p payment) ∧
      SyntheticNames payment status p ∧ Accepts status p.status := by
  simp [Healable, h]

/-- Every status a record can report has its event. -/
theorem exists_healingEvent (h : mapRazorpayPaymentStatus payment.status = some status) :
    ∃ event, healingEvent status = some event := by
  unfold mapRazorpayPaymentStatus at h
  split_ifs at h <;> cases h <;> exact ⟨_, rfl⟩

theorem findLocalPayment_eq_some : findLocalPayment db payment = .ok (some p) ↔
    p ∈ db.payments.rows ∧ ((∃ orderId, payment.orderId = some orderId ∧
        p.providerRef = some orderId) ∨
      p.providerRef = some payment.id ∧ ∀ orderId, payment.orderId = some orderId →
        ∀ q ∈ db.payments.rows, q.providerRef ≠ some orderId) := by
  have hid : db.findByProviderRef payment.id = .ok (some p) ↔
      p ∈ db.payments.rows ∧ p.providerRef = some payment.id := Db.findByProviderRef_eq_some
  unfold findLocalPayment
  cases horder : payment.orderId with
  | none => simp [hid]
  | some orderId =>
    dsimp only
    rcases db.findByProviderRef_cases orderId with ⟨q, hq, href, hfind⟩ | ⟨hno, hfind⟩
    · rw [hfind]
      constructor
      · intro h
        cases h
        exact ⟨hq, Or.inl ⟨orderId, rfl, href⟩⟩
      · rintro ⟨hp, ⟨o, ho, hpo⟩ | ⟨-, hno⟩⟩
        · cases ho
          rw [db.providerRef_unique q hq p hp orderId href hpo]
        · exact absurd href (hno orderId rfl q hq)
    · rw [hfind, hid]
      constructor
      · rintro ⟨hp, href⟩
        refine ⟨hp, Or.inr ⟨href, ?_⟩⟩
        intro o ho
        cases ho
        exact hno
      · rintro ⟨hp, ⟨o, ho, hpo⟩ | ⟨href, -⟩⟩
        · cases ho
          exact absurd hpo (hno p hp)
        · exact ⟨hp, href⟩

/-- A record's capture or failure names the matched row, or no row. -/
theorem eq_of_syntheticNames {q : Payment} (h : findLocalPayment db payment = .ok (some p))
    (hq : q ∈ db.payments.rows) (hstatus : status ≠ .refunded)
    (hnames : SyntheticNames payment status q) : q = p := by
  obtain ⟨hp, hrow⟩ := findLocalPayment_eq_some.mp h
  rw [SyntheticNames, if_neg hstatus] at hnames
  rcases hrow with ⟨o, ho, href⟩ | ⟨href, hno⟩
  · rw [ho] at hnames
    exact db.providerRef_unique q hq p hp o hnames href
  · cases horder : payment.orderId with
    | none =>
      rw [horder] at hnames
      exact db.providerRef_unique q hq p hp payment.id hnames href
    | some o =>
      rw [horder] at hnames
      exact absurd hnames (hno o horder q hq)

end

/-! ## The synthetic event -/

/-- What the event for `status` tells of the row it names. -/
def syntheticEvent (env : CallEnv) (s : Subscription) (payment : RazorpayPayment) :
    PaymentStatus → AccountEvent
  | .succeeded => .captured (some payment.id) ((planDuration s.planType).map (env.now + ·))
  | .failed => .failed
  | _ => .refunded

section

variable {env : CallEnv} {s : Subscription} {p : Payment} {payment : RazorpayPayment}
  {status : PaymentStatus} {event : String}

theorem extractEntityRef_synthetic :
    extractEntityRef (syntheticPayload event payment).payload "payment" =
      some (payment.orderId.getD payment.id) := by
  cases horder : payment.orderId <;> simp [syntheticPayload, horder] <;> rfl

theorem extractEntityId_synthetic :
    extractEntityId (syntheticPayload event payment).payload "payment" = some payment.id := rfl

/-- It reports no amount, so there is nothing to compare. -/
theorem reports_synthetic : Reports (syntheticPayload event payment) p := by
  intro _
  cases horder : payment.orderId <;> rfl

theorem names_synthetic (hevent : healingEvent status = some event) :
    Names (syntheticPayload event payment) p ↔ SyntheticNames payment status p := by
  cases status with
  | pending => cases hevent
  | disputed => cases hevent
  | succeeded =>
    cases hevent
    have hk : eventKind (syntheticPayload "payment.captured" payment).event = .paymentCaptured := rfl
    simp [Names, eventRef, eventGatewayPaymentId, EventKind.ByGatewayPaymentId, hk,
      EventKind.refKey, extractEntityRef_synthetic, SyntheticNames]
  | failed =>
    cases hevent
    have hk : eventKind (syntheticPayload "payment.failed" payment).event = .paymentFailed := rfl
    simp [Names, eventRef, eventGatewayPaymentId, EventKind.ByGatewayPaymentId, hk,
      EventKind.refKey, extractEntityRef_synthetic, SyntheticNames]
  | refunded =>
    cases hevent
    have hk : eventKind (syntheticPayload "refund.created" payment).event = .refund := rfl
    simp [Names, eventRef, eventGatewayPaymentId, EventKind.ByGatewayPaymentId, hk,
      EventKind.refKey, extractEntityId_synthetic, SyntheticNames]

theorem accountEvent_synthetic {ev : AccountEvent} (hevent : healingEvent status = some event) :
    accountEvent env s p (syntheticPayload event payment) = some ev ↔
      SyntheticNames payment status p ∧ ev = syntheticEvent env s payment status := by
  have htold : toldEvent env s.planType (syntheticPayload event payment) =
      some (syntheticEvent env s payment status) := by
    cases status with
    | pending => cases hevent
    | disputed => cases hevent
    | succeeded => cases hevent; rfl
    | failed => cases hevent; rfl
    | refunded => cases hevent; rfl
  rw [accountEvent_eq_some, names_synthetic hevent, htold, Option.some.injEq]
  simp only [reports_synthetic, and_true]
  rw [eq_comm (a := ev)]

theorem refused_syntheticEvent (hevent : healingEvent status = some event) {old : PaymentStatus} :
    Refused old (syntheticEvent env s payment status) ↔ ¬ Accepts status old := by
  cases status with
  | pending => cases hevent
  | disputed => cases hevent
  | succeeded => simp [syntheticEvent, Refused, Accepts]; tauto
  | failed => simp [syntheticEvent, Refused, Accepts]
  | refunded => simp [syntheticEvent, Refused, Accepts]

/-- Carried out, the event writes the status it reports. -/
theorem paymentWrite_syntheticEvent (hevent : healingEvent status = some event) {db : Db} :
    (mutationOf db env s p (syntheticEvent env s payment status)).paymentWrite =
      some (p.id, status) := by
  cases status with
  | pending => cases hevent
  | disputed => cases hevent
  | succeeded => rfl
  | failed => rfl
  | refunded => rfl

end

/-! ## Payment rows after a delivery -/

/-- The status of the payment row `id`. -/
def statusOf (db : Db) (id : ℕ) : Option PaymentStatus := (db.payments.get? id).map Payment.status

theorem statusOf_of_mem {db : Db} {p : Payment} (hp : p ∈ db.payments.rows) :
    statusOf db p.id = some p.status := by
  rw [statusOf, Table.get?_eq_some.mpr ⟨hp, rfl⟩]
  rfl

theorem PaymentsWritten.statusOf {write : Option (ℕ × PaymentStatus)} {db db' : Db}
    (h : PaymentsWritten write db db') (id : ℕ) :
    statusOf db' id = (statusOf db id).map (written write id) := by
  obtain ⟨f, hrows, hf⟩ := h
  have hfind : db'.payments.get? id = (db.payments.get? id).map f := by
    simp only [Table.get?, hrows, List.find?_map, Function.comp_def, (hf _).1]
  rw [LicenseServer.statusOf, LicenseServer.statusOf, hfind]
  cases hget : db.payments.get? id with
  | none => rfl
  | some q =>
    obtain ⟨-, rfl⟩ := Table.get?_eq_some.mp hget
    simp only [Option.map_some, (hf q).2.2]

/-- References are not written, so a record stays matched to the same row. -/
theorem PaymentsWritten.findLocalPayment {write : Option (ℕ × PaymentStatus)} {db db' : Db}
    (h : PaymentsWritten write db db') (payment : RazorpayPayment) {id : ℕ} :
    (∃ p, findLocalPayment db' payment = .ok (some p) ∧ p.id = id) ↔
      ∃ p, findLocalPayment db payment = .ok (some p) ∧ p.id = id := by
  obtain ⟨f, hrows, hf⟩ := h
  simp only [findLocalPayment_eq_some, hrows, List.mem_map]
  constructor
  · rintro ⟨-, ⟨⟨p, hp, rfl⟩, hrow⟩, rfl⟩
    refine ⟨p, ⟨hp, ?_⟩, (hf p).1.symm⟩
    rw [(hf p).2.1] at hrow
    refine hrow.imp_right fun hid => ⟨hid.1, fun o ho q hq => ?_⟩
    rw [← (hf q).2.1]
    exact hid.2 o ho (f q) ⟨q, hq, rfl⟩
  · rintro ⟨p, ⟨hp, hrow⟩, rfl⟩
    refine ⟨f p, ⟨⟨p, hp, rfl⟩, ?_⟩, (hf p).1⟩
    rw [(hf p).2.1]
    refine hrow.imp_right fun hid => ⟨hid.1, fun o ho q hq => ?_⟩
    obtain ⟨q₀, hq₀, rfl⟩ := hq
    rw [(hf q₀).2.1]
    exact hid.2 o ho q₀ hq₀

section

variable {db : Db} {d : Delivery} {s : Subscription} {p : Payment} {ev : AccountEvent}

theorem deliver_paymentsWritten (howns : Owns db s p)
    (hev : accountEvent d.env s p d.payload = some ev) (haccepted : ¬ Refused p.status ev)
    (hcommits : Commits db d) :
    PaymentsWritten (mutationOf db d.env s p ev).paymentWrite db (deliver db d) := by
  obtain ⟨m, c, db', hm, hclaim, happly⟩ := hcommits
  rw [deliver_eq hm hclaim happly]
  rw [resolveEvent_of_accountEvent howns hev haccepted] at hm
  cases hm
  obtain ⟨f, hrows, hf⟩ := applyMutation_paymentsWritten happly
  exact ⟨f, by rw [hrows, (claim_sameAccounts hclaim).payments], hf⟩

/-- An event that every account refuses is claimed, and writes no payment. -/
theorem deliver_of_refused (h : ∀ s p event, Owns db s p →
      accountEvent d.env s p d.payload = some event → Refused p.status event)
    (hnew : ¬ db.EventProcessed provider d.eventId) :
    Commits db d ∧ PaymentsWritten none db (deliver db d) := by
  obtain ⟨c, hclaim⟩ := exists_claim hnew
  obtain ⟨m, hm, hres⟩ := resolveEvent_resolution db d.env d.payload
  cases hres with
  | acts howns hev haccepted => exact absurd (h _ _ _ howns hev) haccepted
  | ignored =>
    refine ⟨⟨.none, c, c, hm, hclaim, rfl⟩, ?_⟩
    rw [deliver_eq hm hclaim rfl]
    exact paymentsWritten_of_eq (claim_sameAccounts hclaim).payments

end

/-! ## One record -/

/-- The event a record that is out of sync is healed with. -/
def healingDelivery (env : CallEnv) (payment : RazorpayPayment) (p : Payment) (event : String) :
    Delivery :=
  { env, eventId := reconcileEventId p payment, payload := syntheticPayload event payment }

section

variable {db : Db} {env : CallEnv} {payment : RazorpayPayment} {p : Payment}
  {status : PaymentStatus}

theorem reconcileOne_of_inSync (h : outOfSync db payment = none) :
    (reconcileOne db env payment).1 ≠ .ok true ∧ (reconcileOne db env payment).2 = db := by
  unfold reconcileOne
  cases hstatus : mapRazorpayPaymentStatus payment.status with
  | none => simp
  | some status =>
    dsimp only
    cases hfind : findLocalPayment db payment with
    | error e => simp
    | ok row =>
      cases row with
      | none => simp
      | some p =>
        dsimp only
        by_cases hsync : p.status = status
        · simp [hsync]
        · have hout := outOfSync_eq_some.mpr ⟨matched_eq_some.mpr ⟨hstatus, hfind⟩, hsync⟩
          rw [h] at hout
          cases hout

theorem reconcileOne_of_outOfSync (env : CallEnv) (h : outOfSync db payment = some (p, status)) {event : String}
    (hevent : healingEvent status = some event) :
    (reconcileOne db env payment).2 = deliver db (healingDelivery env payment p event) ∧
      ((reconcileOne db env payment).1 = .ok true ↔
        db.EventProcessed provider (reconcileEventId p payment) ∨
          Commits db (healingDelivery env payment p event)) := by
  obtain ⟨hmatched, hne⟩ := outOfSync_eq_some.mp h
  obtain ⟨hstatus, hfind⟩ := matched_eq_some.mp hmatched
  rw [show db.EventProcessed provider (reconcileEventId p payment) =
    db.EventProcessed provider (healingDelivery env payment p event).eventId from rfl,
    ← processWebhookEvent_eq_ok]
  simp only [reconcileOne, hstatus, hfind, if_neg hne, hevent, deliver, healingDelivery,
    reconcileEventId]
  generalize processWebhookEvent db env _ (syntheticPayload event payment) = r
  obtain ⟨outcome, db'⟩ := r
  cases outcome <;> simp

/-- A record that can be healed and is not stopped is healed. -/
theorem reconcileOne_of_healable (h : outOfSync db payment = some (p, status))
    (hheal : Healable db payment) (hfree : ¬ Stopped db env payment) :
    (reconcileOne db env payment).1 = .ok true ∧
      PaymentsWritten (some (p.id, status)) db (reconcileOne db env payment).2 := by
  obtain ⟨hnew, hnames, haccepts⟩ := (healable_of_outOfSync h).mp hheal
  obtain ⟨hstatus, hfind⟩ := matched_eq_some.mp (outOfSync_eq_some.mp h).1
  obtain ⟨event, hevent⟩ := exists_healingEvent hstatus
  obtain ⟨s, howns⟩ := exists_owns (findLocalPayment_eq_some.mp hfind).1
  obtain ⟨hdb, hok⟩ := reconcileOne_of_outOfSync env h hevent
  have hev : accountEvent env s p (healingDelivery env payment p event).payload =
      some (syntheticEvent env s payment status) :=
    (accountEvent_synthetic hevent).mpr ⟨hnames, rfl⟩
  have haccepted : ¬ Refused p.status (syntheticEvent env s payment status) :=
    fun hrefused => (refused_syntheticEvent hevent).mp hrefused haccepts
  have hcommits : Commits db (healingDelivery env payment p event) := by
    by_cases hs : status = .succeeded
    · subst hs
      -- the unique indexes let the activation through
      refine (commits_captured_iff howns hev haccepted).mpr ⟨hnew, ?_, ?_⟩
      · intro htaken
        exact hfree ⟨_, h, rfl, ⟨hnew, hnames, haccepts⟩, Or.inl htaken⟩
      · by_contra hkey
        rw [← howns.id_eq] at hkey
        exact hfree ⟨_, h, rfl, ⟨hnew, hnames, haccepts⟩, Or.inr hkey⟩
    · refine commits_of_accountEvent howns hnew hev haccepted ?_
      cases status <;> simp_all [syntheticEvent]
  refine ⟨hok.mpr (Or.inr hcommits), ?_⟩
  rw [hdb, ← paymentWrite_syntheticEvent hevent]
  exact deliver_paymentsWritten howns hev haccepted hcommits

theorem reconcileOne_of_stopped (hfree : Stopped db env payment) :
    (reconcileOne db env payment).1 ≠ .ok true ∧ (reconcileOne db env payment).2 = db := by
  obtain ⟨⟨p, status⟩, h, rfl, ⟨hnew, hnames, haccepts⟩, hstop⟩ := hfree
  obtain ⟨hstatus, hfind⟩ := matched_eq_some.mp (outOfSync_eq_some.mp h).1
  obtain ⟨s, howns⟩ := exists_owns (findLocalPayment_eq_some.mp hfind).1
  have hevent : healingEvent .succeeded = some "payment.captured" := rfl
  obtain ⟨hdb, hok⟩ := reconcileOne_of_outOfSync env h hevent
  have hev : accountEvent env s p (healingDelivery env payment p "payment.captured").payload =
      some (syntheticEvent env s payment .succeeded) :=
    (accountEvent_synthetic hevent).mpr ⟨hnames, rfl⟩
  have haccepted : ¬ Refused p.status (syntheticEvent env s payment .succeeded) :=
    fun hrefused => (refused_syntheticEvent hevent).mp hrefused haccepts
  have hno : ¬ Commits db (healingDelivery env payment p "payment.captured") := by
    intro hcommits
    obtain ⟨-, hgateway, hkey⟩ := (commits_captured_iff howns hev haccepted).mp hcommits
    rw [← howns.id_eq] at hkey
    exact hstop.elim hgateway fun h => h hkey
  refine ⟨fun h => (hok.mp h).elim hnew hno, ?_⟩
  rw [hdb, deliver_of_not_commits hno]

/-- A record that cannot be healed is reported as healed, and its row stays as it is. -/
theorem reconcileOne_of_not_healable (env : CallEnv)
    (h : outOfSync db payment = some (p, status))
    (hheal : ¬ Healable db payment) :
    (reconcileOne db env payment).1 = .ok true ∧
      statusOf (reconcileOne db env payment).2 p.id = some p.status := by
  obtain ⟨hstatus, hfind⟩ := matched_eq_some.mp (outOfSync_eq_some.mp h).1
  obtain ⟨event, hevent⟩ := exists_healingEvent hstatus
  obtain ⟨hdb, hok⟩ := reconcileOne_of_outOfSync env h hevent
  have hp := (findLocalPayment_eq_some.mp hfind).1
  rw [hdb, hok]
  by_cases hnew : db.EventProcessed provider (reconcileEventId p payment)
  · -- the ledger knows the event already
    have hno : ¬ Commits db (healingDelivery env payment p event) := fun hc => hc.not_processed hnew
    rw [deliver_of_not_commits hno]
    exact ⟨Or.inl hnew, statusOf_of_mem hp⟩
  by_cases hq : ∃ s q, Owns db s q ∧ SyntheticNames payment status q ∧ Accepts status q.status
  · -- only a refund can be about another row than the matched one
    obtain ⟨s, q, howns, hnames, haccepts⟩ := hq
    have hne : q ≠ p := by
      rintro rfl
      exact hheal ((healable_of_outOfSync h).mpr ⟨hnew, hnames, haccepts⟩)
    have hrefunded : status = .refunded := by
      by_contra hs
      exact hne (eq_of_syntheticNames hfind howns.payment hs hnames)
    subst hrefunded
    have hev : accountEvent env s q (healingDelivery env payment p event).payload =
        some .refunded := (accountEvent_synthetic hevent).mpr ⟨hnames, rfl⟩
    have hcommits := commits_of_accountEvent howns hnew hev id (by simp)
    have hwritten := deliver_paymentsWritten howns hev id hcommits
    refine ⟨Or.inr hcommits, ?_⟩
    have hid : p.id ≠ q.id := fun hid => hne (db.payments.eq_of_key hp howns.payment hid).symm
    rw [hwritten.statusOf, statusOf_of_mem hp]
    simp [mutationOf, WebhookMutation.paymentWrite, written_some, hid]
  · push Not at hq
    have hrefused : ∀ s q ev, Owns db s q →
        accountEvent env s q (healingDelivery env payment p event).payload = some ev →
          Refused q.status ev := by
      intro s q ev howns hev
      obtain ⟨hnames, rfl⟩ := (accountEvent_synthetic hevent).mp hev
      exact (refused_syntheticEvent hevent).mpr (hq s q howns hnames)
    obtain ⟨hcommits, hwritten⟩ := deliver_of_refused hrefused hnew
    refine ⟨Or.inr hcommits, ?_⟩
    rw [hwritten.statusOf, statusOf_of_mem hp]
    rfl

end

/-! ## Passes -/

def passStep (db : Db) (x : RazorpayPayment × CallEnv) : Db := (reconcileOne db x.2 x.1).2

/-- The record is in sync, or stopped again. -/
def Settled (db : Db) (x : RazorpayPayment × CallEnv) : Prop :=
  outOfSync db x.1 = none ∨ Stopped db x.2 x.1

theorem settled_iff {db : Db} {x : RazorpayPayment × CallEnv} :
    (reconcileOne db x.2 x.1).1 ≠ .ok true ↔ Settled db x := by
  constructor
  · intro h
    cases hout : outOfSync db x.1 with
    | none => exact Or.inl hout
    | some y =>
      obtain ⟨p, status⟩ := y
      refine Or.inr ?_
      by_contra hfree
      by_cases hheal : Healable db x.1
      · exact h (reconcileOne_of_healable hout hheal hfree).1
      · exact h (reconcileOne_of_not_healable x.2 hout hheal).1
  · rintro (h | h)
    · exact (reconcileOne_of_inSync h).1
    · exact (reconcileOne_of_stopped h).1

theorem reconcileOnce_eq_run_passStep (db : Db) (payments : List (RazorpayPayment × CallEnv)) :
    (reconcileOnce db payments).2 = run passStep db payments := by
  rw [reconcileOnce_eq_run, run, run, List.foldl_map]
  rfl

/-- How many records one call reports as healed. -/
def healedBy (db : Db) (x : RazorpayPayment × CallEnv) : ℕ :=
  match (reconcileOne db x.2 x.1).1 with
  | .ok true => 1
  | _ => 0

theorem healedBy_eq_zero {db : Db} {x : RazorpayPayment × CallEnv} :
    healedBy db x = 0 ↔ Settled db x := by
  rw [← settled_iff]
  unfold healedBy
  split
  · next h => simp [h]
  · next h => exact iff_of_true rfl h

/-- One turn of the loop. -/
def passTurn (acc : ReconciliationSummary × Db) (x : RazorpayPayment × CallEnv) :
    ReconciliationSummary × Db :=
  ({ acc.1 with healed := acc.1.healed + healedBy acc.2 x }, passStep acc.2 x)

theorem reconcileOnce_eq_passTurn (db : Db) (payments : List (RazorpayPayment × CallEnv)) :
    reconcileOnce db payments =
      payments.foldl passTurn ({ checked := payments.length, healed := 0 }, db) := by
  unfold reconcileOnce
  congr 1
  funext acc x
  obtain ⟨summary, db⟩ := acc
  obtain ⟨payment, env⟩ := x
  simp only [passTurn, healedBy, passStep]
  rcases reconcileOne db env payment with ⟨_ | (_ | _), db'⟩ <;> rfl

/-- A pass heals nothing just in case no record of it does. -/
theorem healed_eq_zero_iff (db : Db) (payments : List (RazorpayPayment × CallEnv)) :
    (reconcileOnce db payments).1.healed = 0 ↔ EveryStep passStep Settled db payments := by
  rw [reconcileOnce_eq_passTurn]
  -- the count never shrinks
  suffices h : ∀ acc : ReconciliationSummary × Db,
      acc.1.healed ≤ (payments.foldl passTurn acc).1.healed ∧
        ((payments.foldl passTurn acc).1.healed = acc.1.healed ↔
          EveryStep passStep Settled acc.2 payments) from
    (h ({ checked := payments.length, healed := 0 }, db)).2
  clear db
  induction payments with
  | nil => exact fun acc => ⟨le_rfl, iff_of_true rfl trivial⟩
  | cons x payments ih =>
    intro acc
    obtain ⟨hle, hiff⟩ := ih (passTurn acc x)
    have hturn : (passTurn acc x).1.healed = acc.1.healed + healedBy acc.2 x := rfl
    rw [List.foldl_cons, EveryStep, ← healedBy_eq_zero]
    refine ⟨by omega, ?_⟩
    rw [show passStep acc.2 x = (passTurn acc x).2 from rfl, ← hiff]
    omega

/-! ## What a pass assigns -/

/-- The record heals or is in sync: nothing keeps the matched row from the reported status. -/
def Unhindered (db : Db) (x : RazorpayPayment × CallEnv) : Prop :=
  Healable db x.1 ∧ ¬ Stopped db x.2 x.1

/-- The assignment a record asks for. -/
def target (db : Db) (payment : RazorpayPayment) : Option (ℕ × Option PaymentStatus) :=
  (matched db payment).map fun x => (x.1.id, some x.2)

/-- Records that are matched to one row report one status for it. -/
def ReportsAgree (db : Db) (payments : List RazorpayPayment) : Prop :=
  ∀ x ∈ payments, ∀ y ∈ payments, ∀ p a b,
    matched db x = some (p, a) → matched db y = some (p, b) → a = b

section

variable {db : Db} {x : RazorpayPayment × CallEnv} {payment : RazorpayPayment}
  {w : ℕ × Option PaymentStatus}

theorem target_eq_some : target db payment = some w ↔
    ∃ p status, matched db payment = some (p, status) ∧ (p.id, some status) = w := by
  simp [target]

theorem matched_mem {p : Payment} {status : PaymentStatus}
    (h : matched db payment = some (p, status)) : p ∈ db.payments.rows :=
  (findLocalPayment_eq_some.mp (matched_eq_some.mp h).2).1

theorem outOfSync_eq_none_iff : outOfSync db payment = none ↔
    ∀ w ∈ target db payment, statusOf db w.1 = w.2 := by
  unfold outOfSync target
  cases hmatched : matched db payment with
  | none => simp
  | some y =>
    obtain ⟨p, status⟩ := y
    simp [statusOf_of_mem (matched_mem hmatched)]

/-- What an unhindered record does to the statuses and to the matching. -/
theorem passStep_view (h : Unhindered db x) :
    statusOf (passStep db x) = run assign (statusOf db) (target db x.1).toList ∧
      ∀ r, target (passStep db x) r = target db r := by
  cases hout : outOfSync db x.1 with
  | none =>
    have hdb : passStep db x = db := (reconcileOne_of_inSync hout).2
    rw [hdb]
    refine ⟨?_, fun _ => rfl⟩
    cases htarget : target db x.1 with
    | none => rfl
    | some w =>
      have hsync := outOfSync_eq_none_iff.mp hout w htarget
      simp only [Option.toList_some, run_cons, run_nil, assign]
      rw [← hsync, Function.update_eq_self]
  | some y =>
    obtain ⟨p, status⟩ := y
    obtain ⟨-, hwritten⟩ := reconcileOne_of_healable hout h.1 h.2
    have hmatched := (outOfSync_eq_some.mp hout).1
    constructor
    · have htarget : target db x.1 = some (p.id, some status) :=
        target_eq_some.mpr ⟨p, status, hmatched, rfl⟩
      funext id
      rw [htarget, passStep, hwritten.statusOf]
      simp only [Option.toList_some, run_cons, run_nil, assign]
      by_cases hid : id = p.id
      · subst hid
        rw [Function.update_self, statusOf_of_mem (matched_mem hmatched)]
        simp [written_some]
      · rw [Function.update_of_ne hid]
        cases statusOf db id <;> simp [written_some, hid]
    · intro r
      ext w
      simp only [target_eq_some, matched_eq_some]
      constructor
      · rintro ⟨q', a, ⟨ha, hq'⟩, rfl⟩
        obtain ⟨q, hq, hid⟩ := (hwritten.findLocalPayment r).mp ⟨q', hq', rfl⟩
        exact ⟨q, a, ⟨ha, hq⟩, by rw [hid]⟩
      · rintro ⟨q, a, ⟨ha, hq⟩, rfl⟩
        obtain ⟨q', hq', hid⟩ := (hwritten.findLocalPayment r).mpr ⟨q, hq, rfl⟩
        exact ⟨q', a, ⟨ha, hq'⟩, by rw [hid]⟩

variable {payments : List (RazorpayPayment × CallEnv)}

theorem target_run (h : EveryStep passStep Unhindered db payments) (r : RazorpayPayment) :
    target (run passStep db payments) r = target db r :=
  h.invariant (I := fun db' => ∀ r, target db' r = target db r)
    (fun _ _ hI hx r => ((passStep_view hx).2 r).trans (hI r)) (fun _ => rfl) r

/-- An unhindered pass assigns what its records report, one after the other. -/
theorem statusOf_run (h : EveryStep passStep Unhindered db payments) :
    statusOf (run passStep db payments) =
      run assign (statusOf db) (payments.filterMap fun x => target db x.1) :=
  h.run_view (I := fun db' => ∀ r, target db' r = target db r)
    (fun _ _ hI hx r => ((passStep_view hx).2 r).trans (hI r))
    (fun db' x hI hx => by rw [(passStep_view hx).1, hI]) (fun _ => rfl)

/-- Once it is reported as captured in a pass, a row can only be refunded. -/
theorem captured_or_refunded_run (h : EveryStep passStep Unhindered db payments) {id : ℕ}
    (hid : statusOf db id = some .succeeded ∨ statusOf db id = some .refunded) :
    statusOf (run passStep db payments) id = some .succeeded ∨
      statusOf (run passStep db payments) id = some .refunded := by
  refine h.invariant (I := fun db => statusOf db id = some .succeeded ∨
    statusOf db id = some .refunded) ?_ hid
  intro db x hid hx
  cases hout : outOfSync db x.1 with
  | none =>
    rw [show passStep db x = db from (reconcileOne_of_inSync hout).2]
    exact hid
  | some y =>
    obtain ⟨p, status⟩ := y
    obtain ⟨-, -, haccepts⟩ := (healable_of_outOfSync hout).mp hx.1
    obtain ⟨-, hwritten⟩ := reconcileOne_of_healable hout hx.1 hx.2
    have hmatched := (outOfSync_eq_some.mp hout).1
    rw [passStep, hwritten.statusOf]
    by_cases hp : id = p.id
    · subst hp
      rw [statusOf_of_mem (matched_mem hmatched)] at hid ⊢
      simp only [Option.some.injEq, Option.map_some, written_some, if_pos] at hid ⊢
      obtain ⟨hreport, -⟩ := matched_eq_some.mp hmatched
      -- a failure is accepted by a pending row only
      cases status with
      | succeeded => exact Or.inl rfl
      | refunded => exact Or.inr rfl
      | failed =>
        have := haccepts.2 rfl
        rcases hid with hid | hid <;> rw [this] at hid <;> cases hid
      | pending => obtain ⟨_, hevent⟩ := exists_healingEvent hreport; cases hevent
      | disputed => obtain ⟨_, hevent⟩ := exists_healingEvent hreport; cases hevent
    · rcases hid with hid | hid <;> rw [hid] <;> simp [written_some, hp]

/-- After an unhindered pass no unique index is in the way of any of its records. -/
theorem not_stopped_run (h : EveryStep passStep Unhindered db payments) (hx : x ∈ payments)
    (env : CallEnv) : ¬ Stopped (run passStep db payments) env x.1 := by
  rintro ⟨⟨p', status⟩, hout, rfl, ⟨-, -, haccepts⟩, -⟩
  obtain ⟨hmatched, hne⟩ := outOfSync_eq_some.mp hout
  obtain ⟨pre, post, rfl⟩ := List.append_of_mem hx
  have htarget : target (run passStep db (pre ++ x :: post)) x.1 = some (p'.id, some .succeeded) :=
    target_eq_some.mpr ⟨p', .succeeded, hmatched, rfl⟩
  rw [target_run h] at htarget
  obtain ⟨hpre, hx', hpost⟩ := EveryStep.append.mp h
  have hafter : statusOf (passStep (run passStep db pre) x) p'.id = some .succeeded := by
    rw [(passStep_view hx').1, target_run hpre, htarget]
    simp [assign]
  have hend := captured_or_refunded_run hpost (Or.inl hafter)
  rw [← run_cons, ← run_append, statusOf_of_mem (matched_mem hmatched)] at hend
  simp only [Option.some.injEq] at hend
  rcases hend with hend | hend
  · exact hne hend
  · exact (haccepts.1 rfl).1 hend

/-- A pass of records none of which is stopped is settled just in case all are in sync. -/
theorem everyStep_settled_iff (hfree : ∀ x ∈ payments, ¬ Stopped db x.2 x.1) :
    EveryStep passStep Settled db payments ↔ ∀ x ∈ payments, outOfSync db x.1 = none := by
  induction payments with
  | nil => simp [EveryStep]
  | cons x payments ih =>
    have hsettled : Settled db x ↔ outOfSync db x.1 = none :=
      or_iff_left (hfree x List.mem_cons_self)
    rw [EveryStep, hsettled, List.forall_mem_cons]
    refine and_congr_right fun hsync => ?_
    rw [show passStep db x = db from (reconcileOne_of_inSync hsync).2]
    exact ih fun y hy => hfree y (List.mem_cons_of_mem _ hy)

theorem reportsAgree_iff : ReportsAgree db (payments.map Prod.fst) ↔
    ∀ w ∈ payments.filterMap (fun x => target db x.1),
      ∀ w' ∈ payments.filterMap (fun x => target db x.1), w.1 = w'.1 → w.2 = w'.2 := by
  simp only [List.mem_filterMap, target_eq_some, ReportsAgree, List.mem_map]
  constructor
  · rintro h w ⟨x, hx, p, a, hp, rfl⟩ w' ⟨y, hy, q, b, hq, rfl⟩ hid
    have : p = q := db.payments.eq_of_key (matched_mem hp) (matched_mem hq) hid
    subst this
    rw [h x.1 ⟨x, hx, rfl⟩ y.1 ⟨y, hy, rfl⟩ p a b hp hq]
  · rintro h - ⟨x, hx, rfl⟩ - ⟨y, hy, rfl⟩ p a b hp hq
    have := h _ ⟨x, hx, p, a, hp, rfl⟩ _ ⟨y, hy, p, b, hq, rfl⟩ rfl
    exact Option.some.inj this

/-- After an unhindered pass all its records are in sync just in case their reports agree. -/
theorem inSync_run_iff (h : EveryStep passStep Unhindered db payments) :
    (∀ x ∈ payments, outOfSync (run passStep db payments) x.1 = none) ↔
      ReportsAgree db (payments.map Prod.fst) := by
  rw [reportsAgree_iff, ← run_assign_agree_iff (f := statusOf db)]
  simp only [outOfSync_eq_none_iff, target_run h, statusOf_run h, List.mem_filterMap]
  constructor
  · rintro hall w ⟨x, hx, hw⟩
    exact hall x hx w hw
  · intro hall x hx w hw
    exact hall w ⟨x, hx, hw⟩

end

end LicenseServer
