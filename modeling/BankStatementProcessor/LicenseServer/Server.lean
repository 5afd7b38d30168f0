import BankStatementProcessor.LicenseServer.AccountRefinement

/-!
# Runs of the server

A run is a list of requests, each completed before the next one starts: checkouts, webhook
deliveries and, one payment at a time, reconciliation passes. Their inputs are arbitrary.

In every state a run reaches, a subscription is vacant or has exactly one payment and at
most one live licence, and what the account events keep, the run keeps
(`Accounts.step`).
-/

namespace LicenseServer

open Infra

/-! ## Deliveries -/

/-- A webhook event as `process_webhook_event` is called with it. -/
structure Delivery where
  env : CallEnv
  eventId : String
  payload : RazorpayWebhookPayload

def deliver (db : Db) (d : Delivery) : Db :=
  (processWebhookEvent db d.env d.eventId d.payload).2

/-- The event is new and its transaction goes through. -/
def Commits (db : Db) (d : Delivery) : Prop :=
  ∃ m c db', resolveEvent db d.env d.payload = .ok m ∧
    db.claim d.env.txNow (newEvent d.eventId d.payload) = some c ∧
    applyMutation c d.env.txNow m = .ok db'

section

variable {db db' c : Db} {d : Delivery} {s : Subscription} {p : Payment} {l : Option License}

theorem deliver_of_not_commits (h : ¬ Commits db d) : deliver db d = db := by
  obtain ⟨m, hm, -⟩ := resolveEvent_resolution db d.env d.payload
  unfold deliver processWebhookEvent
  rw [hm]
  dsimp only
  unfold claimAndApply
  cases hclaim : db.claim d.env.txNow (newEvent d.eventId d.payload) with
  | none => rfl
  | some c =>
    cases happly : applyMutation c d.env.txNow m with
    | error e => simp only [happly]
    | ok db' => exact absurd ⟨m, c, db', hm, hclaim, happly⟩ h

theorem deliver_eq {m : WebhookMutation} (hm : resolveEvent db d.env d.payload = .ok m)
    (hclaim : db.claim d.env.txNow (newEvent d.eventId d.payload) = some c)
    (happly : applyMutation c d.env.txNow m = .ok db') : deliver db d = db' := by
  simp only [deliver, processWebhookEvent, claimAndApply, hm, hclaim, happly]

/-- A committed delivery applies the mutation of an accepted event, or none. -/
theorem Commits.cases (h : Commits db d) :
    (∃ s p event, Owns db s p ∧ accountEvent d.env s p d.payload = some event ∧
        ¬ Refused p.status event ∧ ∃ c, SameAccounts db c ∧
          applyMutation c d.env.txNow (mutationOf c d.env s p event) = .ok (deliver db d)) ∨
      SameAccounts db (deliver db d) ∧
        ∀ s p event, Owns db s p → accountEvent d.env s p d.payload = some event →
          Refused p.status event := by
  obtain ⟨m, c, db', hm, hclaim, happly⟩ := h
  rw [deliver_eq hm hclaim happly]
  have hsame := claim_sameAccounts hclaim
  cases resolution_of_resolveEvent hm with
  | acts howns hev haccepted =>
    refine Or.inl ⟨_, _, _, howns, hev, haccepted, c, hsame, ?_⟩
    rw [mutationOf_congr hsame]
    exact happly
  | ignored hrefused =>
    cases happly
    exact Or.inr ⟨hsame, hrefused⟩

/--
**A delivery refines a step of each account**: the event the payload tells about the
account's payment when the delivery commits, and no event when it does not.
-/
theorem processWebhookEvent_account (h : AccountRows db s p l) :
    (¬ Commits db d ∧ AccountRows (deliver db d) s p l) ∨
      (Commits db d ∧ AccountAfter (deliver db d) s p
        ((account s p l).stepOption (accountEvent d.env s p d.payload))) := by
  by_cases hcommits : Commits db d
  · refine Or.inr ⟨hcommits, ?_⟩
    rcases hcommits.cases with
      ⟨s₀, p₀, event, howns, hev, haccepted, c, hsame, happly⟩ | ⟨hsame, hrefused⟩
    · by_cases hid : s₀.id = s.id
      · -- the event is about this account
        obtain rfl : p₀ = p := h.payment_unique p₀ howns.payment (howns.id_eq.trans hid)
        obtain rfl : s₀ = s := db.subscriptions.eq_of_key howns.subscription h.subscription hid
        rw [hev]
        exact (h.of_sameAccounts hsame).applyMutation haccepted happly
      · have hnone : accountEvent d.env s p d.payload = none := by
          by_contra hsome
          obtain ⟨event', hev'⟩ := Option.ne_none_iff_exists'.mp hsome
          have hp : p₀ = p := names_unique howns.payment h.payment
            (accountEvent_eq_some.mp hev).1.1 (accountEvent_eq_some.mp hev').1.1
          subst hp
          exact hid (howns.id_eq.symm.trans h.id_eq)
        -- the event is about another account, which frames this one
        have htouch := applyMutation_onlyTouches (howns.of_sameAccounts hsame) happly
        rw [hnone]
        exact ⟨s, p, l, (h.of_sameAccounts hsame).of_onlyTouches htouch (Ne.symm hid), .refl s p,
          rfl⟩
    · -- nothing was written; an event of this account would be a step that stutters
      refine ⟨s, p, l, h.of_sameAccounts hsame, .refl s p, ?_⟩
      cases hev : accountEvent d.env s p d.payload with
      | none => rfl
      | some event =>
        exact (Account.step_of_refused (a := account s p l)
          (hrefused s p event h.toOwns hev)).symm
  · rw [deliver_of_not_commits hcommits]
    exact Or.inl ⟨hcommits, h⟩

/-- The claim of a committed delivery found no row for its event. -/
theorem Commits.not_processed (h : Commits db d) : ¬ db.EventProcessed provider d.eventId := by
  obtain ⟨m, c, db', -, hclaim, -⟩ := h
  unfold Db.claim at hclaim
  split at hclaim
  · cases hclaim
  · next hnew => exact hnew

theorem exists_claim (hnew : ¬ db.EventProcessed provider d.eventId) :
    ∃ c, db.claim d.env.txNow (newEvent d.eventId d.payload) = some c := by
  unfold Db.claim
  exact ⟨_, dif_neg hnew⟩

/-- The event was processed before, or its transaction goes through now. -/
theorem processWebhookEvent_eq_ok : (processWebhookEvent db d.env d.eventId d.payload).1 = .ok () ↔
    db.EventProcessed provider d.eventId ∨ Commits db d := by
  obtain ⟨m, hm, -⟩ := resolveEvent_resolution db d.env d.payload
  unfold processWebhookEvent
  rw [hm]
  dsimp only
  unfold claimAndApply
  cases hclaim : db.claim d.env.txNow (newEvent d.eventId d.payload) with
  | none =>
    have hold : db.EventProcessed provider d.eventId := by
      by_contra hnew
      obtain ⟨c, hc⟩ := exists_claim hnew
      rw [hclaim] at hc
      cases hc
    exact iff_of_true rfl (Or.inl hold)
  | some c =>
    cases happly : applyMutation c d.env.txNow m with
    | ok db' =>
      simp only [happly, true_iff]
      exact Or.inr ⟨m, c, db', hm, hclaim, happly⟩
    | error e =>
      simp only [happly, reduceCtorEq, false_iff, not_or]
      constructor
      · intro hold
        unfold Db.claim at hclaim
        split at hclaim
        · cases hclaim
        · next hnew => exact hnew hold
      · rintro ⟨m', c', db', hm', hclaim', happly'⟩
        rw [hm] at hm'
        cases hm'
        rw [hclaim] at hclaim'
        cases hclaim'
        rw [happly] at happly'
        cases happly'

/-- Only an activation has statements that can fail. -/
theorem commits_of_accountEvent {event : AccountEvent} (howns : Owns db s p)
    (hnew : ¬ db.EventProcessed provider d.eventId)
    (hev : accountEvent d.env s p d.payload = some event) (haccepted : ¬ Refused p.status event)
    (hcapture : ∀ g e, event ≠ .captured g e) : Commits db d := by
  obtain ⟨c, hclaim⟩ := exists_claim hnew
  have hm := resolveEvent_of_accountEvent howns hev haccepted
  have happly : ∃ db', applyMutation c d.env.txNow (mutationOf db d.env s p event) = .ok db' := by
    cases event with
    | captured g e => exact absurd rfl (hcapture g e)
    | halted =>
      simp only [mutationOf, applyMutation]
      split <;> exact ⟨_, rfl⟩
    | cancelled =>
      simp only [mutationOf, applyMutation]
      split <;> exact ⟨_, rfl⟩
    | failed => exact ⟨_, rfl⟩
    | refunded => exact ⟨_, rfl⟩
    | disputed => exact ⟨_, rfl⟩
    | disputeWon => exact ⟨_, rfl⟩
    | disputeLost => exact ⟨_, rfl⟩
  obtain ⟨db', happly⟩ := happly
  exact ⟨_, c, db', hm, hclaim, happly⟩

/-- An accepted capture commits unless the event is known or a unique index stops it. -/
theorem commits_captured_iff {g : Option String} {e : Option Timestamp} (howns : Owns db s p)
    (hev : accountEvent d.env s p d.payload = some (.captured g e))
    (haccepted : ¬ Refused p.status (.captured g e)) :
    Commits db d ↔ ¬ db.EventProcessed provider d.eventId ∧ ¬ db.GatewayPaymentIdTaken p.id g ∧
      LicenseKeyFree db d.env s.id := by
  have hm := resolveEvent_of_accountEvent howns hev haccepted
  have happly : ∀ c, SameAccounts db c →
      ((∃ db', applyMutation c d.env.txNow (mutationOf db d.env s p (.captured g e)) = .ok db') ↔
        ¬ db.GatewayPaymentIdTaken p.id g ∧ LicenseKeyFree db d.env s.id) := by
    intro c hsame
    rw [← mutationOf_congr hsame, exists_applyMutation_captured_iff (howns.of_sameAccounts hsame)]
    simp only [Db.GatewayPaymentIdTaken, LicenseKeyFree, Db.findLatestBySubscription,
      hsame.payments, hsame.licenses]
  constructor
  · intro h
    refine ⟨h.not_processed, ?_⟩
    obtain ⟨m, c, db', hm', hclaim, hdb'⟩ := h
    rw [hm] at hm'
    cases hm'
    exact (happly c (claim_sameAccounts hclaim)).mp ⟨db', hdb'⟩
  · rintro ⟨hnew, hfree⟩
    obtain ⟨c, hclaim⟩ := exists_claim hnew
    obtain ⟨db', hdb'⟩ := (happly c (claim_sameAccounts hclaim)).mpr hfree
    exact ⟨_, c, db', hm, hclaim, hdb'⟩

/-- The activation the event asks for is carried out: the event is new, it names a payment
that is neither refunded nor disputed, reports no other amount or currency, and no unique
index is in the way. -/
def ActivationApplies (db : Db) (d : Delivery) (s : Subscription) (p : Payment) : Prop :=
  (eventKind d.payload.event).Activates ∧ Owns db s p ∧ Names d.payload p ∧
    Reports d.payload p ∧ ¬ (p.status = .refunded ∨ p.status = .disputed) ∧
    ¬ db.EventProcessed provider d.eventId ∧
    ¬ db.GatewayPaymentIdTaken p.id (extractEntityId d.payload.payload "payment") ∧
    LicenseKeyFree db d.env s.id

instance (db : Db) (d : Delivery) (s : Subscription) (p : Payment) :
    Decidable (ActivationApplies db d s p) := by
  unfold ActivationApplies
  infer_instance

theorem activationApplies_iff :
    ActivationApplies db d s p ↔ Owns db s p ∧ Commits db d ∧
      ∃ g e, accountEvent d.env s p d.payload = some (.captured g e) ∧
        ¬ Refused p.status (.captured g e) := by
  constructor
  · rintro ⟨hk, howns, hnames, hreports, hopen, hnew, hfree, hkey⟩
    have hev : accountEvent d.env s p d.payload = some (.captured _ _) :=
      accountEvent_eq_captured.mpr ⟨hk, ⟨hnames, hreports⟩, rfl, rfl⟩
    exact ⟨howns, (commits_captured_iff howns hev hopen).mpr ⟨hnew, hfree, hkey⟩, _, _, hev, hopen⟩
  · rintro ⟨howns, hcommits, g, e, hev, hopen⟩
    obtain ⟨hnew, hfree, hkey⟩ := (commits_captured_iff howns hev hopen).mp hcommits
    obtain ⟨hk, ⟨hnames, hreports⟩, rfl, rfl⟩ := accountEvent_eq_captured.mp hev
    exact ⟨hk, howns, hnames, hreports, hopen, hnew, hfree, hkey⟩

theorem Vacant.of_onlyTouches {sid : ℕ} (h : Vacant db s) (ht : OnlyTouches sid db db')
    (hne : s.id ≠ sid) : Vacant db' s where
  payments := by
    intro q hq hqs
    exact h.payments q ((ht.payments q (by rw [hqs]; exact hne)).mp hq) hqs
  licenses := by
    intro k hk hks
    exact h.licenses k ((ht.licenses k (by rw [hks]; exact hne)).mp hk) hks

theorem Vacant.of_sameAccounts (h : Vacant db s) (hsame : SameAccounts db db') : Vacant db' s where
  payments := by
    rw [hsame.payments]
    exact h.payments
  licenses := by
    rw [hsame.licenses]
    exact h.licenses

theorem vacant_deliver (h : Vacant db s) : Vacant (deliver db d) s := by
  by_cases hcommits : Commits db d
  · rcases hcommits.cases with ⟨s₀, p₀, event, howns, -, -, c, hsame, happly⟩ | ⟨hsame, -⟩
    · have hne : s.id ≠ s₀.id := fun hid =>
        h.payments p₀ howns.payment (howns.id_eq.trans hid.symm)
      exact (h.of_sameAccounts hsame).of_onlyTouches
        (applyMutation_onlyTouches (howns.of_sameAccounts hsame) happly) hne
    · exact h.of_sameAccounts hsame
  · rw [deliver_of_not_commits hcommits]
    exact h

/-- A delivery inserts and deletes no subscription. -/
theorem exists_of_mem_deliver {s' : Subscription} (h : s' ∈ (deliver db d).subscriptions.rows) :
    ∃ s ∈ db.subscriptions.rows, s.id = s'.id := by
  by_cases hcommits : Commits db d
  · rcases hcommits.cases with ⟨s₀, p₀, event, howns, -, -, c, hsame, happly⟩ | ⟨hsame, -⟩
    · by_cases hid : s'.id = s₀.id
      · exact ⟨s₀, howns.subscription, hid.symm⟩
      · have htouch := applyMutation_onlyTouches (howns.of_sameAccounts hsame) happly
        have hc := (htouch.subscriptions s' hid).mp h
        rw [hsame.subscriptions] at hc
        exact ⟨s', hc, rfl⟩
    · rw [hsame.subscriptions] at h
      exact ⟨s', h, rfl⟩
  · rw [deliver_of_not_commits hcommits] at h
    exact ⟨s', h, rfl⟩

end

/-! ## Checkouts -/

section

variable {db : Db} {now : Timestamp} {userId : ℕ} {planTypeStr : String}
  {gateway : CreateCheckoutRequest → Except String CreateCheckoutResponse}

/-- No row refers to the subscription id the sequence gives out next. -/
theorem vacant_nextId {s : Subscription} (h : s.id = db.subscriptions.nextId) : Vacant db s where
  payments := by
    intro q hq hqs
    obtain ⟨s', hs', hid⟩ := db.payment_subscription q hq
    have := db.subscriptions.below s' hs'
    omega
  licenses := by
    intro k hk hks
    obtain ⟨s', hs', hid⟩ := db.license_subscription k hk
    have := db.subscriptions.below s' hs'
    omega

theorem vacant_insertSubscription {new : NewSubscription} {s : Subscription} (h : Vacant db s) :
    Vacant (db.insertSubscription now new) s :=
  ⟨h.payments, h.licenses⟩

theorem accountRows_insertPayment {db' : Db} {s : Subscription} {new : NewPayment}
    (hs : s ∈ db.subscriptions.rows) (hvacant : Vacant db s) (hid : new.subscriptionId = s.id)
    (h : db.insertPayment now new = .ok db') :
    AccountRows db' s (Db.newPayment now new db.payments.nextId) none := by
  obtain ⟨hp, hsub, hl⟩ := insertPayment_eq_ok h
  refine ⟨⟨by rw [hsub]; exact hs, by rw [hp]; exact Table.mem_insert.mpr (Or.inr rfl), hid⟩,
    ?_, ?_⟩
  · intro q hq hqs
    rw [hp, Table.mem_insert] at hq
    rcases hq with hq | rfl
    · exact absurd hqs (hvacant.payments q hq)
    · rfl
  · intro k
    rw [hl]
    constructor
    · rintro ⟨hk, hks, -⟩
      exact absurd hks (hvacant.licenses k hk)
    · intro hk
      cases hk

/-- A checkout leaves the other subscriptions alone, and its own vacant or initial. -/
theorem createCheckoutSession_accounts {db' : Db}
    (h : (createCheckoutSession db now userId planTypeStr gateway).2 = db') :
    OnlyTouches db.subscriptions.nextId db db' ∧
      ∀ s ∈ db'.subscriptions.rows, s ∈ db.subscriptions.rows ∨
        s.id = db.subscriptions.nextId ∧
          (Vacant db' s ∨ ∃ p, AccountRows db' s p none ∧
            account s p none = .initial p.amountMinor p.currency) := by
  subst h
  unfold createCheckoutSession
  cases PlanType.fromStr planTypeStr with
  | none => exact ⟨.refl db, fun s hs => Or.inl hs⟩
  | some planType =>
    dsimp only
    generalize hnew : NewSubscription.mk userId planType .pendingPayment now none true = new
    have htouch : OnlyTouches db.subscriptions.nextId db (db.insertSubscription now new) :=
      .insertSubscription
    have hvacant : Vacant (db.insertSubscription now new)
        (Db.newSubscription now new db.subscriptions.nextId) :=
      vacant_insertSubscription (vacant_nextId rfl)
    have hrows : ∀ s ∈ (db.insertSubscription now new).subscriptions.rows,
        s ∈ db.subscriptions.rows ∨ s = Db.newSubscription now new db.subscriptions.nextId :=
      fun s hs => (db.mem_insertSubscription).mp hs
    have hfailed : ∀ s ∈ (db.insertSubscription now new).subscriptions.rows,
        s ∈ db.subscriptions.rows ∨ s.id = db.subscriptions.nextId ∧
          (Vacant (db.insertSubscription now new) s ∨
            ∃ p, AccountRows (db.insertSubscription now new) s p none ∧
              account s p none = .initial p.amountMinor p.currency) := by
      intro s hs
      rcases hrows s hs with hs | rfl
      · exact Or.inl hs
      · exact Or.inr ⟨rfl, Or.inl hvacant⟩
    split
    · exact ⟨htouch, hfailed⟩
    · split
      · exact ⟨htouch, hfailed⟩
      · next db' hdb' =>
        refine ⟨htouch.trans (.insertPayment hdb'), ?_⟩
        intro s hs
        rw [(insertPayment_eq_ok hdb').2.1] at hs
        rcases hrows s hs with hs' | rfl
        · exact Or.inl hs'
        · refine Or.inr ⟨rfl, Or.inr ⟨_, accountRows_insertPayment hs hvacant rfl hdb', ?_⟩⟩
          subst hnew
          rfl

end

/-! ## Requests -/

inductive Request
  | checkout (now : Timestamp) (userId : ℕ) (planTypeStr : String)
      (gateway : CreateCheckoutRequest → Except String CreateCheckoutResponse)
  | webhook (d : Delivery)
  /-- One payment of a reconciliation pass. -/
  | reconcile (env : CallEnv) (payment : RazorpayPayment)

def step (db : Db) : Request → Db
  | .checkout now userId planTypeStr gateway =>
    (createCheckoutSession db now userId planTypeStr gateway).2
  | .webhook d => deliver db d
  | .reconcile env payment => (reconcileOne db env payment).2

/-- The event with which `reconcile_one` heals a payment, when it does. -/
def healing (db : Db) (env : CallEnv) (payment : RazorpayPayment) : Option Delivery :=
  match mapRazorpayPaymentStatus payment.status, findLocalPayment db payment with
  | some razorpayStatus, .ok (some localPayment) =>
    if localPayment.status = razorpayStatus then none
    else (healingEvent razorpayStatus).map fun event =>
      { env
        eventId := s!"reconcile:{localPayment.id}:{payment.status}:{payment.id}"
        payload := syntheticPayload event payment }
  | _, _ => none

/-- The webhook event a request processes. -/
def Request.delivery (db : Db) : Request → Option Delivery
  | .checkout _ _ _ _ => none
  | .webhook d => some d
  | .reconcile env payment => healing db env payment

theorem reconcileOne_eq (db : Db) (env : CallEnv) (payment : RazorpayPayment) :
    (reconcileOne db env payment).2 = (healing db env payment).elim db (deliver db) := by
  unfold reconcileOne healing
  cases mapRazorpayPaymentStatus payment.status with
  | none => rfl
  | some razorpayStatus =>
    dsimp only
    cases findLocalPayment db payment with
    | error e => rfl
    | ok localPayment? =>
      cases localPayment? with
      | none => rfl
      | some localPayment =>
        dsimp only
        split
        · rfl
        · cases healingEvent razorpayStatus with
          | none => rfl
          | some event =>
            simp only [Option.map_some, Option.elim_some, deliver]
            generalize processWebhookEvent db env _ (syntheticPayload event payment) = r
            obtain ⟨outcome, db'⟩ := r
            cases outcome <;> rfl

theorem step_of_delivery {db : Db} {r : Request} {d : Delivery} (h : r.delivery db = some d) :
    step db r = deliver db d := by
  cases r with
  | checkout now userId planTypeStr gateway => cases h
  | webhook d' =>
    cases h
    rfl
  | reconcile env payment =>
    simp only [Request.delivery] at h
    simp only [step, reconcileOne_eq, h, Option.elim_some]

/-- A reconciliation pass is the run of its payments. -/
theorem reconcileOnce_eq_run (db : Db) (payments : List (RazorpayPayment × CallEnv)) :
    (reconcileOnce db payments).2 =
      run step db (payments.map fun (payment, env) => .reconcile env payment) := by
  unfold reconcileOnce
  generalize ({ checked := payments.length, healed := 0 } : ReconciliationSummary) = summary
  induction payments generalizing db summary with
  | nil => rfl
  | cons head tail ih =>
    obtain ⟨payment, env⟩ := head
    rw [List.foldl_cons, List.map_cons, run_cons]
    rcases hone : reconcileOne db env payment with ⟨healed, db'⟩
    have hstep : step db (.reconcile env payment) = db' := by simp only [step, hone]
    rw [hstep]
    dsimp only
    rw [hone]
    split
    · next h =>
      cases h
      exact ih _ _
    · next h =>
      cases h
      exact ih _ _

/-! ## Accounts along a run -/

/-- **A request is a stutter or a step of each account.** -/
theorem step_account {db : Db} {s : Subscription} {p : Payment} {l : Option License}
    (h : AccountRows db s p l) (r : Request) :
    ∃ event, AccountAfter (step db r) s p ((account s p l).stepOption event) ∧
      ∀ ev, event = some ev → ∃ d, r.delivery db = some d ∧ Commits db d ∧
        accountEvent d.env s p d.payload = some ev := by
  have hstutter : ∀ db', AccountRows db' s p l →
      AccountAfter db' s p ((account s p l).stepOption none) := fun _ h' =>
    ⟨s, p, l, h', .refl s p, rfl⟩
  have hdeliver : ∀ d, r.delivery db = some d → ∃ event,
      AccountAfter (deliver db d) s p ((account s p l).stepOption event) ∧
        ∀ ev, event = some ev → ∃ d, r.delivery db = some d ∧ Commits db d ∧
          accountEvent d.env s p d.payload = some ev := by
    intro d hd
    rcases processWebhookEvent_account (d := d) h with ⟨-, h'⟩ | ⟨hcommits, hafter⟩
    · exact ⟨none, hstutter _ h', by simp⟩
    · exact ⟨_, hafter, fun ev hev => ⟨d, hd, hcommits, hev⟩⟩
  cases r with
  | checkout now userId planTypeStr gateway =>
    obtain ⟨htouch, -⟩ := createCheckoutSession_accounts rfl
    have hne : s.id ≠ db.subscriptions.nextId := (db.subscriptions.below s h.subscription).ne
    exact ⟨none, hstutter _ (h.of_onlyTouches htouch hne), by simp⟩
  | webhook d => exact hdeliver d rfl
  | reconcile env payment =>
    simp only [step, reconcileOne_eq]
    cases hheal : healing db env payment with
    | none => exact ⟨none, hstutter _ h, by simp⟩
    | some d => exact hdeliver d hheal

/-- A delivery that commits is a step of the account it tells about. -/
theorem step_account_of_commits {db : Db} {s : Subscription} {p : Payment} {l : Option License}
    (h : AccountRows db s p l) {r : Request} {d : Delivery} (hd : r.delivery db = some d)
    (hcommits : Commits db d) {event : AccountEvent}
    (hev : accountEvent d.env s p d.payload = some event) :
    AccountAfter (step db r) s p ((account s p l).step event) := by
  rw [step_of_delivery hd]
  rcases processWebhookEvent_account (d := d) h with ⟨hno, -⟩ | ⟨-, hafter⟩
  · exact absurd hcommits hno
  · rw [hev] at hafter
    exact hafter

theorem AccountAfter.trans {db : Db} {s s' : Subscription} {p p' : Payment} {a : Account}
    (hcont : Continues s p s' p') (h : AccountAfter db s' p' a) : AccountAfter db s p a := by
  obtain ⟨s'', p'', l'', hrows, hcont', ha⟩ := h
  exact ⟨s'', p'', l'', hrows, hcont.trans hcont', ha⟩

/-- The server simulates each account it has. -/
theorem simulates_account (s : Subscription) (p : Payment) :
    Simulates step Account.step (fun db a => AccountAfter db s p a) := by
  rintro db r a ⟨s', p', l', hrows, hcont, rfl⟩
  obtain ⟨event, hafter, -⟩ := step_account hrows r
  refine ⟨event.toList, ?_⟩
  cases event with
  | none => exact hafter.trans hcont
  | some event => exact hafter.trans hcont

/-- Whatever requests come in, the account goes through a run of the abstract machine. -/
theorem run_account {db : Db} {s : Subscription} {p : Payment} {l : Option License}
    (h : AccountRows db s p l) (rs : List Request) :
    ∃ events, AccountAfter (run step db rs) s p (run Account.step (account s p l) events) :=
  simulates_run (simulates_account s p) rs ⟨s, p, l, h, .refl s p, rfl⟩

/-- Every subscription is vacant, or an account of which `I` holds. -/
def Accounts (I : Account → Prop) (db : Db) : Prop :=
  ∀ s ∈ db.subscriptions.rows, Vacant db s ∨ ∃ p l, AccountRows db s p l ∧ I (account s p l)

section

variable {I : Account → Prop} {db : Db}

theorem accounts_empty : Accounts I .empty := by
  intro s hs
  cases hs

theorem Accounts.deliver (h : Accounts I db) {d : Delivery}
    (hI : ∀ s p l, AccountRows db s p l → I (account s p l) → Commits db d →
      I ((account s p l).stepOption (accountEvent d.env s p d.payload))) :
    Accounts I (deliver db d) := by
  intro s' hs'
  obtain ⟨s, hs, hid⟩ := exists_of_mem_deliver hs'
  rcases h s hs with hvacant | ⟨p, l, hrows, hacc⟩
  · left
    have := vacant_deliver (d := d) hvacant
    exact ⟨by rw [← hid]; exact this.payments, by rw [← hid]; exact this.licenses⟩
  · right
    rcases processWebhookEvent_account (d := d) hrows with ⟨-, hrows'⟩ | ⟨hcommits, hafter⟩
    · obtain rfl := (LicenseServer.deliver db d).subscriptions.eq_of_key hs' hrows'.subscription
        hid.symm
      exact ⟨p, l, hrows', hacc⟩
    · obtain ⟨s'', p'', l'', hrows'', hcont, haccount⟩ := hafter
      obtain rfl := (LicenseServer.deliver db d).subscriptions.eq_of_key hs' hrows''.subscription
        (hid.symm.trans hcont.subscriptionId.symm)
      refine ⟨p'', l'', hrows'', ?_⟩
      rw [haccount]
      exact hI s p l hrows hacc hcommits

/-- A live licence is that of its subscription's account. -/
theorem Accounts.of_license (h : Accounts I db) {k : License} (hk : k ∈ db.licenses.rows) :
    ∃ s p l, AccountRows db s p l ∧ s.id = k.subscriptionId ∧ I (account s p l) ∧
      (k.Live → l = some k) := by
  obtain ⟨s, hs, hid⟩ := db.license_subscription k hk
  rcases h s hs with hvacant | ⟨p, l, hrows, hI⟩
  · exact absurd hid.symm (hvacant.licenses k hk)
  · exact ⟨s, p, l, hrows, hid, hI, fun hlive => (hrows.license k).mp ⟨hk, hid.symm, hlive⟩⟩

theorem Accounts.of_payment (h : Accounts I db) {q : Payment} (hq : q ∈ db.payments.rows) :
    ∃ s l, AccountRows db s q l ∧ I (account s q l) := by
  obtain ⟨s, hs, hid⟩ := db.payment_subscription q hq
  rcases h s hs with hvacant | ⟨p, l, hrows, hI⟩
  · exact absurd hid.symm (hvacant.payments q hq)
  · obtain rfl := hrows.payment_unique q hq hid.symm
    exact ⟨s, l, hrows, hI⟩

/-- **What the checkout establishes and each committed event keeps, each request keeps.** -/
theorem Accounts.step (h : Accounts I db) (hinitial : ∀ amountMinor currency, I (.initial amountMinor currency)) {r : Request}
    (hI : ∀ d, r.delivery db = some d → ∀ s p l, AccountRows db s p l → I (account s p l) →
      Commits db d → I ((account s p l).stepOption (accountEvent d.env s p d.payload))) :
    Accounts I (step db r) := by
  cases r with
  | checkout now userId planTypeStr gateway =>
    obtain ⟨htouch, hrows⟩ := createCheckoutSession_accounts rfl
    intro s hs
    rcases hrows s hs with hs | ⟨-, hvacant | ⟨p, hp, hinit⟩⟩
    · have hne : s.id ≠ db.subscriptions.nextId := (db.subscriptions.below s hs).ne
      rcases h s hs with hvacant | ⟨p, l, hp, hacc⟩
      · exact Or.inl (hvacant.of_onlyTouches htouch hne)
      · exact Or.inr ⟨p, l, hp.of_onlyTouches htouch hne, hacc⟩
    · exact Or.inl hvacant
    · refine Or.inr ⟨p, none, hp, ?_⟩
      rw [hinit]
      exact hinitial _ _
  | webhook d => exact h.deliver (hI d rfl)
  | reconcile env payment =>
    simp only [LicenseServer.step, reconcileOne_eq]
    cases hheal : healing db env payment with
    | none => exact h
    | some d => exact h.deliver (hI d hheal)

/-- An invariant of the account is one of every run. -/
theorem accounts_run (hinitial : ∀ amountMinor currency, I (.initial amountMinor currency))
    (hI : ∀ a event, I a → I (a.stepOption event)) (rs : List Request) :
    Accounts I (run LicenseServer.step .empty rs) :=
  invariant_run (fun _ _ h => h.step hinitial fun _ _ _ _ _ _ hacc _ => hI _ _ hacc) rs
    accounts_empty

/-- In every state of a run each subscription that got its payment is an account, and paid. -/
theorem accounts_paid (rs : List Request) :
    Accounts Account.Paid (run LicenseServer.step .empty rs) :=
  accounts_run Account.paid_initial (fun _ event h => Account.paid_stepOption h event) rs

end

/-! ## Inputs for runs on fixed events -/

section Samples

/-- One clock for the resolver and the transaction, and the same draws every time. -/
def sampleEnv (now : Timestamp) : CallEnv := { now, rng := fun _ => 0, txNow := now }

/-- A monthly checkout that the gateway answers with this reference. -/
def sampleCheckout (providerRef : String) : Request :=
  .checkout 0 1 "monthly" fun _ => .ok { checkoutUrl := "https://rzp.io/i/1", providerRef }

/-- A payload with these entities and their fields. -/
def samplePayload (event : String) (entities : List (String × List (String × JsonValue))) :
    RazorpayWebhookPayload :=
  { event
    payload := .object (entities.map fun (key, fields) =>
      (key, .object [("entity", .object fields)])) }

def sampleDelivery (now : Timestamp) (eventId : String) (payload : RazorpayWebhookPayload) :
    Delivery :=
  { env := sampleEnv now, eventId, payload }

/-- A subscription event that carries the charge it is about. -/
def sampleCharge (event providerRef gatewayPaymentId : String) : RazorpayWebhookPayload :=
  samplePayload event
    [("subscription", [("id", .string providerRef)]),
     ("payment", [("id", .string gatewayPaymentId), ("amount", .number (.int 49900)),
       ("currency", .string "INR")])]

/-- A subscription event without a charge. -/
def sampleSubscription (event providerRef : String) : RazorpayWebhookPayload :=
  samplePayload event [("subscription", [("id", .string providerRef)])]

/-- A refund or dispute event of a gateway payment. -/
def sampleReversal (event gatewayPaymentId : String) : RazorpayWebhookPayload :=
  samplePayload event [("payment", [("id", .string gatewayPaymentId)])]

def sampleDisputeClosed (status gatewayPaymentId : String) : RazorpayWebhookPayload :=
  samplePayload "payment.dispute.closed"
    [("dispute", [("status", .string status)]), ("payment", [("id", .string gatewayPaymentId)])]

end Samples

end LicenseServer
