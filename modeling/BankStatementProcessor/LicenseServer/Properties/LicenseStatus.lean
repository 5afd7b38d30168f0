import BankStatementProcessor.LicenseServer.Server

/-!
# What an active licence says about payment and subscription

* `license_paid` — an active licence is paid for, and a suspended one is not refunded
* `active_license_iff` — an active licence belongs to an active subscription as long as no
  won dispute revives the licence of a halted subscription
-/

namespace LicenseServer

open Infra

/-! ## Payment -/

/--
**In every state of every run an active licence belongs to the one succeeded payment of its
subscription, and a suspended licence to a payment that is not refunded.**
-/
theorem license_paid (rs : List Request) :
    ∀ l ∈ (run step .empty rs).licenses.rows,
      ∃ p ∈ (run step .empty rs).payments.rows, p.subscriptionId = l.subscriptionId ∧
        (∀ q ∈ (run step .empty rs).payments.rows, q.subscriptionId = l.subscriptionId → q = p) ∧
        (l.status = .active → p.status = .succeeded) ∧
        (l.status = .suspended → p.status ≠ .refunded) := by
  intro k hk
  obtain ⟨s, p, l, hrows, hid, hpaid, hlive⟩ := (accounts_paid rs).of_license hk
  refine ⟨p, hrows.payment, hrows.id_eq.trans hid, ?_, ?_, ?_⟩
  · intro q hq hqs
    exact hrows.payment_unique q hq (hqs.trans hid.symm)
  · intro hactive
    have hl := hlive (by simp [License.Live, hactive])
    exact hpaid.active (by simp [account, Account.licenseStatus, hl, hactive])
  · intro hsuspended hrefunded
    have hl := hlive (by simp [License.Live, hsuspended])
    have := hpaid.refunded hrefunded
    simp [account, hl] at this

/-- Charged. -/
def charged : List Request :=
  [sampleCheckout "sub_1",
   .webhook (sampleDelivery 1 "evt_1" (sampleCharge "subscription.charged" "sub_1" "pay_1"))]

theorem license_paid_charged :
    ∃ l ∈ (run step .empty charged).licenses.rows, l.status = .active ∧
      ∃ p ∈ (run step .empty charged).payments.rows,
        p.subscriptionId = l.subscriptionId ∧ p.status = .succeeded := by
  obtain ⟨l, hl, hactive⟩ : ∃ l ∈ (run step .empty charged).licenses.rows, l.status = .active := by
    decide
  obtain ⟨p, hp, hid, -, hpaid, -⟩ := license_paid charged l hl
  exact ⟨l, hl, hactive, p, hp, hid, hpaid hactive⟩

/-! ## Subscription -/

/-- Every active licence belongs to an active subscription. -/
def ActiveLicensesEntitled (db : Db) : Prop :=
  ∀ l ∈ db.licenses.rows, l.status = .active →
    ∃ s ∈ db.subscriptions.rows, s.id = l.subscriptionId ∧ s.status = .active

instance (db : Db) : Decidable (ActiveLicensesEntitled db) := by
  unfold ActiveLicensesEntitled
  infer_instance

/-- A new `payment.dispute.closed` with outcome `won` names a payment whose subscription is
not active but still has a live licence. -/
def RevivesInactive (db : Db) (r : Request) : Prop :=
  ∃ d, r.delivery db = some d ∧ ¬ db.EventProcessed provider d.eventId ∧
    eventKind d.payload.event = .disputeClosed ∧
    merchantWon (extractDisputeStatus d.payload.payload) = some true ∧
    ∃ p ∈ db.payments.rows, CarriesGatewayPaymentId d.payload p ∧
      ∃ s ∈ db.subscriptions.rows, s.id = p.subscriptionId ∧ s.status ≠ .active ∧
        ∃ l ∈ db.licenses.rows, l.subscriptionId = s.id ∧ l.Live

theorem entitled_of_active {db : Db} (h : Accounts Account.Entitled db) :
    ActiveLicensesEntitled db := by
  intro k hk hactive
  obtain ⟨s, p, l, hrows, hid, hentitled, hlive⟩ := h.of_license hk
  have hl := hlive (by simp [License.Live, hactive])
  exact ⟨s, hrows.subscription, hid,
    hentitled (by simp [account, Account.licenseStatus, hl, hactive])⟩

/-- One request keeps the licences entitled unless it revives one. -/
theorem entitled_step {db : Db} {r : Request} (h : Accounts Account.Entitled db)
    (hr : ¬ RevivesInactive db r) : Accounts Account.Entitled (step db r) := by
  refine h.step Account.entitled_initial ?_
  intro d hd s p l hrows hentitled hcommits
  cases hev : accountEvent d.env s p d.payload with
  | none => exact hentitled
  | some event =>
    refine (Account.entitled_step_iff hentitled event).mpr ?_
    rintro ⟨rfl, hinactive, hlicense⟩
    obtain ⟨⟨hk, hwon⟩, hcarries⟩ := accountEvent_eq_disputeWon.mp hev
    obtain ⟨k, hl⟩ : ∃ k, l = some k := by
      cases l with
      | none => exact absurd rfl hlicense
      | some k => exact ⟨k, rfl⟩
    obtain ⟨hkm, hks, hlive⟩ := (hrows.license k).mpr hl
    exact hr ⟨d, hd, hcommits.not_processed, hk, hwon, p, hrows.payment, hcarries, s,
      hrows.subscription, hrows.id_eq.symm, hinactive, k, hkm, hks, hlive⟩

/-- The licence such a request revives is active afterwards. -/
theorem not_entitled_of_revives {I : Account → Prop} {db : Db} {r : Request} (h : Accounts I db)
    (hr : RevivesInactive db r) : ¬ ActiveLicensesEntitled (step db r) := by
  obtain ⟨d, hd, hnew, hk, hwon, p, hp, hcarries, s, hs, hid, hinactive, k, hkm, hks, hlive⟩ := hr
  obtain ⟨s', l, hrows, -⟩ := h.of_payment hp
  obtain rfl : s' = s := db.subscriptions.eq_of_key hrows.subscription hs
    (hrows.id_eq.symm.trans hid.symm)
  obtain rfl : l = some k := (hrows.license k).mp ⟨hkm, hks, hlive⟩
  have hev : accountEvent d.env s' p d.payload = some .disputeWon :=
    accountEvent_eq_disputeWon.mpr ⟨⟨hk, hwon⟩, hcarries⟩
  have hcommits : Commits db d :=
    commits_of_accountEvent hrows.toOwns hnew hev (fun h => h.elim) (by simp)
  obtain ⟨s₁, p₁, l₁, hrows₁, -, hacc⟩ := step_account_of_commits hrows hd hcommits hev
  -- the won dispute leaves the subscription as it is and makes the licence active
  have hsub : s₁.status = s'.status := congrArg Account.subscription hacc
  have hlicense : (account s₁ p₁ l₁).license = some { status := .active, expiresAt := k.expiresAt } :=
    congrArg Account.license hacc
  obtain ⟨k₁, hl₁, hk₁⟩ := Option.map_eq_some_iff.mp hlicense
  obtain ⟨hkm₁, hks₁, -⟩ := (hrows₁.license k₁).mpr hl₁
  intro hentitled
  obtain ⟨s₂, hs₂, hid₂, hactive⟩ := hentitled k₁ hkm₁ (congrArg AccountLicense.status hk₁)
  obtain rfl := (step db r).subscriptions.eq_of_key hs₂ hrows₁.subscription (hid₂.trans hks₁)
  exact hinactive (hsub ▸ hactive)

/--
**A run keeps every active licence on an active subscription exactly when none of its
requests revives the licence of an inactive one.**
-/
theorem active_license_iff (rs : List Request) :
    (∀ pre post, rs = pre ++ post → ActiveLicensesEntitled (run step .empty pre)) ↔
      EveryStep step (fun db r => ¬ RevivesInactive db r) .empty rs := by
  constructor
  · intro h
    rw [everyStep_iff]
    rintro pre r post rfl hr
    refine not_entitled_of_revives (accounts_paid pre) hr ?_
    have := h (pre ++ [r]) post (by simp)
    rwa [run_append] at this
  · rintro h pre post rfl
    have hpre := (EveryStep.append.mp h).1
    exact entitled_of_active (hpre.invariant (fun _ _ hI hr => entitled_step hI hr) accounts_empty)

/-- Charged, disputed, halted, and then the dispute is won. -/
def haltedThenWon : List Request :=
  [sampleCheckout "sub_1",
   .webhook (sampleDelivery 1 "evt_1" (sampleCharge "subscription.charged" "sub_1" "pay_1")),
   .webhook (sampleDelivery 2 "evt_2" (sampleReversal "payment.dispute.created" "pay_1")),
   .webhook (sampleDelivery 3 "evt_3" (sampleSubscription "subscription.halted" "sub_1")),
   .webhook (sampleDelivery 4 "evt_4" (sampleDisputeClosed "won" "pay_1"))]

theorem haltedThenWon_not_entitled :
    ¬ ∀ rs, ActiveLicensesEntitled (run step .empty rs) := by
  intro h
  exact absurd (h haltedThenWon) (by decide)

end LicenseServer
