import BankStatementProcessor.LicenseServer.Server

/-!
# Billing periods

`one_period_iff` — when a further activation event with a gateway payment id that has already
been applied leaves `licenses.expires_at` and `subscriptions.current_period_end` alone.
-/

namespace LicenseServer

open Infra

/-! ## Periods -/

def licensePeriods (db : Db) : List (ℕ × Option Timestamp) :=
  db.licenses.rows.map fun l => (l.id, l.expiresAt)

def subscriptionPeriods (db : Db) : List (ℕ × Option Timestamp) :=
  db.subscriptions.rows.map fun s => (s.id, s.currentPeriodEnd)

/-- No `expires_at` and no `current_period_end` differs, and no licence is new. -/
def SamePeriods (db db' : Db) : Prop :=
  licensePeriods db' = licensePeriods db ∧ subscriptionPeriods db' = subscriptionPeriods db

instance (db db' : Db) : Decidable (SamePeriods db db') := by
  unfold SamePeriods
  infer_instance

theorem SamePeriods.of_sameAccounts {db db' : Db} (h : SameAccounts db db') :
    SamePeriods db db' := by
  simp only [SamePeriods, licensePeriods, subscriptionPeriods, h.licenses, h.subscriptions,
    and_self]

/-- What an activation of this account writes is what is stored already. -/
def PeriodStored (s : Subscription) (l : Option License) (e : Option Timestamp) : Prop :=
  s.currentPeriodEnd = e ∧ ∃ k, l = some k ∧ k.expiresAt = e

theorem samePeriods_activate_iff {db db' : Db} {env : CallEnv} {now : Timestamp} {s : Subscription}
    {p : Payment} {l : Option License} (h : AccountRows db s p l) {g : Option String}
    {e : Option Timestamp}
    (hdb : applyMutation db now (mutationOf db env s p (.captured g e)) = .ok db') :
    SamePeriods db db' ↔ PeriodStored s l e := by
  simp only [mutationOf, applyMutation, licenseMutation, h.findLatestBySubscription] at hdb
  split at hdb
  · cases hdb
  · next db₁ hact =>
    obtain ⟨-, -, hs, hl⟩ := activatePayment_eq_ok hact
    have hsub : (db₁.setSubscription now s.id .active e).subscriptions =
        db.subscriptions.modify s.id (Db.setStatusAndPeriod now .active e)
          (Db.setStatusAndPeriod_id now .active e) := by
      rw [Db.setSubscription_subscriptions, hs]
    have hlic : (db₁.setSubscription now s.id .active e).licenses = db.licenses := hl
    unfold SamePeriods PeriodStored licensePeriods subscriptionPeriods
    cases l with
    | none =>
      obtain ⟨-, hl', -, -⟩ := insertLicense_eq_ok hdb
      rw [hl', hlic]
      simp [Table.map_insert_ne]
    | some k =>
      cases hdb
      rw [Db.setLicense_licenses, Db.setLicense_subscriptions, hsub, hlic,
        Table.map_modify_eq_iff h.subscription rfl,
        Table.map_modify_eq_iff ((h.license k).mpr rfl).1 rfl]
      simp [Db.setStatusAndPeriod, Db.setStatusAndExpiry, and_comm, eq_comm]

/-! ## One delivery -/

/-- An activation-shaped event that carries the gateway payment id `g`. -/
def CarriesCharge (d : Delivery) (g : String) : Prop :=
  (eventKind d.payload.event).Activates ∧ extractEntityId d.payload.payload "payment" = some g

/-- The event activates, and the period end it computes is not the one stored. -/
def Renews (db : Db) (d : Delivery) : Prop :=
  ∃ s p, ActivationApplies db d s p ∧
    ¬ PeriodStored s (db.findLatestBySubscription s.id)
      ((planDuration s.planType).map (d.env.now + ·))

/-- An activation-shaped event leaves the periods alone exactly when it does not renew. -/
theorem samePeriods_deliver_iff {I : Account → Prop} {db : Db} {d : Delivery} (h : Accounts I db)
    (hk : (eventKind d.payload.event).Activates) :
    SamePeriods db (deliver db d) ↔ ¬ Renews db d := by
  by_cases hcommits : Commits db d
  · rcases hcommits.cases with
      ⟨s, p, event, howns, hev, haccepted, c, hsame, happly⟩ | ⟨hsame, hrefused⟩
    · obtain ⟨s', l, hrows, -⟩ := h.of_payment howns.payment
      obtain rfl : s' = s := db.subscriptions.eq_of_key hrows.subscription howns.subscription
        (hrows.id_eq.symm.trans howns.id_eq)
      obtain ⟨g, e, rfl⟩ : ∃ g e, event = .captured g e := by
        have htold := (accountEvent_eq_some.mp hev).2
        have hcaptured : toldEvent d.env s'.planType d.payload = some (.captured _ _) :=
          toldEvent_eq_some.mpr ⟨hk, rfl, rfl⟩
        rw [htold] at hcaptured
        exact ⟨_, _, Option.some.inj hcaptured⟩
      have hc := samePeriods_activate_iff (hrows.of_sameAccounts hsame) happly
      have hsamec : SamePeriods db (deliver db d) ↔ SamePeriods c (deliver db d) := by
        simp only [SamePeriods, licensePeriods, subscriptionPeriods, hsame.licenses,
          hsame.subscriptions]
      have he := (accountEvent_eq_captured.mp hev).2.2.2
      rw [hsamec, hc, he]
      constructor
      · rintro hstored ⟨s₁, p₁, hact, hnot⟩
        have hp : p₁ = p := names_unique hact.2.1.payment howns.payment hact.2.2.1
          (accountEvent_eq_some.mp hev).1.1
        subst hp
        obtain rfl : s₁ = s' := db.subscriptions.eq_of_key hact.2.1.subscription
          hrows.subscription (hact.2.1.id_eq.symm.trans hrows.id_eq)
        rw [hrows.findLatestBySubscription] at hnot
        exact hnot hstored
      · intro hnot
        by_contra hstored
        refine hnot ⟨s', p, activationApplies_iff.mpr ⟨howns, hcommits, _, _, hev, haccepted⟩, ?_⟩
        rw [hrows.findLatestBySubscription]
        exact hstored
    · -- the payment refused the event, so the periods stay and nothing was activated
      refine iff_of_true (.of_sameAccounts hsame) ?_
      rintro ⟨s, p, hact, -⟩
      obtain ⟨howns, -, g, e, hev, hopen⟩ := activationApplies_iff.mp hact
      exact hopen (hrefused s p _ howns hev)
  · rw [deliver_of_not_commits hcommits]
    refine iff_of_true ⟨rfl, rfl⟩ ?_
    rintro ⟨s, p, hact, -⟩
    exact hcommits (activationApplies_iff.mp hact).2.1

/-! ## Runs -/

/-- The event carries a gateway payment id of which an activation was applied before. -/
def RepeatsCharge (pre : List Request) (d : Delivery) : Prop :=
  ∃ g, CarriesCharge d g ∧ ∃ pre₁ r pre₂ d₀, pre = pre₁ ++ r :: pre₂ ∧
    r.delivery (run step .empty pre₁) = some d₀ ∧ CarriesCharge d₀ g ∧
    ∃ s p, ActivationApplies (run step .empty pre₁) d₀ s p

/-- No repeated charge of the run changes a billing period. -/
def OnePeriodPerCharge (rs : List Request) : Prop :=
  ∀ pre r post d, rs = pre ++ r :: post → r.delivery (run step .empty pre) = some d →
    RepeatsCharge pre d → SamePeriods (run step .empty pre) (run step .empty (pre ++ [r]))

/-- **A run buys one period a charge exactly when no repeated charge of it renews.** -/
theorem one_period_iff (rs : List Request) :
    OnePeriodPerCharge rs ↔
      ∀ pre r post d, rs = pre ++ r :: post → r.delivery (run step .empty pre) = some d →
        RepeatsCharge pre d → ¬ Renews (run step .empty pre) d := by
  have hstep : ∀ pre r d, r.delivery (run step .empty pre) = some d → RepeatsCharge pre d →
      (SamePeriods (run step .empty pre) (run step .empty (pre ++ [r])) ↔
        ¬ Renews (run step .empty pre) d) := by
    rintro pre r d hd ⟨g, ⟨hk, -⟩, -⟩
    rw [run_append, run_cons, run_nil, step_of_delivery hd]
    exact samePeriods_deliver_iff (accounts_paid pre) hk
  constructor
  · intro h pre r post d hrs hd hrep
    exact (hstep pre r d hd hrep).mp (h pre r post d hrs hd hrep)
  · intro h pre r post d hrs hd hrep
    exact (hstep pre r d hd hrep).mpr (h pre r post d hrs hd hrep)

/-- One charge, told as `subscription.activated`, and a day later as `subscription.charged`. -/
def chargedTwice : List Request :=
  [sampleCheckout "sub_1",
   .webhook (sampleDelivery 1 "evt_1" (sampleCharge "subscription.activated" "sub_1" "pay_1")),
   .webhook (sampleDelivery (days 1) "evt_2"
    (sampleCharge "subscription.charged" "sub_1" "pay_1"))]

theorem chargedTwice_renews : ¬ ∀ rs, OnePeriodPerCharge rs := by
  intro h
  have hrep : RepeatsCharge (chargedTwice.take 2) (sampleDelivery (days 1) "evt_2"
      (sampleCharge "subscription.charged" "sub_1" "pay_1")) := by
    refine ⟨"pay_1", ⟨by decide, by decide⟩, [sampleCheckout "sub_1"], _, [], _, rfl, rfl,
      ⟨by decide, by decide⟩, ?_⟩
    have happlies : ∃ s ∈ (run step .empty [sampleCheckout "sub_1"]).subscriptions.rows,
        ∃ p ∈ (run step .empty [sampleCheckout "sub_1"]).payments.rows,
          ActivationApplies (run step .empty [sampleCheckout "sub_1"])
            (sampleDelivery 1 "evt_1" (sampleCharge "subscription.activated" "sub_1" "pay_1")) s p := by
      decide
    obtain ⟨s, -, p, -, h⟩ := happlies
    exact ⟨s, p, h⟩
  have := h chargedTwice (chargedTwice.take 2) _ [] _ rfl rfl hrep
  exact absurd this (by decide)

end LicenseServer
