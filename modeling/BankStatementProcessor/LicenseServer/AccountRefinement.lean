import BankStatementProcessor.LicenseServer.AccountRows

/-!
# The database refines the accounts

A delivered webhook does to the rows of each account what `Account.step` does to the account
when the payload names its payment and the transaction commits, and nothing otherwise
(`processWebhookEvent_account`).
-/

namespace LicenseServer

open Infra

/-! ## The licence a mutation was resolved with -/

section

variable {db c : Db} {env : CallEnv} {s : Subscription} {p : Payment}

theorem mutationOf_congr (h : SameAccounts db c) (event : AccountEvent) :
    mutationOf c env s p event = mutationOf db env s p event := by
  have hfind : c.findLatestBySubscription s.id = db.findLatestBySubscription s.id := by
    unfold Db.findLatestBySubscription
    rw [h.licenses]
  cases event <;>
    simp only [mutationOf, licenseMutation, affectedLicense, affectedLicenseStatusChange, hfind]

theorem Owns.of_sameAccounts (h : SameAccounts db c) (howns : Owns db s p) : Owns c s p where
  subscription := by
    rw [h.subscriptions]
    exact howns.subscription
  payment := by
    rw [h.payments]
    exact howns.payment
  id_eq := howns.id_eq

theorem Owns.subscriptionId_of_id (h : Owns db s p) :
    ∀ r ∈ db.payments.rows, r.id = p.id → r.subscriptionId = s.id := by
  intro r hr hid
  rw [db.payments.eq_of_key hr h.payment hid]
  exact h.id_eq

theorem subscriptionId_of_findLatest {sid : ℕ} {k : License}
    (h : db.findLatestBySubscription sid = some k) :
    ∀ r ∈ db.licenses.rows, r.id = k.id → r.subscriptionId = sid := by
  obtain ⟨hk, hks, -⟩ := Db.mem_of_findLatestBySubscription h
  intro r hr hid
  rw [db.licenses.eq_of_key hr hk hid]
  exact hks

end

/-! ## When an activation goes through -/

/-- A key is drawn only for a first licence, and then no licence has it yet. -/
def LicenseKeyFree (db : Db) (env : CallEnv) (sid : ℕ) : Prop :=
  db.findLatestBySubscription sid = none →
    ∀ l ∈ db.licenses.rows, l.licenseKey ≠ generateLicenseKey env.rng

instance (db : Db) (env : CallEnv) (sid : ℕ) : Decidable (LicenseKeyFree db env sid) := by
  unfold LicenseKeyFree
  infer_instance

/-- The two unique indexes are all that can stop an activation. -/
theorem exists_applyMutation_captured_iff {db : Db} {env : CallEnv} {s : Subscription}
    {p : Payment} {now : Timestamp} {g : Option String} {e : Option Timestamp}
    (howns : Owns db s p) :
    (∃ db', applyMutation db now (mutationOf db env s p (.captured g e)) = .ok db') ↔
      ¬ db.GatewayPaymentIdTaken p.id g ∧ LicenseKeyFree db env s.id := by
  simp only [mutationOf, applyMutation, licenseMutation]
  constructor
  · rintro ⟨db', h⟩
    split at h
    · cases h
    · next db₁ hact =>
      obtain ⟨hfree, -, -, hl⟩ := activatePayment_eq_ok hact
      refine ⟨hfree, fun hnone => ?_⟩
      simp only [hnone] at h
      have hkey := (insertLicense_eq_ok h).1
      rw [Db.setSubscription_licenses, hl] at hkey
      exact hkey
  · rintro ⟨hfree, hkey⟩
    obtain ⟨db₁, hact⟩ := exists_activatePayment hfree
    obtain ⟨-, -, hs, hl⟩ := activatePayment_eq_ok hact
    rw [hact]
    cases hfind : db.findLatestBySubscription s.id with
    | some k => exact ⟨_, rfl⟩
    | none =>
      dsimp only
      apply exists_insertLicense
      · rw [Db.setSubscription_subscriptions, hs]
        exact Table.exists_key_modify ⟨s, howns.subscription, rfl⟩
      · rw [Db.setSubscription_licenses, hl]
        exact hkey hfind

/-! ## Frame -/

section

variable {db db' : Db} {env : CallEnv} {s : Subscription} {p : Payment} {now : Timestamp}

theorem OnlyTouches.setAffectedLicense {sid : ℕ} {status : LicenseRecordStatus}
    (hl : db'.licenses = db.licenses) :
    OnlyTouches sid db' (db'.setAffectedLicense (affectedLicense db sid) status) := by
  unfold affectedLicense
  cases hfind : db.findLatestBySubscription sid with
  | none => exact .refl db'
  | some k =>
    refine .setLicense ?_
    rw [hl]
    exact subscriptionId_of_findLatest hfind

theorem updateSubscriptionStatus_onlyTouches {sid : ℕ} {status : SubscriptionStatus}
    {licenseStatus : LicenseRecordStatus} {e : Option Timestamp}
    (h : applyMutation db now (.updateSubscriptionStatus sid status e
      (affectedLicenseStatusChange db sid licenseStatus)) = .ok db') :
    OnlyTouches sid db db' := by
  simp only [applyMutation, affectedLicenseStatusChange] at h
  cases hfind : db.findLatestBySubscription sid with
  | none =>
    simp only [hfind] at h
    cases h
    exact .setSubscription
  | some k =>
    simp only [hfind] at h
    cases h
    exact OnlyTouches.setSubscription.trans (.setLicense (subscriptionId_of_findLatest hfind))

/-- What is resolved for an account writes no row of another. -/
theorem applyMutation_onlyTouches (howns : Owns db s p) {event : AccountEvent}
    (h : applyMutation db now (mutationOf db env s p event) = .ok db') :
    OnlyTouches s.id db db' := by
  have hpay : ∀ status, OnlyTouches s.id db (db.setPaymentStatus p.id status) := fun _ =>
    .setPaymentStatus howns.subscriptionId_of_id
  cases event with
  | captured g e =>
    simp only [mutationOf, applyMutation] at h
    split at h
    · cases h
    · next db₁ hact =>
      obtain ⟨-, hp, hs, hl⟩ := activatePayment_eq_ok hact
      have h₁ : OnlyTouches s.id db db₁ := .of_payments (Db.activated_id g) hp
        (Db.activated_subscriptionId g) hs hl howns.subscriptionId_of_id
      have h₂ : OnlyTouches s.id db (db₁.setSubscription now s.id .active e) :=
        h₁.trans .setSubscription
      unfold licenseMutation at h
      cases hfind : db.findLatestBySubscription s.id with
      | none =>
        simp only [hfind] at h
        exact h₂.trans (.insertLicense h)
      | some k =>
        simp only [hfind] at h
        cases h
        refine h₂.trans (.setLicense ?_)
        rw [Db.setSubscription_licenses, hl]
        exact subscriptionId_of_findLatest hfind
  | failed =>
    cases h
    exact hpay _
  | halted => exact updateSubscriptionStatus_onlyTouches h
  | cancelled => exact updateSubscriptionStatus_onlyTouches h
  | refunded =>
    cases h
    exact (hpay _).trans (.setAffectedLicense rfl)
  | disputed =>
    cases h
    exact (hpay _).trans (.setAffectedLicense rfl)
  | disputeWon =>
    cases h
    exact (hpay _).trans (.setAffectedLicense rfl)
  | disputeLost =>
    cases h
    exact (hpay _).trans (.setAffectedLicense rfl)

end

/-! ## The account itself -/

/-- What no mutation changes about a subscription and its payment. -/
structure Continues (s : Subscription) (p : Payment) (s' : Subscription) (p' : Payment) : Prop where
  subscriptionId : s'.id = s.id
  planType : s'.planType = s.planType
  paymentId : p'.id = p.id
  providerRef : p'.providerRef = p.providerRef
  amountMinor : p'.amountMinor = p.amountMinor
  currency : p'.currency = p.currency

theorem Continues.refl (s : Subscription) (p : Payment) : Continues s p s p :=
  ⟨rfl, rfl, rfl, rfl, rfl, rfl⟩

theorem Continues.trans {s s' s'' : Subscription} {p p' p'' : Payment} (h : Continues s p s' p')
    (h' : Continues s' p' s'' p'') : Continues s p s'' p'' where
  subscriptionId := h'.subscriptionId.trans h.subscriptionId
  planType := h'.planType.trans h.planType
  paymentId := h'.paymentId.trans h.paymentId
  providerRef := h'.providerRef.trans h.providerRef
  amountMinor := h'.amountMinor.trans h.amountMinor
  currency := h'.currency.trans h.currency

/-- The account's rows after a licence of it is given another status. -/
def relicense (status : LicenseRecordStatus) (l : Option License) : Option License :=
  if status = .revoked then none
  else l.map fun k => Db.setStatusAndExpiry status k.expiresAt k

section

variable {db db' : Db} {env : CallEnv} {s : Subscription} {p : Payment} {l : Option License}
  {now : Timestamp}

/-- The rows of the account after the mutation of `event`, and what they amount to. -/
def AccountAfter (db' : Db) (s : Subscription) (p : Payment) (a : Account) : Prop :=
  ∃ s' p' l', AccountRows db' s' p' l' ∧ Continues s p s' p' ∧ account s' p' l' = a

theorem AccountRows.setAffectedLicense (h : AccountRows db s p l) {p' : Payment}
    (h' : AccountRows db' s p' l) (status : LicenseRecordStatus) :
    AccountRows (db'.setAffectedLicense (affectedLicense db s.id) status) s p'
      (relicense status l) := by
  unfold affectedLicense
  rw [h.findLatestBySubscription]
  cases l with
  | none =>
    have hnone : relicense status none = none := by simp [relicense]
    rw [hnone]
    exact h'
  | some k => exact h'.setLicense status k.expiresAt

/-- The refund and dispute mutations: a payment status and a licence status. -/
theorem AccountRows.setPaymentAndLicense (h : AccountRows db s p l) (status : PaymentStatus)
    (licenseStatus : LicenseRecordStatus) :
    AccountAfter ((db.setPaymentStatus p.id status).setAffectedLicense (affectedLicense db s.id)
      licenseStatus) s p
      { account s p l with
        payment := status
        license := if licenseStatus = .revoked then none
          else (account s p l).setLicenseStatus licenseStatus } := by
  refine ⟨s, _, _, h.setAffectedLicense (h.setPaymentStatus status) licenseStatus,
    ⟨rfl, rfl, rfl, rfl, rfl, rfl⟩, ?_⟩
  unfold account relicense Account.setLicenseStatus
  congr 1
  split
  · rfl
  · simp [Function.comp_def, Db.setStatusAndExpiry]

theorem AccountRows.updateSubscriptionStatus (h : AccountRows db s p l)
    (status : SubscriptionStatus) (licenseStatus : LicenseRecordStatus)
    (hdb : applyMutation db now (.updateSubscriptionStatus s.id status s.currentPeriodEnd
      (affectedLicenseStatusChange db s.id licenseStatus)) = .ok db') :
    AccountAfter db' s p
      { account s p l with
        subscription := status
        license := if licenseStatus = .revoked then none
          else (account s p l).setLicenseStatus licenseStatus } := by
  have hs := h.setSubscription now status s.currentPeriodEnd
  simp only [applyMutation, affectedLicenseStatusChange, h.findLatestBySubscription] at hdb
  cases l with
  | none =>
    cases hdb
    refine ⟨_, p, none, hs, ⟨rfl, rfl, rfl, rfl, rfl, rfl⟩, ?_⟩
    simp [account, Db.setStatusAndPeriod, Account.setLicenseStatus]
  | some k =>
    cases hdb
    refine ⟨_, p, _, hs.setLicense licenseStatus k.expiresAt, ⟨rfl, rfl, rfl, rfl, rfl, rfl⟩, ?_⟩
    unfold account
    split <;> simp_all [Db.setStatusAndPeriod, Account.setLicenseStatus, Db.setStatusAndExpiry]

/-- An activation extends the licence of the account or issues its first one. -/
theorem AccountRows.activate (h : AccountRows db s p l) {g : Option String} {e : Option Timestamp}
    (hdb : applyMutation db now (mutationOf db env s p (.captured g e)) = .ok db') :
    AccountAfter db' s p ((account s p l).capture g e) := by
  simp only [mutationOf, applyMutation, licenseMutation, h.findLatestBySubscription] at hdb
  split at hdb
  · cases hdb
  · next db₁ hact =>
    have h₂ := (h.activatePayment hact).setSubscription now .active e
    cases l with
    | none =>
      exact ⟨_, _, _, h₂.insertLicense rfl (by simp) hdb, ⟨rfl, rfl, rfl, rfl, rfl, rfl⟩, rfl⟩
    | some k =>
      cases hdb
      exact ⟨_, _, _, h₂.setLicense .active e, ⟨rfl, rfl, rfl, rfl, rfl, rfl⟩, rfl⟩

/-- **The mutation of an accepted event takes the account where the event does.** -/
theorem AccountRows.applyMutation (h : AccountRows db s p l) {event : AccountEvent}
    (haccepted : ¬ Refused p.status event)
    (hdb : LicenseServer.applyMutation db now (mutationOf db env s p event) = .ok db') :
    AccountAfter db' s p ((account s p l).step event) := by
  cases event with
  | captured g e =>
    have hopen : ¬ ((account s p l).payment = .refunded ∨ (account s p l).payment = .disputed) :=
      haccepted
    rw [Account.step_captured hopen]
    exact h.activate hdb
  | failed =>
    have hpending : (account s p l).payment = .pending := not_not.mp haccepted
    rw [Account.step_failed hpending]
    cases hdb
    exact ⟨s, _, l, h.setPaymentStatus .failed, ⟨rfl, rfl, rfl, rfl, rfl, rfl⟩, rfl⟩
  | halted => exact h.updateSubscriptionStatus .suspended .suspended hdb
  | cancelled => exact h.updateSubscriptionStatus .cancelled .revoked hdb
  | refunded =>
    cases hdb
    exact h.setPaymentAndLicense .refunded .revoked
  | disputed =>
    cases hdb
    exact h.setPaymentAndLicense .disputed .suspended
  | disputeWon =>
    cases hdb
    exact h.setPaymentAndLicense .succeeded .active
  | disputeLost =>
    cases hdb
    exact h.setPaymentAndLicense .refunded .revoked

end

end LicenseServer
