import BankStatementProcessor.LicenseServer.Resolution

/-!
# The rows of an account

`AccountRows db s p l` reads an account off the database: a subscription row, its only
payment and its only live licence. `OnlyTouches` is the frame condition that goes with it:
the rows of every other subscription are the same in both databases.

Each statement of the webhook transaction gets one lemma of each kind.
-/

namespace LicenseServer

open Infra

/-! ## Frames -/

/-- The rows of every subscription but `sid` are the same. -/
structure OnlyTouches (sid : ℕ) (db db' : Db) : Prop where
  subscriptions : ∀ r : Subscription, r.id ≠ sid →
    (r ∈ db'.subscriptions.rows ↔ r ∈ db.subscriptions.rows)
  payments : ∀ r : Payment, r.subscriptionId ≠ sid →
    (r ∈ db'.payments.rows ↔ r ∈ db.payments.rows)
  licenses : ∀ r : License, r.subscriptionId ≠ sid →
    (r ∈ db'.licenses.rows ↔ r ∈ db.licenses.rows)

/-- The three tables of the accounts are the same; the ledger may differ. -/
structure SameAccounts (db db' : Db) : Prop where
  subscriptions : db'.subscriptions = db.subscriptions
  payments : db'.payments = db.payments
  licenses : db'.licenses = db.licenses

namespace OnlyTouches

variable {sid : ℕ} {db db' db'' : Db}

theorem refl (db : Db) : OnlyTouches sid db db :=
  ⟨fun _ _ => Iff.rfl, fun _ _ => Iff.rfl, fun _ _ => Iff.rfl⟩

theorem trans (h : OnlyTouches sid db db') (h' : OnlyTouches sid db' db'') :
    OnlyTouches sid db db'' where
  subscriptions r hr := (h'.subscriptions r hr).trans (h.subscriptions r hr)
  payments r hr := (h'.payments r hr).trans (h.payments r hr)
  licenses r hr := (h'.licenses r hr).trans (h.licenses r hr)

theorem of_sameAccounts (h : SameAccounts db db') : OnlyTouches sid db db' where
  subscriptions r _ := by rw [h.subscriptions]
  payments r _ := by rw [h.payments]
  licenses r _ := by rw [h.licenses]

/-- An update of the payment row `id`. -/
theorem of_payments {id : ℕ} {f : Payment → Payment} (hf : ∀ r, (f r).id = r.id)
    (hp : db'.payments = db.payments.modify id f hf)
    (hfs : ∀ r, (f r).subscriptionId = r.subscriptionId) (hs : db'.subscriptions = db.subscriptions)
    (hl : db'.licenses = db.licenses)
    (hid : ∀ r ∈ db.payments.rows, r.id = id → r.subscriptionId = sid) :
    OnlyTouches sid db db' where
  subscriptions r _ := by rw [hs]
  payments r hr := by
    rw [hp]
    exact Table.mem_modify_of_owner hfs hid hr
  licenses r _ := by rw [hl]

theorem setPaymentStatus {id : ℕ} {status : PaymentStatus}
    (hid : ∀ r ∈ db.payments.rows, r.id = id → r.subscriptionId = sid) :
    OnlyTouches sid db (db.setPaymentStatus id status) :=
  of_payments (Db.setStatus_id status) rfl (Db.setStatus_subscriptionId status) rfl rfl hid

theorem setSubscription {now : Timestamp} {status : SubscriptionStatus} {e : Option Timestamp} :
    OnlyTouches sid db (db.setSubscription now sid status e) where
  subscriptions r hr := by
    rw [Db.setSubscription_subscriptions]
    exact Table.mem_modify_of_ne hr
  payments _ _ := Iff.rfl
  licenses _ _ := Iff.rfl

theorem setLicense {id : ℕ} {status : LicenseRecordStatus} {e : Option Timestamp}
    (hid : ∀ r ∈ db.licenses.rows, r.id = id → r.subscriptionId = sid) :
    OnlyTouches sid db (db.setLicense id status e) where
  subscriptions _ _ := Iff.rfl
  payments _ _ := Iff.rfl
  licenses r hr := by
    rw [Db.setLicense_licenses]
    exact Table.mem_modify_of_owner (Db.setStatusAndExpiry_subscriptionId status e) hid hr

end OnlyTouches

/-! ## Statements that can fail -/

section

variable {db db' : Db}

theorem activatePayment_eq_ok {id : ℕ} {g : Option String}
    (h : db.activatePayment id g = .ok db') :
    ¬ db.GatewayPaymentIdTaken id g ∧
      db'.payments = db.payments.modify id (Db.activated g) (Db.activated_id g) ∧
      db'.subscriptions = db.subscriptions ∧ db'.licenses = db.licenses := by
  unfold Db.activatePayment at h
  split at h
  · cases h
  · next hfree =>
    cases h
    exact ⟨hfree, rfl, rfl, rfl⟩

theorem exists_activatePayment {id : ℕ} {g : Option String}
    (h : ¬ db.GatewayPaymentIdTaken id g) : ∃ db', db.activatePayment id g = .ok db' := by
  unfold Db.activatePayment
  exact ⟨_, dif_neg h⟩

theorem exists_insertLicense {now : Timestamp} {new : NewLicense}
    (hfk : ∃ s ∈ db.subscriptions.rows, s.id = new.subscriptionId)
    (hkey : ∀ l ∈ db.licenses.rows, l.licenseKey ≠ new.licenseKey) :
    ∃ db', db.insertLicense now new = .ok db' := by
  unfold Db.insertLicense
  rw [dif_pos hfk, dif_pos hkey]
  exact ⟨_, rfl⟩

theorem insertLicense_eq_ok {now : Timestamp} {new : NewLicense}
    (h : db.insertLicense now new = .ok db') :
    (∀ l ∈ db.licenses.rows, l.licenseKey ≠ new.licenseKey) ∧
      db'.licenses = db.licenses.insert (Db.newLicense now new) (Db.newLicense_id now new) ∧
      db'.subscriptions = db.subscriptions ∧ db'.payments = db.payments := by
  unfold Db.insertLicense at h
  split at h
  · split at h
    · next hkey =>
      cases h
      exact ⟨hkey, rfl, rfl, rfl⟩
    · cases h
  · cases h

theorem OnlyTouches.insertLicense {now : Timestamp} {new : NewLicense}
    (h : db.insertLicense now new = .ok db') : OnlyTouches new.subscriptionId db db' := by
  obtain ⟨-, hl, hs, hp⟩ := insertLicense_eq_ok h
  constructor
  · intro r _
    rw [hs]
  · intro r _
    rw [hp]
  · intro r hr
    rw [hl, Table.mem_insert]
    constructor
    · rintro (h | rfl)
      · exact h
      · exact absurd rfl hr
    · exact Or.inl

theorem insertPayment_eq_ok {now : Timestamp} {new : NewPayment}
    (h : db.insertPayment now new = .ok db') :
    db'.payments = db.payments.insert (Db.newPayment now new) (Db.newPayment_id now new) ∧
      db'.subscriptions = db.subscriptions ∧ db'.licenses = db.licenses := by
  unfold Db.insertPayment at h
  split at h
  · split at h
    · cases h
      exact ⟨rfl, rfl, rfl⟩
    · cases h
  · cases h

theorem OnlyTouches.insertPayment {now : Timestamp} {new : NewPayment}
    (h : db.insertPayment now new = .ok db') : OnlyTouches new.subscriptionId db db' := by
  obtain ⟨hp, hs, hl⟩ := insertPayment_eq_ok h
  constructor
  · intro r _
    rw [hs]
  · intro r hr
    rw [hp, Table.mem_insert]
    constructor
    · rintro (h | rfl)
      · exact h
      · exact absurd rfl hr
    · exact Or.inl
  · intro r _
    rw [hl]

theorem OnlyTouches.insertSubscription {now : Timestamp} {new : NewSubscription} :
    OnlyTouches db.subscriptions.nextId db (db.insertSubscription now new) where
  subscriptions := by
    intro r hr
    rw [Db.mem_insertSubscription]
    constructor
    · rintro (h | rfl)
      · exact h
      · exact absurd rfl hr
    · exact Or.inl
  payments _ _ := Iff.rfl
  licenses _ _ := Iff.rfl

theorem claim_sameAccounts {now : Timestamp} {new : NewPaymentWebhookEvent}
    (h : db.claim now new = some db') : SameAccounts db db' := by
  unfold Db.claim at h
  split at h
  · cases h
  · cases h
    exact ⟨rfl, rfl, rfl⟩

end

/-! ## Accounts -/

/-- `p` is the only payment of `s`, and `l` its only licence that is not revoked. -/
structure AccountRows (db : Db) (s : Subscription) (p : Payment) (l : Option License) : Prop
    extends Owns db s p where
  payment_unique : ∀ q ∈ db.payments.rows, q.subscriptionId = s.id → q = p
  license : ∀ k, (k ∈ db.licenses.rows ∧ k.subscriptionId = s.id ∧ k.Live) ↔ l = some k

/-- A subscription whose checkout went no further. -/
structure Vacant (db : Db) (s : Subscription) : Prop where
  payments : ∀ q ∈ db.payments.rows, q.subscriptionId ≠ s.id
  licenses : ∀ k ∈ db.licenses.rows, k.subscriptionId ≠ s.id

def account (s : Subscription) (p : Payment) (l : Option License) : Account where
  amountMinor := p.amountMinor
  currency := p.currency
  payment := p.status
  gatewayPaymentId := p.gatewayPaymentId
  subscription := s.status
  currentPeriodEnd := s.currentPeriodEnd
  license := l.map fun k => { status := k.status, expiresAt := k.expiresAt }

namespace AccountRows

variable {db db' : Db} {s s₀ : Subscription} {p p₀ : Payment} {l l₀ : Option License}

theorem findLatestBySubscription (h : AccountRows db s p l) :
    db.findLatestBySubscription s.id = l := by
  cases hfind : db.findLatestBySubscription s.id with
  | none =>
    rw [Db.findLatestBySubscription_eq_none] at hfind
    cases l with
    | none => rfl
    | some k =>
      obtain ⟨hk, hks, hlive⟩ := (h.license k).mpr rfl
      exact absurd hlive (hfind k hk hks)
  | some k => exact ((h.license k).mp (Db.mem_of_findLatestBySubscription hfind)).symm

/-- An account is the only one of its subscription. -/
theorem unique (h : AccountRows db s p l) (h₀ : AccountRows db s₀ p₀ l₀) (hid : s₀.id = s.id) :
    s₀ = s ∧ p₀ = p ∧ l₀ = l := by
  have hs : s₀ = s := db.subscriptions.eq_of_key h₀.subscription h.subscription hid
  subst hs
  refine ⟨rfl, h.payment_unique p₀ h₀.payment h₀.id_eq, ?_⟩
  rw [← h₀.findLatestBySubscription, ← h.findLatestBySubscription]

theorem of_onlyTouches (h : AccountRows db s p l) {sid : ℕ} (ht : OnlyTouches sid db db')
    (hne : s.id ≠ sid) : AccountRows db' s p l where
  subscription := (ht.subscriptions s hne).mpr h.subscription
  payment := (ht.payments p (by rw [h.id_eq]; exact hne)).mpr h.payment
  id_eq := h.id_eq
  payment_unique q hq hqs :=
    h.payment_unique q ((ht.payments q (by rw [hqs]; exact hne)).mp hq) hqs
  license k := by
    rw [← h.license k]
    constructor
    · rintro ⟨hk, hks, hlive⟩
      exact ⟨(ht.licenses k (by rw [hks]; exact hne)).mp hk, hks, hlive⟩
    · rintro ⟨hk, hks, hlive⟩
      exact ⟨(ht.licenses k (by rw [hks]; exact hne)).mpr hk, hks, hlive⟩

theorem of_sameAccounts (h : AccountRows db s p l) (hsame : SameAccounts db db') :
    AccountRows db' s p l :=
  -- the frame of any other subscription will do
  h.of_onlyTouches (OnlyTouches.of_sameAccounts hsame) (Nat.ne_of_lt (Nat.lt_succ_self s.id))

/-! The account's own rows after a statement about them. -/

theorem of_payments (h : AccountRows db s p l) {f : Payment → Payment} (hf : ∀ r, (f r).id = r.id)
    (hp : db'.payments = db.payments.modify p.id f hf)
    (hfs : ∀ r, (f r).subscriptionId = r.subscriptionId) (hs : db'.subscriptions = db.subscriptions)
    (hl : db'.licenses = db.licenses) : AccountRows db' s (f p) l where
  subscription := by
    rw [hs]
    exact h.subscription
  payment := by
    rw [hp]
    exact Table.mem_modify_self h.payment rfl
  id_eq := (hfs p).trans h.id_eq
  payment_unique := by
    intro q hq hqs
    rw [hp] at hq
    obtain ⟨q₀, hq₀, rfl⟩ := Table.mem_modify.mp hq
    have hsame : q₀.subscriptionId = s.id := by
      rw [← hqs]
      split
      · rw [hfs]
      · rfl
    rw [h.payment_unique q₀ hq₀ hsame, if_pos rfl]
  license := by
    rw [hl]
    exact h.license

theorem setPaymentStatus (h : AccountRows db s p l) (status : PaymentStatus) :
    AccountRows (db.setPaymentStatus p.id status) s (Db.setStatus status p) l :=
  h.of_payments (Db.setStatus_id status) rfl (Db.setStatus_subscriptionId status) rfl rfl

theorem activatePayment (h : AccountRows db s p l) {g : Option String}
    (hdb : db.activatePayment p.id g = .ok db') :
    AccountRows db' s (Db.activated g p) l := by
  obtain ⟨-, hp, hs, hl⟩ := activatePayment_eq_ok hdb
  exact h.of_payments (Db.activated_id g) hp (Db.activated_subscriptionId g) hs hl

theorem setSubscription (h : AccountRows db s p l) (now : Timestamp)
    (status : SubscriptionStatus) (e : Option Timestamp) :
    AccountRows (db.setSubscription now s.id status e) (Db.setStatusAndPeriod now status e s) p l
    where
  subscription := by
    rw [Db.setSubscription_subscriptions]
    exact Table.mem_modify_self h.subscription rfl
  payment := h.payment
  id_eq := h.id_eq
  payment_unique := h.payment_unique
  license := h.license

theorem setLicense {k : License} (h : AccountRows db s p (some k)) (status : LicenseRecordStatus)
    (e : Option Timestamp) :
    AccountRows (db.setLicense k.id status e) s p
      (if status = .revoked then none else some (Db.setStatusAndExpiry status e k)) where
  subscription := h.subscription
  payment := h.payment
  id_eq := h.id_eq
  payment_unique := h.payment_unique
  license := by
    intro r
    obtain ⟨hk, hks, -⟩ := (h.license k).mpr rfl
    rw [Db.setLicense_licenses]
    constructor
    · rintro ⟨hr, hrs, hlive⟩
      obtain ⟨r₀, hr₀, rfl⟩ := Table.mem_modify.mp hr
      by_cases hid : r₀.id = k.id
      · obtain rfl := db.licenses.eq_of_key hr₀ hk hid
        rw [if_pos rfl] at hlive ⊢
        exact if_neg hlive
      · -- another live licence would be the account's
        rw [if_neg hid] at hrs hlive
        have := (h.license r₀).mp ⟨hr₀, hrs, hlive⟩
        cases this
        exact absurd rfl hid
    · intro hr
      split at hr
      · cases hr
      · next hlive =>
        cases hr
        exact ⟨Table.mem_modify_self hk rfl, hks, hlive⟩

theorem insertLicense (h : AccountRows db s p none) {now : Timestamp} {new : NewLicense}
    (hns : new.subscriptionId = s.id) (hstatus : new.status ≠ .revoked)
    (hdb : db.insertLicense now new = .ok db') :
    AccountRows db' s p (some (Db.newLicense now new db.licenses.nextId)) := by
  obtain ⟨-, hl, hs, hp⟩ := insertLicense_eq_ok hdb
  refine ⟨⟨by rw [hs]; exact h.subscription, by rw [hp]; exact h.payment, h.id_eq⟩,
    by rw [hp]; exact h.payment_unique, ?_⟩
  intro k
  rw [hl, Table.mem_insert]
  constructor
  · rintro ⟨hk | rfl, hks, hlive⟩
    · have := (h.license k).mp ⟨hk, hks, hlive⟩
      cases this
    · rfl
  · intro hk
    cases hk
    exact ⟨Or.inr rfl, hns, hstatus⟩

end AccountRows

end LicenseServer
