import BankStatementProcessor.Infra.TwoPhase
import BankStatementProcessor.LicenseServer.Server

/-!
# Webhook events in parallel

`process_webhook_event` reads outside of the transaction that writes. Here its two steps are
apart: `webhooks` is the two-phase machine of `resolveEvent` and `claimAndApply`, and the
steps of different events interleave freely.

A mutation that waits for its transaction is known only by what it will write, so this file
says what that is: one payment status, one licence status, perhaps one new licence.
-/

namespace LicenseServer

open Infra TwoPhase

/-! ## What a mutation writes -/

namespace WebhookMutation

def paymentWrite : WebhookMutation → Option (ℕ × PaymentStatus)
  | .activateSubscriptionAndLicense paymentId _ _ _ _ => some (paymentId, .succeeded)
  | .markPaymentFailed paymentId => some (paymentId, .failed)
  | .refundPayment paymentId _ => some (paymentId, .refunded)
  | .markPaymentDisputed paymentId _ => some (paymentId, .disputed)
  | .resolveDispute paymentId _ merchantWon =>
    some (paymentId, if merchantWon then .succeeded else .refunded)
  | .updateSubscriptionStatus _ _ _ _ | .none => Option.none

/-- The existing licence row it writes to. -/
def licenseWrite : WebhookMutation → Option (ℕ × LicenseRecordStatus)
  | .activateSubscriptionAndLicense _ _ _ (.extend licenseId) _ => some (licenseId, .active)
  | .updateSubscriptionStatus _ _ _ license => license.map fun l => (l.licenseId, l.status)
  | .refundPayment _ license => license.map fun l => (l.licenseId, .revoked)
  | .markPaymentDisputed _ license => license.map fun l => (l.licenseId, .suspended)
  | .resolveDispute _ license merchantWon =>
    license.map fun l => (l.licenseId, if merchantWon then .active else .revoked)
  | _ => Option.none

/-- The subscription it issues a licence for. -/
def issuesFor : WebhookMutation → Option ℕ
  | .activateSubscriptionAndLicense _ subscriptionId _ (.insert _ _ _) _ => some subscriptionId
  | _ => Option.none

end WebhookMutation

/-- The status of row `id` after a write. -/
def written {α : Type} (write : Option (ℕ × α)) (id : ℕ) (old : α) : α :=
  match write with
  | some (i, new) => if id = i then new else old
  | none => old

theorem written_some {α : Type} {i id : ℕ} {new old : α} :
    written (some (i, new)) id old = if id = i then new else old := rfl

def PaymentsAfter (write : Option (ℕ × PaymentStatus)) (db db' : Db) : Prop :=
  ∀ q' ∈ db'.payments.rows, ∃ q ∈ db.payments.rows, q.id = q'.id ∧
    q'.status = written write q.id q.status

/-- The payment rows are those before, with at most one status changed. -/
def PaymentsWritten (write : Option (ℕ × PaymentStatus)) (db db' : Db) : Prop :=
  ∃ f : Payment → Payment, db'.payments.rows = db.payments.rows.map f ∧
    ∀ q, (f q).id = q.id ∧ (f q).providerRef = q.providerRef ∧
      (f q).status = written write q.id q.status

structure LicensesAfter (write : Option (ℕ × LicenseRecordStatus)) (issued : Option ℕ)
    (db db' : Db) : Prop where
  row : ∀ k' ∈ db'.licenses.rows,
    (∃ k ∈ db.licenses.rows, k.id = k'.id ∧ k.subscriptionId = k'.subscriptionId ∧
      k'.status = written write k.id k.status) ∨
    k'.id = db.licenses.nextId ∧ issued = some k'.subscriptionId ∧ k'.status = .active
  kept : ∀ k ∈ db.licenses.rows, ∃ k' ∈ db'.licenses.rows, k'.id = k.id ∧
    k'.subscriptionId = k.subscriptionId

section

variable {db db₁ db' : Db}

theorem PaymentsWritten.paymentsAfter {write : Option (ℕ × PaymentStatus)}
    (h : PaymentsWritten write db db') : PaymentsAfter write db db' := by
  obtain ⟨f, hrows, hf⟩ := h
  intro q' hq'
  rw [hrows] at hq'
  obtain ⟨q, hq, rfl⟩ := List.mem_map.mp hq'
  exact ⟨q, hq, (hf q).1.symm, (hf q).2.2⟩

theorem paymentsWritten_of_eq (h : db'.payments = db.payments) : PaymentsWritten none db db' :=
  ⟨id, by rw [h, List.map_id], fun _ => ⟨rfl, rfl, rfl⟩⟩

theorem paymentsWritten_of_modify {id : ℕ} {status : PaymentStatus} {f : Payment → Payment}
    {hf : ∀ r, (f r).id = r.id} (h : db'.payments = db.payments.modify id f hf)
    (href : ∀ r, (f r).providerRef = r.providerRef) (hstatus : ∀ r, (f r).status = status) :
    PaymentsWritten (some (id, status)) db db' := by
  refine ⟨fun r => if r.id = id then f r else r, by rw [h]; rfl, ?_⟩
  intro q
  dsimp only
  rw [written_some]
  by_cases hid : q.id = id
  · rw [if_pos hid, if_pos hid]
    exact ⟨hf q, href q, hstatus q⟩
  · rw [if_neg hid, if_neg hid]
    exact ⟨rfl, rfl, rfl⟩

theorem licensesAfter_of_eq (h : db'.licenses = db.licenses) : LicensesAfter none none db db' := by
  constructor
  · intro k hk
    rw [h] at hk
    exact Or.inl ⟨k, hk, rfl, rfl, rfl⟩
  · intro k hk
    rw [h]
    exact ⟨k, hk, rfl, rfl⟩

theorem licensesAfter_of_setLicense {id : ℕ} {status : LicenseRecordStatus} {e : Option Timestamp}
    (h : db₁.licenses = db.licenses) :
    LicensesAfter (some (id, status)) none db (db₁.setLicense id status e) := by
  constructor
  · intro k' hk'
    rw [Db.setLicense_licenses, h] at hk'
    obtain ⟨k, hk, rfl⟩ := Table.mem_modify.mp hk'
    refine Or.inl ⟨k, hk, ?_, ?_, ?_⟩
    · split <;> rfl
    · split <;> rfl
    · rw [written_some]
      split <;> rfl
  · intro k hk
    rw [Db.setLicense_licenses, h]
    refine ⟨_, Table.mem_modify.mpr ⟨k, hk, rfl⟩, ?_, ?_⟩
    · split <;> rfl
    · split <;> rfl

theorem licensesAfter_of_insertLicense {now : Timestamp} {new : NewLicense}
    (h : db₁.licenses = db.licenses) (hstatus : new.status = .active)
    (hdb : db₁.insertLicense now new = .ok db') :
    LicensesAfter none (some new.subscriptionId) db db' := by
  obtain ⟨-, hl, -, -⟩ := insertLicense_eq_ok hdb
  rw [h] at hl
  constructor
  · intro k hk
    rw [hl, Table.mem_insert] at hk
    rcases hk with hk | rfl
    · exact Or.inl ⟨k, hk, rfl, rfl, rfl⟩
    · exact Or.inr ⟨rfl, rfl, hstatus⟩
  · intro k hk
    rw [hl]
    exact ⟨k, Table.mem_insert_of_mem hk, rfl, rfl⟩

theorem licensesAfter_of_setAffectedLicense {license : Option AffectedLicense}
    {status : LicenseRecordStatus} (h : db₁.licenses = db.licenses) :
    LicensesAfter (license.map fun l => (l.licenseId, status)) none db
      (db₁.setAffectedLicense license status) := by
  cases license with
  | none => exact licensesAfter_of_eq h
  | some l => exact licensesAfter_of_setLicense h

theorem setAffectedLicense_payments {license : Option AffectedLicense}
    {status : LicenseRecordStatus} : (db.setAffectedLicense license status).payments = db.payments := by
  cases license <;> rfl

variable {now : Timestamp} {m : WebhookMutation}

theorem applyMutation_paymentsWritten (h : applyMutation db now m = .ok db') :
    PaymentsWritten m.paymentWrite db db' := by
  cases m with
  | none =>
    cases h
    exact paymentsWritten_of_eq rfl
  | markPaymentFailed paymentId =>
    cases h
    exact paymentsWritten_of_modify (Db.setPaymentStatus_payments _ _ _) (fun _ => rfl) fun _ => rfl
  | updateSubscriptionStatus subscriptionId status e license =>
    cases license with
    | none =>
      cases h
      exact paymentsWritten_of_eq rfl
    | some l =>
      cases h
      exact paymentsWritten_of_eq rfl
  | activateSubscriptionAndLicense paymentId subscriptionId e license g =>
    obtain ⟨db₁, hact, hlicense⟩ := applyMutation_activate_eq_ok h
    obtain ⟨-, hp, -, -⟩ := activatePayment_eq_ok hact
    have hpayments : db'.payments = db₁.payments := by
      rcases hlicense with ⟨licenseId, -, rfl⟩ | ⟨licenseKey, maxDevices, days, -, hinsert⟩
      · rfl
      · exact (insertLicense_eq_ok hinsert).2.2.2
    exact paymentsWritten_of_modify (hpayments.trans hp) (fun _ => rfl) fun _ => rfl
  | refundPayment paymentId license
  | markPaymentDisputed paymentId license
  | resolveDispute paymentId license merchantWon =>
    cases h
    exact paymentsWritten_of_modify
      (setAffectedLicense_payments.trans (Db.setPaymentStatus_payments _ _ _)) (fun _ => rfl)
      fun _ => rfl

theorem applyMutation_paymentsAfter (h : applyMutation db now m = .ok db') :
    PaymentsAfter m.paymentWrite db db' :=
  (applyMutation_paymentsWritten h).paymentsAfter

theorem applyMutation_licensesAfter (h : applyMutation db now m = .ok db') :
    LicensesAfter m.licenseWrite m.issuesFor db db' := by
  cases m with
  | none =>
    cases h
    exact licensesAfter_of_eq rfl
  | markPaymentFailed paymentId =>
    cases h
    exact licensesAfter_of_eq rfl
  | updateSubscriptionStatus subscriptionId status e license =>
    cases license with
    | none =>
      cases h
      exact licensesAfter_of_eq rfl
    | some l =>
      cases h
      exact licensesAfter_of_setLicense rfl
  | activateSubscriptionAndLicense paymentId subscriptionId e license g =>
    obtain ⟨db₁, hact, hlicense⟩ := applyMutation_activate_eq_ok h
    obtain ⟨-, -, -, hl⟩ := activatePayment_eq_ok hact
    have hl' : (db₁.setSubscription now subscriptionId .active e).licenses = db.licenses := hl
    rcases hlicense with ⟨licenseId, rfl, rfl⟩ | ⟨licenseKey, maxDevices, days, rfl, hinsert⟩
    · exact licensesAfter_of_setLicense hl'
    · exact licensesAfter_of_insertLicense hl' rfl hinsert
  | refundPayment paymentId license
  | markPaymentDisputed paymentId license
  | resolveDispute paymentId license merchantWon =>
    cases h
    exact licensesAfter_of_setAffectedLicense rfl

end

/-! ## The two phases -/

abbrev WebhookConfig := Config Db String WebhookMutation

abbrev WebhookStep := Step String CallEnv

section

variable (payloads : String → RazorpayWebhookPayload)

/-- The events with these payloads, indexed by their event ids, which are therefore distinct.
A resolver's error ends its event, and so does a transaction that is rolled back. -/
def webhooks : TwoPhase Db String WebhookMutation CallEnv where
  resolve db eventId env := (resolveEvent db env (payloads eventId)).toOption
  apply db eventId m env :=
    match claimAndApply db env.txNow (newEvent eventId (payloads eventId)) m with
    | .ok (_, db) => db
    | .error _ => db

/-- `process_webhook_event` is one step after the other, with nothing in between. -/
theorem deliver_eq_resolve_apply (db : Db) (env : CallEnv) (eventId : String) :
    deliver db { env, eventId, payload := payloads eventId } =
      ((webhooks payloads).resolve db eventId env).elim db
        (fun m => (webhooks payloads).apply db eventId m env) := by
  simp only [deliver, processWebhookEvent, webhooks]
  cases resolveEvent db env (payloads eventId) with
  | error e => rfl
  | ok m =>
    simp only [Except.toOption, Option.elim_some]
    generalize claimAndApply db env.txNow (newEvent eventId (payloads eventId)) m = r
    cases r with
    | error e => rfl
    | ok r => rfl

variable {payloads} {db : Db} {eventId : String} {m : WebhookMutation} {env : CallEnv}

theorem resolution_of_resolve (h : (webhooks payloads).resolve db eventId env = some m) :
    Resolution db env (payloads eventId) m := by
  refine resolution_of_resolveEvent ?_
  simp only [webhooks, Except.toOption] at h
  split at h
  · next m' hm' =>
    cases h
    exact hm'
  · cases h

theorem after_of_applied {db' : Db} {now : Timestamp} {new : NewPaymentWebhookEvent}
    (h : claimAndApply db now new m = .ok (.applied, db')) :
    PaymentsAfter m.paymentWrite db db' ∧ LicensesAfter m.licenseWrite m.issuesFor db db' := by
  unfold claimAndApply at h
  split at h
  · cases h
  · next c hclaim =>
    have hsame := claim_sameAccounts hclaim
    split at h
    · cases h
    · next db₁ happly =>
      cases h
      have hp := applyMutation_paymentsAfter happly
      have hl := applyMutation_licensesAfter happly
      refine ⟨?_, ?_, ?_⟩
      · intro q' hq'
        have := hp q' hq'
        rwa [hsame.payments] at this
      · intro k' hk'
        have := hl.row k' hk'
        rwa [hsame.licenses] at this
      · intro k hk
        exact hl.kept k (by rw [hsame.licenses]; exact hk)

/-- The transaction of a mutation changes nothing, or writes what the mutation says. -/
theorem apply_cases (payloads : String → RazorpayWebhookPayload) (db : Db) (eventId : String)
    (m : WebhookMutation) (env : CallEnv) :
    (webhooks payloads).apply db eventId m env = db ∨
      PaymentsAfter m.paymentWrite db ((webhooks payloads).apply db eventId m env) ∧
        LicensesAfter m.licenseWrite m.issuesFor db
          ((webhooks payloads).apply db eventId m env) := by
  simp only [webhooks]
  cases h : claimAndApply db env.txNow (newEvent eventId (payloads eventId)) m with
  | error e => exact Or.inl rfl
  | ok r =>
    obtain ⟨outcome, db'⟩ := r
    cases outcome with
    | applied => exact Or.inr (after_of_applied h)
    | alreadyProcessed =>
      unfold claimAndApply at h
      split at h
      · cases h
        exact Or.inl rfl
      · split at h <;> cases h

/-! ## What a resolved mutation was read from -/

variable {s : Subscription} {p : Payment} {event : AccountEvent}

/-- The licence a resolved mutation writes to is the live one of its subscription. -/
theorem findLatest_of_licenseWrite {l : ℕ} {status : LicenseRecordStatus}
    (h : (mutationOf db env s p event).licenseWrite = some (l, status)) :
    ∃ k, db.findLatestBySubscription s.id = some k ∧ k.id = l := by
  cases hfind : db.findLatestBySubscription s.id with
  | none =>
    cases event <;>
      simp [mutationOf, WebhookMutation.licenseWrite, licenseMutation, affectedLicense,
        affectedLicenseStatusChange, hfind] at h
  | some k =>
    refine ⟨k, rfl, ?_⟩
    cases event <;>
      simp_all [mutationOf, WebhookMutation.licenseWrite, licenseMutation, affectedLicense,
        affectedLicenseStatusChange]

/-- A licence is issued for a subscription that was read to have none. -/
theorem findLatest_of_issuesFor {sid : ℕ}
    (h : (mutationOf db env s p event).issuesFor = some sid) :
    s.id = sid ∧ db.findLatestBySubscription s.id = none := by
  cases event with
  | captured g e =>
    cases hfind : db.findLatestBySubscription s.id with
    | none =>
      simp only [mutationOf, licenseMutation, hfind, WebhookMutation.issuesFor,
        Option.some.injEq] at h
      exact ⟨h, rfl⟩
    | some k => simp [mutationOf, licenseMutation, hfind, WebhookMutation.issuesFor] at h
  | _ => simp [mutationOf, WebhookMutation.issuesFor] at h

end

/-! ## Inputs for schedules of fixed events -/

/-- One charge of a subscription, told three times and refunded. -/
def samplePayloads (eventId : String) : RazorpayWebhookPayload :=
  if eventId = "evt_refund" then sampleReversal "refund.processed" "pay_1"
  else if eventId = "evt_activated" then sampleCharge "subscription.activated" "sub_1" "pay_1"
  else sampleCharge "subscription.charged" "sub_1" "pay_1"

/-- The database after the checkout: one pending payment, no licence. -/
def sampleDb : Db := run step .empty [sampleCheckout "sub_1"]

end LicenseServer
