import BankStatementProcessor.LicenseServer.LicenseCalls

/-!
# The status of a licence, as each read path reports it

`readPathsAgree_iff` — the subscription summary and the calls of an active device report the
same status, unless the licence is stored as active and its expiry has passed.
-/

namespace LicenseServer

open Infra LicenseM LicenseService

/-- What the summary of the user reports for a licence is what a validation and a heartbeat of
an active device of that licence report. -/
def ReadPathsAgree (st : Store) (userId : ℤ) (env : CallEnv) : Prop :=
  ∀ o, ((subscriptionSummary userId).eval env st).1 = .ok o → ∀ item ∈ o.licenses,
    ∀ d ∈ st.devices.rows, d.licenseId = item.licenseId → d.deactivatedAt = none →
      ∀ requestingUserId,
        (∀ machineFingerprint v, ((validate item.licenseId d.deviceId machineFingerprint
          requestingUserId).eval env st).1 = .ok v → v.status = item.status) ∧
        ∀ h, ((heartbeat item.licenseId d.deviceId requestingUserId).eval env st).1 = .ok h →
          h.status = item.status

/-- The licence the summary shows has an active device, is stored as active, and its expiry has
passed. -/
def StaleSummary (st : Store) (userId : ℤ) (now : Timestamp) : Prop :=
  ∃ s l d, st.findLatestByUser userId = some s ∧ st.findLatestBySubscription s.id = some l ∧
    (d ∈ st.devices.rows ∧ d.licenseId = l.id ∧ d.deactivatedAt = none) ∧
    l.status = .active ∧ ∃ e, l.expiresAt = some e ∧ e ≤ now

section

variable {st : Store} {env : CallEnv} {userId : ℤ} {s : Subscription} {l : License} {d : Device}

theorem effectiveStatus_eq_self_iff {now : Timestamp} :
    effectiveStatus l now = l.status ↔
      ¬ (l.status = .active ∧ ∃ e, l.expiresAt = some e ∧ e ≤ now) := by
  have hany : l.expiresAt.any (· ≤ now) = true ↔ ∃ e, l.expiresAt = some e ∧ e ≤ now := by
    cases l.expiresAt <;> simp
  simp only [effectiveStatus, hany]
  split
  · next h => simp [h]
  · next h => simp [h]

theorem eval_subscriptionSummary_eq_ok {o : SubscriptionSummaryOutcome} {item : LicenseSummaryOutcome}
    (h : ((subscriptionSummary userId).eval env st).1 = .ok o) (hitem : item ∈ o.licenses) :
    ∃ s l, st.findLatestByUser userId = some s ∧ st.findLatestBySubscription s.id = some l ∧
      item.licenseId = l.id ∧ item.status = l.status := by
  unfold subscriptionSummary at h
  rw [eval_query_bind] at h
  cases hs : st.findLatestByUser userId with
  | none =>
    rw [hs] at h
    cases h
  | some s =>
    rw [hs] at h
    dsimp only at h
    rw [eval_query_bind] at h
    cases hl : st.findLatestBySubscription s.id with
    | none =>
      rw [hl] at h
      cases h
      cases hitem
    | some l =>
      rw [hl] at h
      cases h
      cases List.mem_singleton.mp hitem
      exact ⟨s, l, rfl, hl, rfl, rfl⟩

theorem eval_subscriptionSummary (hs : st.findLatestByUser userId = some s)
    (hl : st.findLatestBySubscription s.id = some l) :
    ((subscriptionSummary userId).eval env st).1 = .ok
      { subscription := s
        licenses := [{ licenseId := l.id, status := l.status,
                       devicesActive := st.countActiveByLicense l.id,
                       maxDevices := l.maxDevices, licenseKey := l.licenseKey }] } := by
  unfold subscriptionSummary
  rw [eval_query_bind, hs]
  dsimp only
  rw [eval_query_bind, hl]
  rfl

/-- A device of the licence answers with its effective status, when it answers. -/
theorem status_of_eval (hl : l ∈ st.licenses.rows) (hd : d ∈ st.devices.rows)
    (hlicense : d.licenseId = l.id) (hactive : d.deactivatedAt = none)
    (requestingUserId : Option ℤ) :
    (∀ machineFingerprint v, ((validate l.id d.deviceId machineFingerprint
        requestingUserId).eval env st).1 = .ok v → v.status = effectiveStatus l env.now) ∧
      ∀ h, ((heartbeat l.id d.deviceId requestingUserId).eval env st).1 = .ok h →
        h.status = effectiveStatus l env.now := by
  have hdevice : HasDevice st l d.deviceId d := ⟨hd, hlicense, rfl, hactive⟩
  by_cases howned : st.OwnedBy l.subscriptionId requestingUserId
  · have hlic : HasLicense st l.id requestingUserId l := ⟨hl, rfl, howned⟩
    constructor
    · intro machineFingerprint v hv
      rw [eval_validate hlic hdevice] at hv
      dsimp only at hv
      split at hv <;> cases hv
      rfl
    · intro h hh
      rw [eval_heartbeat hlic hdevice] at hh
      cases hh
      rfl
  · have hnone : ∀ l', HasLicense st l.id requestingUserId l' → ∀ d', ¬ HasDevice st l' d.deviceId d' := by
      intro l' hl'
      obtain rfl := st.licenses.eq_of_key hl hl'.mem (Int.ofNat.inj hl'.id_eq.symm)
      exact absurd hl'.owned howned
    constructor
    · intro machineFingerprint v hv
      rw [eval_validate_of_none hnone] at hv
      cases hv
    · intro h hh
      rw [eval_heartbeat_of_none hnone] at hh
      cases hh

end

/-- **The read paths agree exactly when the summary shows no licence that has run out.** -/
theorem readPathsAgree_iff (st : Store) (userId : ℤ) (env : CallEnv) :
    ReadPathsAgree st userId env ↔ ¬ StaleSummary st userId env.now := by
  constructor
  · rintro hagree ⟨s, l, d, hs, hl, ⟨hd, hlicense, hactive⟩, hexpired⟩
    have hmem := (Db.mem_of_findLatestBySubscription hl).1
    -- an anonymous heartbeat of the device answers
    have hbeat := (hagree _ (eval_subscriptionSummary hs hl) _ (List.mem_singleton_self _) d hd
      hlicense hactive none).2 { status := effectiveStatus l env.now }
      (by rw [eval_heartbeat ⟨hmem, rfl, Store.ownedBy_none⟩ ⟨hd, hlicense, rfl, hactive⟩])
    exact effectiveStatus_eq_self_iff.mp hbeat hexpired
  · intro hfresh o ho item hitem d hd hlicense hactive requestingUserId
    obtain ⟨s, l, hs, hl, hid, hstatus⟩ := eval_subscriptionSummary_eq_ok ho hitem
    have hmem := (Db.mem_of_findLatestBySubscription hl).1
    rw [hid] at hlicense ⊢
    have heffective : effectiveStatus l env.now = item.status := by
      rw [hstatus, effectiveStatus_eq_self_iff]
      exact fun hexpired => hfresh ⟨s, l, d, hs, hl, ⟨hd, hlicense, hactive⟩, hexpired⟩
    rw [← heffective]
    exact status_of_eval hmem hd hlicense hactive requestingUserId

/-- The device of the sample activation. -/
def sampleDevice : Device where
  id := 1
  licenseId := 1
  deviceId := 7
  machineFingerprint := "fingerprint"
  deviceLabel := some "laptop"
  firstSeenAt := 2
  lastSeenAt := 2
  deactivatedAt := none

/-- Its summary, whenever it is asked for. -/
def sampleSummary : SubscriptionSummaryOutcome where
  subscription :=
    { id := 1, userId := 1, planType := .monthly, status := .active, startedAt := 0,
      currentPeriodEnd := some (1 + days 30), autoRenew := true, createdAt := 0, updatedAt := 1 }
  licenses :=
    [{ licenseId := 1, status := .active, devicesActive := 1, maxDevices := 1,
       licenseKey := "AAAA-AAAA-AAAA-AAAA" }]

/-- Ten days after the month that was paid, the summary still calls the licence active. -/
theorem expired_license_reported_active : ¬ ∀ (rs : List ServerRequest) (userId : ℤ)
    (env : CallEnv), ReadPathsAgree (run serve .empty rs) userId env := by
  intro h
  have hbeat := (h sampleActivation 1 (sampleEnv (days 40)) sampleSummary (by decide) _
    (List.mem_singleton_self _) sampleDevice (by decide) rfl rfl none).2 { status := .expired }
    (by decide)
  cases hbeat

end LicenseServer
