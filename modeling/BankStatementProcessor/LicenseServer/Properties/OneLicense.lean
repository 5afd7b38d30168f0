import BankStatementProcessor.LicenseServer.Interleaving

/-!
# One live licence a subscription

Whether an activation extends a licence or issues one is read before the transaction, and
nothing in the schema forbids a second live licence. `one_live_license` — there is only one
as long as no write makes a licence live between the two steps of an event that makes another
one live.
-/

namespace LicenseServer

open Infra TwoPhase

/-- The licence that a mutation makes live: a fresh one, or an existing row. -/
inductive LiveTarget
  | fresh
  | row (licenseId : ℕ)
  deriving DecidableEq, Repr

/-- The licence of subscription `sid` that the mutation makes live, when it does. -/
def liveTarget (sid : ℕ) (db : Db) (m : WebhookMutation) : Option LiveTarget :=
  if m.issuesFor = some sid then some .fresh
  else
    match m.licenseWrite with
    | some (licenseId, status) =>
      if status ≠ .revoked ∧ ∃ k ∈ db.licenses.rows, k.id = licenseId ∧ k.subscriptionId = sid then
        some (.row licenseId)
      else none
    | none => none

/-- Both mutations make a licence of the subscription live, and not the same row. -/
def MakesSecondLive (sid : ℕ) (db : Db) (m m' : WebhookMutation) : Prop :=
  ∃ t ∈ liveTarget sid db m, ∃ t' ∈ liveTarget sid db m', t = .fresh ∨ t ≠ t'

instance (sid : ℕ) (db : Db) (m m' : WebhookMutation) :
    Decidable (MakesSecondLive sid db m m') := by
  unfold MakesSecondLive
  infer_instance

def OneLive (sid : ℕ) (db : Db) : Prop :=
  ∀ k ∈ db.licenses.rows, ∀ k' ∈ db.licenses.rows, k.subscriptionId = sid →
    k'.subscriptionId = sid → k.Live → k'.Live → k = k'

instance (sid : ℕ) (db : Db) : Decidable (OneLive sid db) := by
  unfold OneLive
  infer_instance

/-- No licence but the one the mutation makes live is live, and a row it writes to exists. -/
structure OnlyTargetLive (sid : ℕ) (db : Db) (m : WebhookMutation) : Prop where
  only : ∀ t ∈ liveTarget sid db m, ∀ k ∈ db.licenses.rows, k.subscriptionId = sid → k.Live →
    t = .row k.id
  exist : ∀ w ∈ m.licenseWrite, ∃ k ∈ db.licenses.rows, k.id = w.1

section

variable {sid : ℕ} {db db' : Db} {m m' : WebhookMutation}

theorem liveTarget_of_issuesFor (h : m.issuesFor = some sid) : liveTarget sid db m = some .fresh :=
  if_pos h

theorem issuesFor_of_licenseWrite {w : ℕ × LicenseRecordStatus} (h : m.licenseWrite = some w) :
    m.issuesFor = none := by
  cases m with
  | activateSubscriptionAndLicense _ _ _ license _ =>
    cases license with
    | extend => rfl
    | insert => cases h
  | _ => rfl

theorem liveTarget_of_licenseWrite {licenseId : ℕ} {status : LicenseRecordStatus}
    (h : m.licenseWrite = some (licenseId, status)) :
    liveTarget sid db m =
      if status ≠ .revoked ∧ ∃ k ∈ db.licenses.rows, k.id = licenseId ∧ k.subscriptionId = sid then
        some (.row licenseId)
      else none := by
  unfold liveTarget
  rw [issuesFor_of_licenseWrite h, if_neg (by simp), h]

/-- What is live after a write was live before, or is what the write makes live. -/
theorem live_after (h : LicensesAfter m.licenseWrite m.issuesFor db db') {k' : License}
    (hk' : k' ∈ db'.licenses.rows) (hsid : k'.subscriptionId = sid) (hlive : k'.Live) :
    (∃ k ∈ db.licenses.rows, k.id = k'.id ∧ k.subscriptionId = sid ∧ k.Live) ∨
      liveTarget sid db m = some (.row k'.id) ∨
      liveTarget sid db m = some .fresh ∧ k'.id = db.licenses.nextId := by
  rcases h.row k' hk' with ⟨k, hk, hid, hsub, hstatus⟩ | ⟨hid, hissues, -⟩
  · cases hw : m.licenseWrite with
    | none =>
      rw [hw] at hstatus
      exact Or.inl ⟨k, hk, hid, hsub.trans hsid, fun hr => hlive (hstatus.trans hr)⟩
    | some w =>
      obtain ⟨i, status⟩ := w
      rw [hw, written_some] at hstatus
      split at hstatus
      · next hi =>
        refine Or.inr (Or.inl ?_)
        rw [liveTarget_of_licenseWrite hw, ← hi, hid, if_pos]
        exact ⟨fun hr => hlive (hstatus.trans hr), k, hk, hid, hsub.trans hsid⟩
      · exact Or.inl ⟨k, hk, hid, hsub.trans hsid, fun hr => hlive (hstatus.trans hr)⟩
  · rw [hsid] at hissues
    exact Or.inr (Or.inr ⟨liveTarget_of_issuesFor hissues, hid⟩)

/-- When a write makes a licence live, it is the only one that is live afterwards. -/
theorem id_of_live_after (hm : OnlyTargetLive sid db m)
    (h : LicensesAfter m.licenseWrite m.issuesFor db db') {t : LiveTarget}
    (ht : liveTarget sid db m = some t) {k' : License} (hk' : k' ∈ db'.licenses.rows)
    (hsid : k'.subscriptionId = sid) (hlive : k'.Live) :
    t = .row k'.id ∨ t = .fresh ∧ k'.id = db.licenses.nextId := by
  rcases live_after h hk' hsid hlive with ⟨k, hk, hid, hsub, hold⟩ | hrow | ⟨hfresh, hnext⟩
  · left
    rw [hm.only t ht k hk hsub hold, hid]
  · left
    exact Option.some.inj (ht.symm.trans hrow)
  · right
    exact ⟨Option.some.inj (ht.symm.trans hfresh), hnext⟩

/-- A write that respects `OnlyTargetLive` leaves one live licence. -/
theorem oneLive_after (hone : OneLive sid db) (hm : OnlyTargetLive sid db m)
    (h : LicensesAfter m.licenseWrite m.issuesFor db db') : OneLive sid db' := by
  intro k₁ hk₁ k₂ hk₂ hs₁ hs₂ hl₁ hl₂
  refine db'.licenses.eq_of_key hk₁ hk₂ ?_
  cases ht : liveTarget sid db m with
  | none =>
    -- both were live before
    rcases live_after h hk₁ hs₁ hl₁ with ⟨r₁, hr₁, hid₁, hsub₁, hlive₁⟩ | hrow | ⟨hfresh, -⟩
    · rcases live_after h hk₂ hs₂ hl₂ with ⟨r₂, hr₂, hid₂, hsub₂, hlive₂⟩ | hrow | ⟨hfresh, -⟩
      · rw [← hid₁, ← hid₂, hone r₁ hr₁ r₂ hr₂ hsub₁ hsub₂ hlive₁ hlive₂]
      · simp [ht] at hrow
      · simp [ht] at hfresh
    · simp [ht] at hrow
    · simp [ht] at hfresh
  | some t =>
    rcases id_of_live_after hm h ht hk₁ hs₁ hl₁ with rfl | ⟨rfl, hid₁⟩ <;>
      rcases id_of_live_after hm h ht hk₂ hs₂ hl₂ with hrow | ⟨hfresh, hid₂⟩
    · exact LiveTarget.row.inj hrow
    · cases hfresh
    · cases hrow
    · exact hid₁.trans hid₂.symm

theorem liveTarget_after (hexist : ∀ w ∈ m'.licenseWrite, ∃ k ∈ db.licenses.rows, k.id = w.1)
    (h : LicensesAfter m.licenseWrite m.issuesFor db db') :
    liveTarget sid db' m' = liveTarget sid db m' := by
  cases hw : m'.licenseWrite with
  | none =>
    unfold liveTarget
    rw [hw]
  | some w =>
    obtain ⟨i, status⟩ := w
    obtain ⟨r, hr, hri⟩ := hexist _ hw
    obtain ⟨r', hr', hrid, hrsub⟩ := h.kept r hr
    have hsame : (∃ k ∈ db'.licenses.rows, k.id = i ∧ k.subscriptionId = sid) ↔
        ∃ k ∈ db.licenses.rows, k.id = i ∧ k.subscriptionId = sid := by
      constructor
      · rintro ⟨k', hk', hid, hsub⟩
        have hrk : r' = k' := db'.licenses.eq_of_key hr' hk' (hrid.trans (hri.trans hid.symm))
        exact ⟨r, hr, hri, by rw [← hrsub, hrk, hsub]⟩
      · rintro ⟨k, hk, hid, hsub⟩
        obtain ⟨k', hk', hid', hsub'⟩ := h.kept k hk
        exact ⟨k', hk', hid'.trans hid, hsub'.trans hsub⟩
    rw [liveTarget_of_licenseWrite hw, liveTarget_of_licenseWrite hw]
    simp only [hsame]

/-- A write that makes no second licence live leaves what `m'` was read from. -/
theorem onlyTargetLive_after (h' : OnlyTargetLive sid db m')
    (hsecond : ¬ MakesSecondLive sid db m m')
    (h : LicensesAfter m.licenseWrite m.issuesFor db db') : OnlyTargetLive sid db' m' := by
  constructor
  · intro t' ht' k' hk' hsub hlive
    rw [liveTarget_after h'.exist h] at ht'
    have hsame : ∀ t, liveTarget sid db m = some t → t ≠ .fresh ∧ t = t' := by
      intro t ht
      have := not_or.mp fun hor => hsecond ⟨t, ht, t', ht', hor⟩
      exact ⟨this.1, not_not.mp this.2⟩
    rcases live_after h hk' hsub hlive with ⟨k, hk, hid, hks, hold⟩ | hrow | ⟨hfresh, -⟩
    · rw [h'.only t' ht' k hk hks hold, hid]
    · exact (hsame _ hrow).2.symm
    · exact absurd rfl (hsame _ hfresh).1
  · intro w hw
    obtain ⟨k, hk, hid⟩ := h'.exist w hw
    obtain ⟨k', hk', hid', -⟩ := h.kept k hk
    exact ⟨k', hk', hid'.trans hid⟩

variable {payloads : String → RazorpayWebhookPayload} {e : String} {env : CallEnv}

/-- The resolver extends the live licence, and issues one only when none is live. -/
theorem onlyTargetLive_of_resolve (hone : OneLive sid db)
    (hres : (webhooks payloads).resolve db e env = some m) : OnlyTargetLive sid db m := by
  cases resolution_of_resolve hres with
  | ignored =>
    constructor
    · intro t ht
      cases ht
    · intro w hw
      cases hw
  | @acts s p event howns _ _ =>
    constructor
    · intro t ht k hk hsub hlive
      unfold liveTarget at ht
      split at ht
      · next hissues =>
        obtain ⟨rfl, hnone⟩ := findLatest_of_issuesFor hissues
        exact absurd hlive (Db.findLatestBySubscription_eq_none.mp hnone k hk hsub)
      · split at ht
        · next i status hw =>
          split at ht
          · next hrow =>
            obtain ⟨k₀, hfind, hid⟩ := findLatest_of_licenseWrite hw
            obtain ⟨hmem, hsub₀, hlive₀⟩ := Db.mem_of_findLatestBySubscription hfind
            obtain ⟨-, r, hr, hri, hrsub⟩ := hrow
            obtain rfl : k₀ = r := db.licenses.eq_of_key hmem hr (hid.trans hri.symm)
            rw [hone k hk k₀ hmem hsub hrsub hlive hlive₀, hid]
            exact (Option.some.inj ht).symm
          · cases ht
        · cases ht
    · intro w hw
      obtain ⟨i, status⟩ := w
      obtain ⟨k₀, hfind, hid⟩ := findLatest_of_licenseWrite hw
      exact ⟨k₀, (Db.mem_of_findLatestBySubscription hfind).1, hid⟩

end

/--
**A subscription that starts without a licence has at most one live licence in every state of
every schedule** in which no write makes a licence live between the two steps of an event that
makes another one live.
-/
theorem one_live_license (payloads : String → RazorpayWebhookPayload) (db : Db) (sid : ℕ)
    (hnone : ∀ k ∈ db.licenses.rows, k.subscriptionId ≠ sid) (steps : List WebhookStep)
    (hundisturbed : Undisturbed (webhooks payloads) (MakesSecondLive sid) (start db) steps) :
    ∀ pre post, steps = pre ++ post →
      OneLive sid (run (webhooks payloads).step (start db) pre).store := by
  rintro pre post rfl
  have hstart : OneLive sid db := fun k hk _ _ hsub => absurd hsub (hnone k hk)
  have hpre : Settled (OneLive sid) (OnlyTargetLive sid)
      (run (webhooks payloads).step (start db) pre) post := by
    refine settled_run ?_ ?_ ?_ (settled_start hstart _) hundisturbed
    · exact fun _ _ _ _ hone hres => onlyTargetLive_of_resolve hone hres
    · intro db e m env hone hm
      rcases apply_cases payloads db e m env with hsame | ⟨-, hafter⟩
      · rw [hsame]
        exact hone
      · exact oneLive_after hone hm hafter
    · intro db e m env m' _ _ hm' hsecond
      rcases apply_cases payloads db e m env with hsame | ⟨-, hafter⟩
      · rw [hsame]
        exact hm'
      · exact onlyTargetLive_after hm' hsecond hafter
  exact hpre.1

/-- The same draws give the same key, which the schema would refuse. -/
def otherEnv (now : Timestamp) : CallEnv := { now, rng := fun _ => ⟨1, by decide⟩, txNow := now }

/-- The first event of a charge is through before the second one starts. -/
def oneAfterTheOther : List WebhookStep :=
  [.resolve "evt_activated" (sampleEnv 1), .apply "evt_activated" (sampleEnv 1),
   .resolve "evt_charged" (otherEnv 2), .apply "evt_charged" (otherEnv 2)]

theorem one_live_license_oneAfterTheOther :
    OneLive 1 (run (webhooks samplePayloads).step (start sampleDb) oneAfterTheOther).store :=
  one_live_license samplePayloads sampleDb 1 (by decide) oneAfterTheOther (by decide)
    oneAfterTheOther [] (by simp)

/-- A subscription with one pending payment and no licence. -/
def PendingWithoutLicense (db : Db) (sid : ℕ) : Prop :=
  (∃ p ∈ db.payments.rows, p.subscriptionId = sid ∧ p.status = .pending ∧
    ∀ q ∈ db.payments.rows, q.subscriptionId = sid → q = p) ∧
  ∀ k ∈ db.licenses.rows, k.subscriptionId ≠ sid

instance (db : Db) (sid : ℕ) : Decidable (PendingWithoutLicense db sid) := by
  unfold PendingWithoutLicense
  infer_instance

/-- Both events of a charge are resolved before either is applied. -/
theorem two_live_licenses :
    ¬ ∀ payloads db sid, PendingWithoutLicense db sid →
      ∀ steps, OneLive sid (run (webhooks payloads).step (start db) steps).store := by
  intro h
  have hrun := h samplePayloads sampleDb 1 (by decide)
    [.resolve "evt_activated" (sampleEnv 1), .resolve "evt_charged" (otherEnv 1),
     .apply "evt_activated" (sampleEnv 2), .apply "evt_charged" (otherEnv 2)]
  exact absurd hrun (by decide)

end LicenseServer
