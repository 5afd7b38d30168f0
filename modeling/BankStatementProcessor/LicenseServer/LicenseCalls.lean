import BankStatementProcessor.LicenseServer.LicenseService

/-!
# What a licence call does

`LicenseM.eval` is a call that completes with no other in between. Which rows it finds is
said by `HasLicense` and `HasDevice`, and each call gets one lemma for each way it can end.
-/

namespace LicenseServer

open Infra

namespace LicenseM

variable {α β : Type} {env : CallEnv} {st st' : Store}

/-- The call completes; every clock it reads shows the same time. -/
def eval (env : CallEnv) (x : LicenseM α) (st : Store) : Except LicenseOperationError α × Store :=
  Prog.eval env x.run st

@[simp] theorem eval_pure (a : α) : eval env (pure a) st = (.ok a, st) := rfl

@[simp] theorem eval_query_bind (g : Store → α) (f : α → LicenseM β) :
    eval env (query g >>= f) st = eval env (f (g st)) st := rfl

@[simp] theorem eval_clock_bind (f : Timestamp → LicenseM β) :
    eval env (clock >>= f) st = eval env (f env.now) st := rfl

@[simp] theorem eval_execute_bind (g : Timestamp → Store → Store) (f : Unit → LicenseM β) :
    eval env (execute g >>= f) st = eval env (f ()) (g env.txNow st) := rfl

theorem eval_bind_of_ok {x : LicenseM α} {f : α → LicenseM β} {a : α}
    (h : eval env x st = (.ok a, st')) : eval env (x >>= f) st = eval env (f a) st' := by
  have hrun := Prog.eval_bind env x.run (ExceptT.bindCont f) st
  unfold eval at h
  rw [h] at hrun
  exact hrun

theorem eval_bind_of_error {x : LicenseM α} {f : α → LicenseM β} {e : LicenseOperationError}
    (h : eval env x st = (.error e, st')) : eval env (x >>= f) st = (.error e, st') := by
  have hrun := Prog.eval_bind env x.run (ExceptT.bindCont f) st
  unfold eval at h
  rw [h] at hrun
  exact hrun

theorem eval_transaction (f : Timestamp → Store → Except RepositoryError α × Store) :
    eval env (transaction f) st =
      ((f env.txNow st).1.mapError .repository, (f env.txNow st).2) := by
  have hlift : eval env (ExceptT.lift (Prog.atomically fun env st => f env.txNow st)) st =
      (.ok (f env.txNow st).1, (f env.txNow st).2) := rfl
  rw [transaction, eval_bind_of_ok hlift]
  cases (f env.txNow st).1 <;> rfl

theorem eval_map (x : LicenseM α) (f : α → β) :
    eval env (f <$> x) st = ((eval env x st).1.map f, (eval env x st).2) := by
  unfold eval
  rw [Prog.run_map, Prog.eval_map]

end LicenseM

/-! ## The rows a call finds -/

/-- The session, where there is one, is that of the owner. -/
def Store.OwnedBy (st : Store) (subscriptionId : ℕ) (requestingUserId : Option ℤ) : Prop :=
  ∀ userId ∈ requestingUserId,
    ∃ s ∈ st.subscriptions.rows, s.id = subscriptionId ∧ (s.userId : ℤ) = userId

instance (st : Store) (subscriptionId : ℕ) (requestingUserId : Option ℤ) :
    Decidable (st.OwnedBy subscriptionId requestingUserId) := by
  unfold Store.OwnedBy
  infer_instance

theorem Store.ownedBy_none {st : Store} {subscriptionId : ℕ} : st.OwnedBy subscriptionId none := by
  intro userId huser
  cases huser

/-- `l` is the licence with this id, and not someone else's. -/
structure HasLicense (st : Store) (licenseId : ℤ) (requestingUserId : Option ℤ) (l : License) :
    Prop where
  mem : l ∈ st.licenses.rows
  id_eq : (l.id : ℤ) = licenseId
  owned : st.OwnedBy l.subscriptionId requestingUserId

/-- `d` is the active row of this device on the licence. -/
structure HasDevice (st : Store) (l : License) (deviceId : Uuid) (d : Device) : Prop where
  mem : d ∈ st.devices.rows
  license : d.licenseId = l.id
  device : d.deviceId = deviceId
  active : d.deactivatedAt = none

instance (st : Store) (licenseId : ℤ) (requestingUserId : Option ℤ) (l : License) :
    Decidable (HasLicense st licenseId requestingUserId l) :=
  decidable_of_iff (l ∈ st.licenses.rows ∧ (l.id : ℤ) = licenseId ∧
      st.OwnedBy l.subscriptionId requestingUserId)
    ⟨fun ⟨h₁, h₂, h₃⟩ => ⟨h₁, h₂, h₃⟩, fun ⟨h₁, h₂, h₃⟩ => ⟨h₁, h₂, h₃⟩⟩

instance (st : Store) (l : License) (deviceId : Uuid) (d : Device) :
    Decidable (HasDevice st l deviceId d) :=
  decidable_of_iff (d ∈ st.devices.rows ∧ d.licenseId = l.id ∧ d.deviceId = deviceId ∧
      d.deactivatedAt = none)
    ⟨fun ⟨h₁, h₂, h₃, h₄⟩ => ⟨h₁, h₂, h₃, h₄⟩, fun ⟨h₁, h₂, h₃, h₄⟩ => ⟨h₁, h₂, h₃, h₄⟩⟩

section

variable {st : Store} {l : License} {d : Device} {licenseId : ℤ} {deviceId : Uuid}
  {requestingUserId : Option ℤ}

theorem findLicenseById_eq_some :
    st.findLicenseById licenseId = some l ↔ l ∈ st.licenses.rows ∧ (l.id : ℤ) = licenseId := by
  unfold Store.findLicenseById
  rw [find?_eq_some_of_unique]
  · simp
  · intro l hl l' hl' h h'
    simp only [decide_eq_true_eq] at h h'
    exact st.licenses.eq_of_key hl hl' (Int.ofNat.inj (h.trans h'.symm))

theorem findLicenseByKey_eq_some {licenseKey : String} :
    st.findLicenseByKey licenseKey = some l ↔
      l ∈ st.licenses.rows ∧ l.licenseKey = licenseKey := by
  unfold Store.findLicenseByKey
  rw [find?_eq_some_of_unique]
  · simp
  · intro l hl l' hl' h h'
    simp only [decide_eq_true_eq] at h h'
    exact st.licenseKey_unique l hl l' hl' licenseKey (congrArg some h) (congrArg some h')

theorem findByLicenseAndDeviceId_eq_some {id : ℕ} :
    st.findByLicenseAndDeviceId id deviceId = some d ↔
      d ∈ st.devices.rows ∧ d.licenseId = id ∧ d.deviceId = deviceId := by
  unfold Store.findByLicenseAndDeviceId
  rw [find?_eq_some_of_unique]
  · simp
  · intro d hd d' hd' h h'
    simp only [decide_eq_true_eq] at h h'
    exact st.device_unique d hd d' hd' (id, deviceId) (by simp [h]) (by simp [h'])

theorem filter_active_eq_some : (st.findByLicenseAndDeviceId l.id deviceId).filter
    (·.deactivatedAt = none) = some d ↔ HasDevice st l deviceId d := by
  rw [Option.filter_eq_some_iff, findByLicenseAndDeviceId_eq_some]
  simp only [decide_eq_true_eq]
  constructor
  · rintro ⟨⟨hmem, hl, hdev⟩, hactive⟩
    exact ⟨hmem, hl, hdev, hactive⟩
  · rintro ⟨hmem, hl, hdev, hactive⟩
    exact ⟨⟨hmem, hl, hdev⟩, hactive⟩

/-- A caller finds at most one licence by an id. -/
theorem HasLicense.unique {l' : License} (h : HasLicense st licenseId requestingUserId l)
    (h' : HasLicense st licenseId requestingUserId l') : l = l' :=
  st.licenses.eq_of_key h.mem h'.mem (Int.ofNat.inj (h.id_eq.trans h'.id_eq.symm))

theorem HasDevice.unique {d' : Device} (h : HasDevice st l deviceId d)
    (h' : HasDevice st l deviceId d') : d = d' :=
  st.device_unique d h.mem d' h'.mem (l.id, deviceId) (by simp [h.license, h.device])
    (by simp [h'.license, h'.device])

variable {env : CallEnv}

theorem eval_ownsSubscription {subscriptionId : ℕ} :
    (LicenseService.ownsSubscription subscriptionId requestingUserId).eval env st =
      (.ok (decide (st.OwnedBy subscriptionId requestingUserId)), st) := by
  cases requestingUserId with
  | none => simp [LicenseService.ownsSubscription, Store.OwnedBy]
  | some userId =>
    simp only [LicenseService.ownsSubscription, LicenseM.eval_query_bind, LicenseM.eval_pure,
      Prod.mk.injEq, Except.ok.injEq, and_true, decide_eq_decide]
    simp only [Store.findSubscriptionById, Store.OwnedBy, Option.mem_some_iff, forall_eq',
      Option.map_map, Option.map_eq_some_iff, Function.comp_apply, Table.get?_eq_some]
    constructor
    · rintro ⟨s, ⟨hs, hid⟩, huser⟩
      exact ⟨s, hs, hid, huser⟩
    · rintro ⟨s, hs, hid, huser⟩
      exact ⟨s, ⟨hs, hid⟩, huser⟩

/-! ## How a call ends -/

open LicenseM LicenseService

theorem findLicenseById_of_not_hasLicense (h : ∀ l, ¬ HasLicense st licenseId requestingUserId l) :
    st.findLicenseById licenseId = none ∨ ∃ l, st.findLicenseById licenseId = some l ∧
      ¬ st.OwnedBy l.subscriptionId requestingUserId := by
  cases hfind : st.findLicenseById licenseId with
  | none => exact Or.inl rfl
  | some l =>
    obtain ⟨hl, hid⟩ := findLicenseById_eq_some.mp hfind
    exact Or.inr ⟨l, rfl, fun howned => h l ⟨hl, hid, howned⟩⟩

theorem filter_active_eq_none (h : ∀ d, ¬ HasDevice st l deviceId d) :
    (st.findByLicenseAndDeviceId l.id deviceId).filter (·.deactivatedAt = none) = none := by
  rw [Option.eq_none_iff_forall_ne_some]
  intro d hd
  exact h d (filter_active_eq_some.mp hd)

theorem eval_findActiveDevice_of_some (hl : HasLicense st licenseId requestingUserId l)
    (hd : HasDevice st l deviceId d) :
    (findActiveDevice licenseId deviceId requestingUserId).eval env st = (.ok (l, d), st) := by
  unfold findActiveDevice
  rw [eval_query_bind, findLicenseById_eq_some.mpr ⟨hl.mem, hl.id_eq⟩]
  dsimp only
  rw [eval_bind_of_ok eval_ownsSubscription, decide_eq_true hl.owned]
  simp only [Bool.not_true, Bool.false_eq_true, if_false, eval_query_bind]
  rw [filter_active_eq_some.mpr hd]
  rfl

theorem eval_findActiveDevice_of_none
    (h : ∀ l, HasLicense st licenseId requestingUserId l → ∀ d, ¬ HasDevice st l deviceId d) :
    (findActiveDevice licenseId deviceId requestingUserId).eval env st =
      (.error .deviceNotActivated, st) := by
  unfold findActiveDevice
  rw [eval_query_bind]
  by_cases hl : ∃ l, HasLicense st licenseId requestingUserId l
  · obtain ⟨l, hl⟩ := hl
    rw [findLicenseById_eq_some.mpr ⟨hl.mem, hl.id_eq⟩]
    dsimp only
    rw [eval_bind_of_ok eval_ownsSubscription, decide_eq_true hl.owned]
    simp only [Bool.not_true, Bool.false_eq_true, if_false, eval_query_bind]
    rw [filter_active_eq_none (h l hl)]
    rfl
  · push Not at hl
    rcases findLicenseById_of_not_hasLicense hl with hfind | ⟨l, hfind, howned⟩
    · rw [hfind]
      rfl
    · rw [hfind]
      dsimp only
      rw [eval_bind_of_ok eval_ownsSubscription, decide_eq_false howned]
      rfl

variable {machineFingerprint : String}

theorem eval_validate_of_none
    (h : ∀ l, HasLicense st licenseId requestingUserId l → ∀ d, ¬ HasDevice st l deviceId d) :
    (validate licenseId deviceId machineFingerprint requestingUserId).eval env st =
      (.error .deviceNotActivated, st) :=
  eval_bind_of_error (eval_findActiveDevice_of_none h)

theorem eval_validate (hl : HasLicense st licenseId requestingUserId l)
    (hd : HasDevice st l deviceId d) :
    (validate licenseId deviceId machineFingerprint requestingUserId).eval env st =
      (if d.machineFingerprint ≠ machineFingerprint then .error .deviceMismatch
        else .ok { status := effectiveStatus l env.now, expiresAt := l.expiresAt,
                   gracePeriodDays := l.gracePeriodDays, fingerprintMatched := true },
        st.touchLastSeen env.txNow d.id) := by
  refine (eval_bind_of_ok (eval_findActiveDevice_of_some hl hd)).trans ?_
  dsimp only
  rw [eval_execute_bind, eval_clock_bind]
  by_cases hfp : d.machineFingerprint ≠ machineFingerprint
  · rw [if_pos hfp, if_pos hfp]
    rfl
  · rw [if_neg hfp, if_neg hfp]
    rfl

theorem eval_heartbeat_of_none
    (h : ∀ l, HasLicense st licenseId requestingUserId l → ∀ d, ¬ HasDevice st l deviceId d) :
    (heartbeat licenseId deviceId requestingUserId).eval env st =
      (.error .deviceNotActivated, st) :=
  eval_bind_of_error (eval_findActiveDevice_of_none h)

theorem eval_heartbeat (hl : HasLicense st licenseId requestingUserId l)
    (hd : HasDevice st l deviceId d) :
    (heartbeat licenseId deviceId requestingUserId).eval env st =
      (.ok { status := effectiveStatus l env.now }, st.touchLastSeen env.txNow d.id) :=
  eval_bind_of_ok (eval_findActiveDevice_of_some hl hd)

theorem eval_deactivate_of_not_hasLicense
    (h : ∀ l, ¬ HasLicense st licenseId requestingUserId l) :
    (LicenseService.deactivate licenseId deviceId machineFingerprint requestingUserId).eval env st =
      (.error .licenseNotFound, st) := by
  unfold LicenseService.deactivate
  rw [eval_query_bind]
  rcases findLicenseById_of_not_hasLicense h with hfind | ⟨l, hfind, howned⟩
  · rw [hfind]
    rfl
  · rw [hfind]
    dsimp only
    rw [eval_bind_of_ok eval_ownsSubscription, decide_eq_false howned]
    rfl

theorem eval_deactivate_of_not_hasDevice (hl : HasLicense st licenseId requestingUserId l)
    (h : ∀ d, ¬ HasDevice st l deviceId d) :
    (LicenseService.deactivate licenseId deviceId machineFingerprint requestingUserId).eval env st =
      (.error .deviceNotActivated, st) := by
  unfold LicenseService.deactivate
  rw [eval_query_bind, findLicenseById_eq_some.mpr ⟨hl.mem, hl.id_eq⟩]
  dsimp only
  rw [eval_bind_of_ok eval_ownsSubscription, decide_eq_true hl.owned]
  simp only [Bool.not_true, Bool.false_eq_true, if_false, eval_query_bind]
  rw [filter_active_eq_none h]
  rfl

theorem eval_deactivate (hl : HasLicense st licenseId requestingUserId l)
    (hd : HasDevice st l deviceId d) :
    (LicenseService.deactivate licenseId deviceId machineFingerprint requestingUserId).eval env st =
      if d.machineFingerprint ≠ machineFingerprint then (.error .deviceMismatch, st)
      else (.ok { devicesActive := (st.deactivate env.txNow d.id).countActiveByLicense l.id },
        st.deactivate env.txNow d.id) := by
  unfold LicenseService.deactivate
  rw [eval_query_bind, findLicenseById_eq_some.mpr ⟨hl.mem, hl.id_eq⟩]
  dsimp only
  rw [eval_bind_of_ok eval_ownsSubscription, decide_eq_true hl.owned]
  simp only [Bool.not_true, Bool.false_eq_true, if_false, eval_query_bind]
  rw [filter_active_eq_some.mpr hd]
  dsimp only
  by_cases hfp : d.machineFingerprint ≠ machineFingerprint
  · rw [if_pos hfp, if_pos hfp]
    rfl
  · rw [if_neg hfp, if_neg hfp]
    rfl

variable {licenseKey deviceLabel : String} (env deviceId machineFingerprint deviceLabel)

/-- An activation that fails leaves the store as it is; one that succeeds has done what
`activate_device` does. The subscription of a licence is never missing. -/
theorem eval_activateLicense_cases (hl : l ∈ st.licenses.rows) :
    (∃ e, (activateLicense l deviceId machineFingerprint deviceLabel).eval env st =
        (.error e, st)) ∨
      ∃ o, (activateLicense l deviceId machineFingerprint deviceLabel).eval env st =
        (.ok o, (activateDevice st env.txNow l.id l.maxDevices deviceId machineFingerprint
          deviceLabel).2) := by
  unfold activateLicense
  have hresult := activateDevice_result st env.txNow l.id l.maxDevices deviceId
    machineFingerprint deviceLabel
  have hdb := activateDevice_toDb st env.txNow l.id l.maxDevices deviceId machineFingerprint
    deviceLabel
  have htx : eval env (transaction fun txNow st => activateDevice st txNow l.id l.maxDevices
      deviceId machineFingerprint deviceLabel) st = _ := eval_transaction _
  generalize activateDevice st env.txNow l.id l.maxDevices deviceId machineFingerprint
    deviceLabel = r at hresult hdb htx ⊢
  obtain ⟨outcome, st'⟩ := r
  cases outcome with
  | error e =>
    rw [eval_bind_of_error htx]
    cases hresult
    exact Or.inl ⟨_, rfl⟩
  | ok outcome =>
    rw [eval_bind_of_ok htx]
    cases outcome with
    | limitReached existing =>
      cases hresult
      exact Or.inl ⟨_, rfl⟩
    | activated =>
      obtain ⟨s, hs, hid⟩ := st.license_subscription l hl
      have hfind : st'.findSubscriptionById l.subscriptionId = some s := by
        rw [Store.findSubscriptionById, show st'.toDb = st.toDb from hdb]
        exact Table.get?_eq_some.mpr ⟨hs, hid⟩
      dsimp only
      rw [eval_query_bind, hfind]
      exact Or.inr ⟨_, rfl⟩

theorem eval_activate_cases :
    (∃ e, (activate licenseKey deviceId machineFingerprint deviceLabel).eval env st =
        (.error e, st)) ∨
      ∃ l o, (l ∈ st.licenses.rows ∧ l.licenseKey = licenseKey) ∧
        (activate licenseKey deviceId machineFingerprint deviceLabel).eval env st =
          (.ok o, (activateDevice st env.txNow l.id l.maxDevices deviceId machineFingerprint
            deviceLabel).2) := by
  unfold activate
  rw [eval_query_bind]
  cases hfind : st.findLicenseByKey licenseKey with
  | none => exact Or.inl ⟨_, rfl⟩
  | some l =>
    have hl := findLicenseByKey_eq_some.mp hfind
    dsimp only
    rw [eval_clock_bind]
    have htail := eval_activateLicense_cases deviceId env machineFingerprint deviceLabel hl.1
    cases effectiveStatus l env.now with
    | revoked => exact Or.inl ⟨_, rfl⟩
    | expired => exact Or.inl ⟨_, rfl⟩
    | active => exact htail.imp_right fun ⟨o, ho⟩ => ⟨l, o, hl, ho⟩
    | suspended => exact htail.imp_right fun ⟨o, ho⟩ => ⟨l, o, hl, ho⟩

end

/-- A call that is scheduled until its end, with no other in between, is evaluated. -/
theorem run_alone {κ : Type} [DecidableEq κ] {calls : κ → ServiceCall} {k : κ} {call : LicenseCall}
    (h : calls k = .license call) (env : CallEnv) (st : Store) :
    ∃ n, (run Pool.step (startCalls calls st) (List.replicate n (k, env))).calls k =
        .ret (.license (call.run.eval env st).1) ∧
      (run Pool.step (startCalls calls st) (List.replicate n (k, env))).store =
        (call.run.eval env st).2 := by
  obtain ⟨n, hend, hstore⟩ := Pool.run_replicate (startCalls calls st) k env
  have hprog : (startCalls calls st).calls k = CallResult.license <$> call.run.run :=
    congrArg ServiceCall.prog h
  rw [hprog, Prog.eval_map] at hend hstore
  exact ⟨n, hend, hstore⟩

/-! ## Runs of the whole server -/

inductive ServerRequest
  | payment (r : Request)
  | license (env : CallEnv) (call : LicenseCall)

def serve (st : Store) : ServerRequest → Store
  | .payment r => st.mapDb (fun db => step db r) fun db => (step_termsAfter db r).isPrefix
  | .license env call => (call.run.eval env st).2

/-- A monthly subscription that is paid at time 1, with its licence active on one device. -/
def sampleActivation : List ServerRequest :=
  [.payment (sampleCheckout "sub_1"),
   .payment (.webhook
     (sampleDelivery 1 "evt_1" (sampleCharge "subscription.charged" "sub_1" "pay_1"))),
   .license (sampleEnv 2) (.activate "AAAA-AAAA-AAAA-AAAA" 7 "fingerprint" "laptop")]

end LicenseServer
