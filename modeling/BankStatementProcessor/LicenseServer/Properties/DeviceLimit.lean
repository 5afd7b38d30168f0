import BankStatementProcessor.LicenseServer.LicenseCalls

/-!
# The device limit

`device_limit` — however licence calls and webhook events interleave, no licence has more
active devices than its `max_devices`. `activate_device` counts and writes in one action, with
the limit that `find_by_key` has read in an earlier one, so the proof relies on the terms of a
licence: nobody changes them in between.
-/

namespace LicenseServer

open Infra LicenseService

/-- No licence has more active devices than it may have; the limit is an `INT`. -/
def WithinLimits (st : Store) : Prop :=
  ∀ l ∈ st.licenses.rows,
    st.countActiveByLicense l.id ≤ l.maxDevices ∧ l.maxDevices < 2147483648

/-- The rows of the table as the limit sees them. -/
def Store.slots (st : Store) : List (ℕ × ℕ × Uuid × Option Timestamp) :=
  st.devices.rows.map fun d => (d.id, d.licenseId, d.deviceId, d.deactivatedAt)

/-- The device is active on the licence with this key. -/
def ActiveOn (st : Store) (licenseKey : String) (deviceId : Uuid) : Prop :=
  ∃ l ∈ st.licenses.rows, l.licenseKey = licenseKey ∧ ∃ d, HasDevice st l deviceId d

/-! ## Counting -/

section

variable {st st' : Store} {l : License} {licenseId : ℕ}

theorem countActiveByLicense_eq_countP : st.countActiveByLicense licenseId =
    st.devices.rows.countP fun d => d.licenseId = licenseId ∧ d.deactivatedAt = none := by
  rw [List.countP_eq_length_filter]
  rfl

theorem countActiveByLicense_eq_slots : st.countActiveByLicense licenseId =
    st.slots.countP fun x => x.2.1 = licenseId ∧ x.2.2.2 = none := by
  rw [countActiveByLicense_eq_countP, Store.slots, List.countP_map]
  rfl

theorem WithinLimits.of_slots (h : WithinLimits st) (hdb : st'.toDb = st.toDb)
    (hslots : st'.slots = st.slots) : WithinLimits st' := by
  intro l hl
  rw [hdb] at hl
  rw [countActiveByLicense_eq_slots, hslots, ← countActiveByLicense_eq_slots]
  exact h l hl

variable {id : ℕ} {f : Device → Device} (hid : ∀ d, (f d).id = d.id)
  (hkey : ∀ d, (f d).licenseId = d.licenseId ∧ (f d).deviceId = d.deviceId)

theorem slots_modifyDevice (hf : ∀ d, (f d).deactivatedAt = d.deactivatedAt) :
    (st.modifyDevice id f hid hkey).slots = st.slots := by
  refine List.map_map.trans (List.map_congr_left fun d _ => ?_)
  dsimp only [Function.comp_apply]
  split
  · rw [hid, (hkey d).1, (hkey d).2, hf]
  · rfl

/-- A row that is deactivated frees a slot, or none. -/
theorem WithinLimits.modifyDevice (h : WithinLimits st)
    (hf : ∀ d, (f d).deactivatedAt = none → d.deactivatedAt = none) :
    WithinLimits (st.modifyDevice id f hid hkey) := by
  intro l hl
  refine ⟨le_trans ?_ (h l hl).1, (h l hl).2⟩
  rw [countActiveByLicense_eq_countP, countActiveByLicense_eq_countP, Store.modifyDevice_devices]
  refine Table.countP_modify_le fun d _ _ hd => ?_
  simp only [decide_eq_true_eq, (hkey d).1] at hd ⊢
  exact ⟨hd.1, hf d hd.2⟩

/-- A row that is activated takes at most one slot, of its own licence. -/
theorem WithinLimits.modifyDevice_of_free (h : WithinLimits st) {d : Device}
    (hd : d ∈ st.devices.rows) (hfree : ∀ l ∈ st.licenses.rows, l.id = d.licenseId →
      st.countActiveByLicense l.id < l.maxDevices) :
    WithinLimits (st.modifyDevice d.id f hid hkey) := by
  intro l hl
  refine ⟨?_, (h l hl).2⟩
  rw [countActiveByLicense_eq_countP, Store.modifyDevice_devices]
  by_cases hid' : l.id = d.licenseId
  · have hlt := hfree l hl hid'
    rw [countActiveByLicense_eq_countP] at hlt
    exact le_trans Table.countP_modify_le_succ hlt
  · refine le_trans (Table.countP_modify_le fun d' hd' hkey' hcount => ?_)
      (countActiveByLicense_eq_countP.symm.trans_le (h l hl).1)
    -- the row is of another licence
    obtain rfl := st.devices.eq_of_key hd' hd hkey'
    simp only [decide_eq_true_eq, (hkey d').1] at hcount
    exact absurd hcount.1.symm hid'

theorem WithinLimits.insertDevice (h : WithinLimits st) {now : Timestamp}
    {machineFingerprint deviceLabel : String} {deviceId : Uuid}
    (hst : st.insertDevice now machineFingerprint deviceLabel licenseId deviceId = .ok st')
    (hfree : ∀ l ∈ st.licenses.rows, l.id = licenseId →
      st.countActiveByLicense l.id < l.maxDevices) : WithinLimits st' := by
  obtain ⟨hdb, hdevices⟩ := insertDevice_eq_ok hst
  intro l hl
  rw [hdb] at hl
  refine ⟨?_, (h l hl).2⟩
  have hcount : st'.countActiveByLicense l.id =
      st.countActiveByLicense l.id + if licenseId = l.id then 1 else 0 := by
    rw [countActiveByLicense_eq_countP, countActiveByLicense_eq_countP, hdevices]
    simp [Table.insert, List.countP_append, List.countP_singleton, Store.newDevice]
  rw [hcount]
  by_cases hid : licenseId = l.id
  · rw [if_pos hid]
    exact hfree l hl hid.symm
  · rw [if_neg hid]
    exact (h l hl).1

/-- A licence that is issued has no devices yet. -/
theorem WithinLimits.mapDb (h : WithinLimits st) {g : Db → Db} {hg : ∀ db, db.terms <+: (g db).terms}
    {issued : Option ℕ} (hissued : ∀ n, issued = some n → n < 2147483648)
    (hterms : TermsAfter issued st.toDb (g st.toDb)) : WithinLimits (st.mapDb g hg) := by
  intro l hl
  have hcount : (st.mapDb g hg).countActiveByLicense l.id = st.countActiveByLicense l.id := rfl
  have hmem : l.terms ∈ (g st.toDb).terms := mem_terms.mpr ⟨l, hl, rfl⟩
  have hold : l.terms ∈ st.toDb.terms →
      st.countActiveByLicense l.id ≤ l.maxDevices ∧ l.maxDevices < 2147483648 := by
    intro hmem
    obtain ⟨l₀, hl₀, hsame⟩ := mem_terms.mp hmem
    have := h l₀ hl₀
    rwa [show l₀.id = l.id from congrArg LicenseTerms.id hsame,
      show l₀.maxDevices = l.maxDevices from congrArg LicenseTerms.maxDevices hsame] at this
  rw [hcount]
  rcases hterms with heq | ⟨t, hid, hlimit, happend⟩
  · rw [heq] at hmem
    exact hold hmem
  · rw [happend, List.mem_append, List.mem_singleton] at hmem
    rcases hmem with hmem | rfl
    · exact hold hmem
    · refine ⟨?_, hissued _ hlimit⟩
      rw [countActiveByLicense_eq_countP, List.countP_eq_zero.mpr]
      · exact Nat.zero_le _
      · intro d hd
        obtain ⟨l₀, hl₀, hl₀d⟩ := st.device_license d hd
        have hbelow := st.licenses.below l₀ hl₀
        have hnew : l.id = st.licenses.nextId := hid
        simp only [decide_eq_true_eq, not_and]
        omega

end

/-! ## One call -/

/-- The terms of a licence are there to stay. -/
def TermsGrow (st st' : Store) : Prop := st.terms <+: st'.terms

/-- What an action of the call does: it keeps the terms and the limits, and an activation of a
device that is active already leaves the slots. -/
structure Guarantee (call : ServiceCall) (st st' : Store) : Prop where
  terms : TermsGrow st st'
  limits : WithinLimits st → WithinLimits st'
  repeated : ∀ licenseKey deviceId machineFingerprint deviceLabel,
    call = .license (.activate licenseKey deviceId machineFingerprint deviceLabel) →
      ActiveOn st licenseKey deviceId → st'.slots = st.slots

theorem Guarantee.refl {call : ServiceCall} (st : Store) : Guarantee call st st :=
  ⟨List.prefix_refl _, id, fun _ _ _ _ _ _ => rfl⟩

section

variable {call : ServiceCall} {st : Store} {licenseKey machineFingerprint deviceLabel : String}
  {deviceId : Uuid} {l : License}

/-- Whatever keeps the slots is guaranteed. -/
theorem Guarantee.of_slots {st' : Store} (hdb : st'.toDb = st.toDb)
    (hslots : st'.slots = st.slots) : Guarantee call st st' where
  terms := prefix_of_terms_eq (congrArg Db.terms hdb)
  limits h := h.of_slots hdb hslots
  repeated _ _ _ _ _ _ := hslots

theorem slots_touchLastSeen {now : Timestamp} {id : ℕ} :
    (st.touchLastSeen now id).slots = st.slots :=
  slots_modifyDevice (f := Store.touched now) (fun _ => rfl) (fun _ => ⟨rfl, rfl⟩) fun _ => rfl

theorem slots_refreshDevice {now : Timestamp} {id : ℕ} :
    (st.refreshDevice now id machineFingerprint deviceLabel).slots = st.slots :=
  slots_modifyDevice (f := Store.refreshed now machineFingerprint deviceLabel) (fun _ => rfl)
    (fun _ => ⟨rfl, rfl⟩) fun _ => rfl

theorem asI32_eq_self {n : ℕ} (h : n < 2147483648) : asI32 n = n := by
  unfold asI32 Int.bmod
  dsimp only
  split <;> omega

/-- The transaction of an activation, for a licence whose terms are still those that were read. -/
theorem guarantee_activateDevice (hl : l.terms ∈ st.terms) (hkey : l.licenseKey = licenseKey)
    (now : Timestamp) :
    Guarantee (.license (.activate licenseKey deviceId machineFingerprint deviceLabel)) st
      (activateDevice st now l.id l.maxDevices deviceId machineFingerprint deviceLabel).2 := by
  obtain ⟨l₀, hl₀, hsame⟩ := mem_terms.mp hl
  have hid : l₀.id = l.id := congrArg LicenseTerms.id hsame
  have hkey₀ : l₀.licenseKey = l.licenseKey := congrArg LicenseTerms.licenseKey hsame
  have hmax : l₀.maxDevices = l.maxDevices := congrArg LicenseTerms.maxDevices hsame
  have hfree : WithinLimits st → asI32 (st.countActiveByLicense l.id) < l.maxDevices →
      ∀ l' ∈ st.licenses.rows, l'.id = l.id → st.countActiveByLicense l'.id < l'.maxDevices := by
    intro h hlt l' hl' hid'
    obtain rfl := st.licenses.eq_of_key hl' hl₀ (hid'.trans hid.symm)
    obtain ⟨hle, hint⟩ := h l' hl'
    rw [← hid, ← hmax, asI32_eq_self (by omega)] at hlt
    omega
  have hactive : ActiveOn st licenseKey deviceId → ∃ d ∈ st.devices.rows,
      d.licenseId = l.id ∧ d.deviceId = deviceId ∧ d.deactivatedAt = none := by
    rintro ⟨l', hl', hkey', d, hd⟩
    obtain rfl := st.licenseKey_unique l' hl' l₀ hl₀ licenseKey (congrArg some hkey')
      (congrArg some (hkey₀.trans hkey))
    exact ⟨d, hd.mem, hd.license.trans hid, hd.device, hd.active⟩
  have hresult := activateDevice_result st now l.id l.maxDevices deviceId machineFingerprint
    deviceLabel
  generalize activateDevice st now l.id l.maxDevices deviceId machineFingerprint deviceLabel = r
    at hresult ⊢
  cases hresult with
  | failed e => exact .refl st
  | limitReached existing => exact .refl st
  | refreshed hd hdl hdev hd0 => exact .of_slots rfl slots_refreshDevice
  | reactivated hd hdl hdev hinactive hlt =>
    refine ⟨List.prefix_refl _, fun h => ?_, ?_⟩
    · refine h.modifyDevice_of_free (f := Store.reactivated now machineFingerprint deviceLabel)
        (fun _ => rfl) (fun _ => ⟨rfl, rfl⟩) hd ?_
      rw [hdl]
      exact hfree h hlt
    · intro key dev fp label hcall hon
      cases hcall
      -- the row that is activated would be active
      obtain ⟨d', hd', hdl', hdev', hd0⟩ := hactive hon
      obtain rfl := st.device_unique _ hd d' hd' (l.id, deviceId) (by simp [hdl, hdev])
        (by simp [hdl', hdev'])
      exact absurd hd0 hinactive
  | inserted hnew hlt hst =>
    obtain ⟨hdb, -⟩ := insertDevice_eq_ok hst
    refine ⟨?_, fun h => h.insertDevice hst (hfree h hlt), ?_⟩
    · exact prefix_of_terms_eq (congrArg Db.terms hdb)
    · intro key dev fp label hcall hon
      cases hcall
      obtain ⟨d', hd', hdl', hdev', -⟩ := hactive hon
      exact absurd hdev' (hnew d' hd' hdl')

/-- The call does what it guarantees, whatever the others do to the licences but their terms. -/
def Keeps (call : ServiceCall) (st : Store) {α : Type} (p : Prog Store CallEnv α) : Prop :=
  Prog.Along TermsGrow WithinLimits (Guarantee call) st p

theorem termsGrow_refl (st : Store) : TermsGrow st st := List.prefix_refl _

theorem TermsGrow.trans {r s t : Store} (h : TermsGrow r s) (h' : TermsGrow s t) :
    TermsGrow r t :=
  List.IsPrefix.trans h h'

theorem Keeps.bind {α β : Type} {x : LicenseM α} {f : α → LicenseM β} (h : Keeps call st x.run)
    (hf : ∀ a t, TermsGrow st t → Keeps call t (f a).run) : Keeps call st (x >>= f).run :=
  Prog.along_except_bind termsGrow_refl (fun _ _ _ => TermsGrow.trans)
    (fun _ _ _ h => Guarantee.terms h) h hf

theorem keeps_query_bind {α β : Type} {g : Store → α} {f : α → LicenseM β}
    (h : ∀ t, TermsGrow st t → Keeps call t (f (g t)).run) :
    Keeps call st (LicenseM.query g >>= f).run :=
  Prog.along_query_bind Guarantee.refl fun _ t hst _ => h t hst

theorem keeps_clock_bind {β : Type} {f : Timestamp → LicenseM β}
    (h : ∀ now t, TermsGrow st t → Keeps call t (f now).run) :
    Keeps call st (LicenseM.clock >>= f).run :=
  Prog.along_query_bind Guarantee.refl fun env t hst _ => h env.now t hst

theorem keeps_execute_bind {β : Type} {g : Timestamp → Store → Store} {f : Unit → LicenseM β}
    (hg : ∀ now t, Guarantee call t (g now t)) (h : ∀ t, Keeps call t (f ()).run) :
    Keeps call st (LicenseM.execute g >>= f).run :=
  Prog.along_atomically_bind fun env t _ _ => ⟨hg env.txNow t, h (g env.txNow t)⟩

theorem keeps_transaction_bind {α β : Type}
    {g : Timestamp → Store → Except RepositoryError α × Store} {f : α → LicenseM β}
    (hg : ∀ now t, TermsGrow st t → Guarantee call t (g now t).2)
    (h : ∀ a t, Keeps call t (f a).run) : Keeps call st (LicenseM.transaction g >>= f).run := by
  rw [LicenseM.transaction_bind]
  refine Prog.along_atomically_bind fun env t hst _ => ⟨hg env.txNow t hst, ?_⟩
  cases (g env.txNow t).1 with
  | error e => trivial
  | ok a => exact h a _

theorem keeps_activateLicense (hl : l.terms ∈ st.terms) (hkey : l.licenseKey = licenseKey) :
    Keeps (.license (.activate licenseKey deviceId machineFingerprint deviceLabel)) st
      (activateLicense l deviceId machineFingerprint deviceLabel).run := by
  refine keeps_transaction_bind (fun now t hst => ?_) fun outcome t => ?_
  · exact guarantee_activateDevice (hst.subset hl) hkey now
  · cases outcome with
    | limitReached existing => trivial
    | activated =>
      refine keeps_query_bind fun t _ => ?_
      cases t.findSubscriptionById l.subscriptionId <;> trivial

theorem keeps_activate :
    Keeps (.license (.activate licenseKey deviceId machineFingerprint deviceLabel)) st
      (activate licenseKey deviceId machineFingerprint deviceLabel).run := by
  refine keeps_query_bind fun t _ => ?_
  cases hfind : t.findLicenseByKey licenseKey with
  | none => trivial
  | some l =>
    obtain ⟨hl, hkey⟩ := findLicenseByKey_eq_some.mp hfind
    refine keeps_clock_bind fun now t' hterms => ?_
    have hl' : l.terms ∈ t'.terms := hterms.subset (mem_terms.mpr ⟨l, hl, rfl⟩)
    cases effectiveStatus l now with
    | revoked => trivial
    | expired => trivial
    | active => exact keeps_activateLicense hl' hkey
    | suspended => exact keeps_activateLicense hl' hkey

theorem keeps_ownsSubscription {subscriptionId : ℕ} {requestingUserId : Option ℤ} :
    Keeps call st (ownsSubscription subscriptionId requestingUserId).run := by
  cases requestingUserId with
  | none => trivial
  | some userId => exact keeps_query_bind fun _ _ => trivial

variable {licenseId : ℤ} {requestingUserId : Option ℤ}

theorem keeps_findActiveDevice :
    Keeps call st (findActiveDevice licenseId deviceId requestingUserId).run := by
  refine keeps_query_bind fun t _ => ?_
  cases t.findLicenseById licenseId with
  | none => trivial
  | some l =>
    refine keeps_ownsSubscription.bind fun owned t _ => ?_
    cases owned with
    | false => trivial
    | true =>
      refine keeps_query_bind fun t _ => ?_
      cases (t.findByLicenseAndDeviceId l.id deviceId).filter (·.deactivatedAt = none) <;> trivial

theorem keeps_validate :
    Keeps call st (validate licenseId deviceId machineFingerprint requestingUserId).run := by
  refine keeps_findActiveDevice.bind fun found t _ => ?_
  refine keeps_execute_bind (fun now t => .of_slots rfl slots_touchLastSeen) fun t => ?_
  refine keeps_clock_bind fun now t _ => ?_
  dsimp only
  split <;> trivial

theorem keeps_heartbeat :
    Keeps call st (heartbeat licenseId deviceId requestingUserId).run := by
  refine keeps_findActiveDevice.bind fun found t _ => ?_
  refine keeps_execute_bind (fun now t => .of_slots rfl slots_touchLastSeen) fun t => ?_
  exact keeps_clock_bind fun now t _ => trivial

theorem keeps_deactivate (hcall : ∀ licenseKey deviceId machineFingerprint deviceLabel,
      call ≠ .license (.activate licenseKey deviceId machineFingerprint deviceLabel)) :
    Keeps call st (LicenseService.deactivate licenseId deviceId machineFingerprint
      requestingUserId).run := by
  refine keeps_query_bind fun t _ => ?_
  cases t.findLicenseById licenseId with
  | none => trivial
  | some l =>
    refine keeps_ownsSubscription.bind fun owned t _ => ?_
    cases owned with
    | false => trivial
    | true =>
      refine keeps_query_bind fun t _ => ?_
      cases (t.findByLicenseAndDeviceId l.id deviceId).filter (·.deactivatedAt = none) with
      | none => trivial
      | some d =>
        dsimp only
        split
        · trivial
        · refine keeps_execute_bind (fun now t => ?_) fun t => keeps_query_bind fun _ _ => trivial
          -- a slot is freed
          refine ⟨List.prefix_refl _, fun h => ?_, fun _ _ _ _ h => absurd h (hcall _ _ _ _)⟩
          refine h.modifyDevice (f := Store.deactivated now) (fun _ => rfl) (fun _ => ⟨rfl, rfl⟩) ?_
          intro d hd
          cases hd

theorem keeps_processEvent {eventId : String} {payload : RazorpayWebhookPayload}
    (hcall : ∀ licenseKey deviceId machineFingerprint deviceLabel,
      call ≠ .license (.activate licenseKey deviceId machineFingerprint deviceLabel)) :
    Keeps call st (processEvent eventId payload).run := by
  refine Prog.along_query_bind Guarantee.refl fun env t _ _ => ?_
  cases hm : resolveEvent t.toDb env payload with
  | error e => trivial
  | ok m =>
    refine Prog.along_atomically_bind fun env' u _ _ => ⟨?_, trivial⟩
    have hterms := settleEvent_termsAfter u.toDb env' eventId payload m
    refine ⟨hterms.isPrefix, fun h => h.mapDb (fun n hn => ?_) hterms,
      fun _ _ _ _ h => absurd h (hcall _ _ _ _)⟩
    rw [issuedLimit_of_resolveEvent hm hn]
    omega

theorem keeps_prog (call : ServiceCall) (st : Store) : Keeps call st call.prog := by
  cases call with
  | webhook eventId payload => exact Prog.along_map.mpr (keeps_processEvent (by simp))
  | license call =>
    refine Prog.along_map.mpr ?_
    cases call with
    | activate licenseKey deviceId machineFingerprint deviceLabel =>
      rw [LicenseCall.run, Prog.run_map]
      exact Prog.along_map.mpr keeps_activate
    | validate licenseId deviceId machineFingerprint requestingUserId =>
      rw [LicenseCall.run, Prog.run_map]
      exact Prog.along_map.mpr keeps_validate
    | heartbeat licenseId deviceId requestingUserId =>
      rw [LicenseCall.run, Prog.run_map]
      exact Prog.along_map.mpr keeps_heartbeat
    | deactivate licenseId deviceId machineFingerprint requestingUserId =>
      rw [LicenseCall.run, Prog.run_map]
      exact Prog.along_map.mpr (keeps_deactivate (by simp))

/-! ## Refused activations -/

/-- The result of an activation that found no free slot. -/
def LimitReached {α : Type} (r : Except LicenseOperationError α) : Prop :=
  ∃ existing, r = .error (.deviceLimitReached existing)

def SameDevices (st st' : Store) : Prop := st'.devices = st.devices

theorem SameDevices.refl (st : Store) : SameDevices st st := rfl

theorem not_limitReached_ok {α : Type} (a : α) : ¬ LimitReached (.ok a) := by
  rintro ⟨existing, h⟩
  cases h

theorem not_limitReached_repository {α : Type} (e : RepositoryError) :
    ¬ LimitReached (.error (.repository e) : Except LicenseOperationError α) := by
  rintro ⟨existing, h⟩
  cases h

/-- Once the device is activated no limit is reported any more. -/
theorem quiet_activateLicense :
    Prog.Quiet SameDevices LimitReached
      (activateLicense l deviceId machineFingerprint deviceLabel).run := by
  rw [activateLicense, LicenseM.transaction_bind]
  refine Prog.quiet_atomically_bind fun env s => ?_
  have hresult := activateDevice_result s env.txNow l.id l.maxDevices deviceId
    machineFingerprint deviceLabel
  generalize activateDevice s env.txNow l.id l.maxDevices deviceId machineFingerprint
    deviceLabel = r at hresult ⊢
  have hend : SameDevices s r.2 ∨ r.1 = .ok .activated := by
    cases hresult with
    | failed e => exact Or.inl rfl
    | limitReached existing => exact Or.inl rfl
    | refreshed => exact Or.inr rfl
    | reactivated => exact Or.inr rfl
    | inserted => exact Or.inr rfl
  refine ⟨hend.imp_right fun hok => ?_, ?_⟩
  · rw [hok]
    refine Prog.avoids_query_bind fun env s => ?_
    dsimp only
    cases s.findSubscriptionById l.subscriptionId with
    | none => exact not_limitReached_repository _
    | some subscription => exact not_limitReached_ok _
  · cases r.1 with
    | error e => trivial
    | ok outcome =>
      cases outcome with
      | limitReached existing => trivial
      | activated =>
        refine Prog.quiet_query_bind SameDevices.refl fun env s => ?_
        dsimp only
        cases s.findSubscriptionById l.subscriptionId <;> trivial

theorem quiet_activate :
    Prog.Quiet SameDevices LimitReached
      (activate licenseKey deviceId machineFingerprint deviceLabel).run := by
  refine Prog.quiet_query_bind SameDevices.refl fun env s => ?_
  dsimp only
  cases s.findLicenseByKey licenseKey with
  | none => trivial
  | some l =>
    refine Prog.quiet_query_bind SameDevices.refl fun env s => ?_
    cases effectiveStatus l env.now with
    | revoked => trivial
    | expired => trivial
    | active => exact quiet_activateLicense
    | suspended => exact quiet_activateLicense

/-- The call is answered that no device may be added. -/
def RefusedForLimit (r : CallResult) : Prop :=
  ∃ existing, r = .license (.error (.deviceLimitReached existing))

theorem quiet_prog :
    Prog.Quiet SameDevices RefusedForLimit
      (ServiceCall.license (.activate licenseKey deviceId machineFingerprint deviceLabel)).prog := by
  refine Prog.quiet_map.mpr ?_
  rw [LicenseCall.run, Prog.run_map]
  refine Prog.quiet_map.mpr (Prog.quiet_imp ?_ quiet_activate)
  rintro (e | o) ⟨existing, h⟩
  · cases h
    exact ⟨existing, rfl⟩
  · cases h

end

/-! ## Any number of calls -/

theorem WithinLimits.serve {st : Store} (h : WithinLimits st) (r : ServerRequest) :
    WithinLimits (serve st r) := by
  cases r with
  | payment r =>
    refine h.mapDb (fun n hn => ?_) (step_termsAfter st.toDb r)
    cases hn
    decide
  | license env call =>
    have hkeeps := Prog.along_map.mp (keeps_prog (.license call) st)
    exact hkeeps.eval termsGrow_refl (fun s t hs hst => ⟨hst.terms, hst.limits hs⟩) h env

theorem withinLimits_empty : WithinLimits .empty := by
  intro l hl
  cases hl

/-- **Device limit.** After any requests, let any number of licence calls and webhook events
interleave. No licence exceeds its limit, and no device has two rows on one licence. A device
that is active already takes or frees no slot when it is activated again, and an activation
that is refused for the limit has written no device. -/
theorem device_limit {κ : Type} [DecidableEq κ] (requests : List ServerRequest)
    (calls : κ → ServiceCall) (schedule : List (κ × CallEnv)) :
    let start := startCalls calls (run serve .empty requests)
    let pool := run Pool.step start schedule
    (∀ l ∈ pool.store.licenses.rows, pool.store.countActiveByLicense l.id ≤ l.maxDevices) ∧
      UniqueOn (fun d => some (d.licenseId, d.deviceId)) pool.store.devices.rows ∧
      EveryStep Pool.step (fun pool e =>
        ∀ licenseKey deviceId machineFingerprint deviceLabel,
          calls e.1 = .license (.activate licenseKey deviceId machineFingerprint deviceLabel) →
            ActiveOn pool.store licenseKey deviceId →
              (pool.step e).store.slots = pool.store.slots) start schedule ∧
      ∀ k licenseKey deviceId machineFingerprint deviceLabel,
        calls k = .license (.activate licenseKey deviceId machineFingerprint deviceLabel) →
          (∃ r, pool.calls k = .ret r ∧ RefusedForLimit r) →
            EveryStep Pool.step (fun pool e =>
              e.1 = k → (pool.step e).store.devices = pool.store.devices) start schedule := by
  intro start pool
  have hlimits : WithinLimits start.store :=
    invariant_run (fun st r h => h.serve r) requests withinLimits_empty
  have hguarded : Pool.Guarded TermsGrow WithinLimits (fun k => Guarantee (calls k)) start :=
    ⟨hlimits, fun k => keeps_prog (calls k) start.store⟩
  obtain ⟨⟨hend, -⟩, hsteps⟩ := hguarded.run termsGrow_refl (fun _ _ _ => TermsGrow.trans)
    (fun k s t hs hst => ⟨hst.terms, hst.limits hs⟩) schedule
  refine ⟨fun l hl => (hend l hl).1, pool.store.device_unique, ?_, ?_⟩
  · refine hsteps.imp fun p e hdo licenseKey deviceId fp label hcall hactive => ?_
    rcases hdo with hsame | hdo
    · rw [hsame]
    · exact hdo.repeated licenseKey deviceId fp label hcall hactive
  · rintro k licenseKey deviceId fp label hcall ⟨r, hr, hrefused⟩
    have hquiet : Prog.Quiet SameDevices RefusedForLimit (start.calls k) := by
      rw [show start.calls k = (calls k).prog from rfl, hcall]
      exact quiet_prog
    exact Pool.everyStep_of_quiet SameDevices.refl hquiet hr hrefused

end LicenseServer
