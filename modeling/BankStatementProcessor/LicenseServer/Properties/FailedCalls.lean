import BankStatementProcessor.LicenseServer.LicenseCalls

/-!
# Licence calls that fail

`noEffectOnFailure_iff` — a licence call that is rejected leaves the tables as they are,
except for a validation that is rejected for its fingerprint: that one has already been seen.
-/

namespace LicenseServer

open Infra LicenseM LicenseService

/-- The tables that licence calls read. -/
structure SameTables (st st' : Store) : Prop where
  licenses : st'.licenses.rows = st.licenses.rows
  devices : st'.devices.rows = st.devices.rows
  subscriptions : st'.subscriptions.rows = st.subscriptions.rows

/-- A call that ends in an error, other than one of the repository, changes no table. -/
def NoEffectOnFailure {α : Type} (x : LicenseM α) (env : CallEnv) (st : Store) : Prop :=
  ∀ e, (x.eval env st).1 = .error e → (∀ r, e ≠ .repository r) → SameTables st (x.eval env st).2

/-- A validation that finds the device active, last seen at another time, and with another
fingerprint than the one presented. -/
def RejectsAfterTouch (call : LicenseCall) (env : CallEnv) (st : Store) : Prop :=
  ∃ licenseId deviceId machineFingerprint requestingUserId l d,
    call = .validate licenseId deviceId machineFingerprint requestingUserId ∧
      HasLicense st licenseId requestingUserId l ∧ HasDevice st l deviceId d ∧
      d.machineFingerprint ≠ machineFingerprint ∧ d.lastSeenAt ≠ env.txNow

section

variable {st : Store} {env : CallEnv} {d : Device} {α β : Type} {x : LicenseM α}

theorem SameTables.refl (st : Store) : SameTables st st := ⟨rfl, rfl, rfl⟩

/-- A touched device shows, unless it has the same time already. -/
theorem sameTables_touchLastSeen (hd : d ∈ st.devices.rows) {now : Timestamp} :
    SameTables st (st.touchLastSeen now d.id) ↔ d.lastSeenAt = now := by
  have hrows : SameTables st (st.touchLastSeen now d.id) ↔
      (st.touchLastSeen now d.id).devices.rows = st.devices.rows :=
    ⟨fun h => h.devices, fun h => ⟨rfl, h, rfl⟩⟩
  have hmap : (st.devices.modify d.id (Store.touched now) fun _ => rfl).rows.map id =
      st.devices.rows.map id ↔ id (Store.touched now d) = id d := Table.map_modify_eq_iff hd rfl
  rw [List.map_id, List.map_id] at hmap
  rw [hrows]
  refine hmap.trans ?_
  obtain ⟨id, licenseId, deviceId, machineFingerprint, deviceLabel, firstSeenAt, lastSeenAt,
    deactivatedAt⟩ := d
  simp [Store.touched, eq_comm]

theorem noEffectOnFailure_map {f : α → β} :
    NoEffectOnFailure (f <$> x) env st ↔ NoEffectOnFailure x env st := by
  unfold NoEffectOnFailure
  rw [eval_map]
  cases (x.eval env st).1 <;> simp [Except.map]

theorem noEffectOnFailure_of_error {e : LicenseOperationError} (h : x.eval env st = (.error e, st)) :
    NoEffectOnFailure x env st := by
  intro e' _ _
  rw [h]
  exact .refl st

theorem noEffectOnFailure_of_ok {a : α} {st' : Store} (h : x.eval env st = (.ok a, st')) :
    NoEffectOnFailure x env st := by
  intro e he
  rw [h] at he
  cases he

variable {licenseId : ℤ} {deviceId : Uuid} {machineFingerprint : String}
  {requestingUserId : Option ℤ}

theorem noEffectOnFailure_activate {licenseKey deviceLabel : String} :
    NoEffectOnFailure (activate licenseKey deviceId machineFingerprint deviceLabel) env st := by
  rcases eval_activate_cases deviceId env machineFingerprint deviceLabel with ⟨e, h⟩ | ⟨l, o, -, h⟩
  · exact noEffectOnFailure_of_error h
  · exact noEffectOnFailure_of_ok h

/-- A licence and its device are found, or not. -/
theorem found_or_not (st : Store) (licenseId : ℤ) (requestingUserId : Option ℤ) (deviceId : Uuid) :
    (∃ l d, HasLicense st licenseId requestingUserId l ∧ HasDevice st l deviceId d) ∨
      ∀ l, HasLicense st licenseId requestingUserId l → ∀ d, ¬ HasDevice st l deviceId d := by
  by_contra h
  push Not at h
  obtain ⟨hnone, l, hl, d, hd⟩ := h
  exact hnone l d hl hd

theorem noEffectOnFailure_heartbeat :
    NoEffectOnFailure (heartbeat licenseId deviceId requestingUserId) env st := by
  rcases found_or_not st licenseId requestingUserId deviceId with ⟨l, d, hl, hd⟩ | hnone
  · exact noEffectOnFailure_of_ok (eval_heartbeat hl hd)
  · exact noEffectOnFailure_of_error (eval_heartbeat_of_none hnone)

theorem noEffectOnFailure_deactivate :
    NoEffectOnFailure (LicenseService.deactivate licenseId deviceId machineFingerprint
      requestingUserId) env st := by
  by_cases hl : ∃ l, HasLicense st licenseId requestingUserId l
  · obtain ⟨l, hl⟩ := hl
    by_cases hd : ∃ d, HasDevice st l deviceId d
    · obtain ⟨d, hd⟩ := hd
      have h : (LicenseService.deactivate licenseId deviceId machineFingerprint
          requestingUserId).eval env st = _ := eval_deactivate hl hd
      by_cases hfp : d.machineFingerprint ≠ machineFingerprint
      · rw [if_pos hfp] at h
        exact noEffectOnFailure_of_error h
      · rw [if_neg hfp] at h
        exact noEffectOnFailure_of_ok h
    · push Not at hd
      exact noEffectOnFailure_of_error (eval_deactivate_of_not_hasDevice hl hd)
  · push Not at hl
    exact noEffectOnFailure_of_error (eval_deactivate_of_not_hasLicense hl)

theorem noEffectOnFailure_validate_iff :
    NoEffectOnFailure (validate licenseId deviceId machineFingerprint requestingUserId) env st ↔
      ∀ l d, HasLicense st licenseId requestingUserId l → HasDevice st l deviceId d →
        d.machineFingerprint ≠ machineFingerprint → d.lastSeenAt = env.txNow := by
  rcases found_or_not st licenseId requestingUserId deviceId with ⟨l, d, hl, hd⟩ | hnone
  · have honly : (∀ l d, HasLicense st licenseId requestingUserId l → HasDevice st l deviceId d →
        d.machineFingerprint ≠ machineFingerprint → d.lastSeenAt = env.txNow) ↔
        (d.machineFingerprint ≠ machineFingerprint → d.lastSeenAt = env.txNow) := by
      constructor
      · exact fun h => h l d hl hd
      · intro h l' d' hl' hd'
        obtain rfl := hl.unique hl'
        obtain rfl := hd.unique hd'
        exact h
    rw [honly, ← sameTables_touchLastSeen hd.mem]
    unfold NoEffectOnFailure
    rw [eval_validate hl hd]
    by_cases hfp : d.machineFingerprint ≠ machineFingerprint <;> simp [hfp]
  · refine iff_of_true (noEffectOnFailure_of_error (eval_validate_of_none hnone)) ?_
    intro l d hl hd
    exact absurd hd (hnone l hl d)

end

/--
**A rejected call has no effect, unless it is a validation that touches the device first.**
-/
theorem noEffectOnFailure_iff (call : LicenseCall) (env : CallEnv) (st : Store) :
    NoEffectOnFailure call.run env st ↔ ¬ RejectsAfterTouch call env st := by
  cases call with
  | activate licenseKey deviceId machineFingerprint deviceLabel =>
    rw [LicenseCall.run, noEffectOnFailure_map]
    refine iff_of_true noEffectOnFailure_activate ?_
    rintro ⟨_, _, _, _, _, _, hcall, -⟩
    cases hcall
  | heartbeat licenseId deviceId requestingUserId =>
    rw [LicenseCall.run, noEffectOnFailure_map]
    refine iff_of_true noEffectOnFailure_heartbeat ?_
    rintro ⟨_, _, _, _, _, _, hcall, -⟩
    cases hcall
  | deactivate licenseId deviceId machineFingerprint requestingUserId =>
    rw [LicenseCall.run, noEffectOnFailure_map]
    refine iff_of_true noEffectOnFailure_deactivate ?_
    rintro ⟨_, _, _, _, _, _, hcall, -⟩
    cases hcall
  | validate licenseId deviceId machineFingerprint requestingUserId =>
    rw [LicenseCall.run, noEffectOnFailure_map, noEffectOnFailure_validate_iff]
    constructor
    · rintro h ⟨_, _, _, _, l, d, hcall, hl, hd, hfp, hseen⟩
      cases hcall
      exact hseen (h l d hl hd hfp)
    · intro h l d hl hd hfp
      by_contra hseen
      exact h ⟨_, _, _, _, l, d, rfl, hl, hd, hfp, hseen⟩

/-- The rejected validation of another machine moves the time the device was last seen. -/
theorem rejected_validation_touches :
    ¬ ∀ (call : LicenseCall) (env : CallEnv) (st : Store), NoEffectOnFailure call.run env st := by
  intro h
  have hseen := (h (.validate 1 7 "another" none) (sampleEnv 3) (run serve .empty sampleActivation)
    .deviceMismatch (by decide) (by simp)).devices
  revert hseen
  decide

end LicenseServer
