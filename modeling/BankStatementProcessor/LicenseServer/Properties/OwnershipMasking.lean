import BankStatementProcessor.LicenseServer.LicenseCalls

/-!
# Licences of other users

`foreign_license_masked` — a session learns nothing about a licence that is not its own, not
even whether it exists: the calls answer alike in any two stores that agree on the rows of
that user, and change neither.
-/

namespace LicenseServer

open Infra LicenseM LicenseService

/-- The stores have the same rows of what user `u` owns: subscriptions, their licences, and the
devices of these. -/
structure AgreeFor (u : ℤ) (st st' : Store) : Prop where
  subscriptions : ∀ s : Subscription, (s.userId : ℤ) = u →
    (s ∈ st.subscriptions.rows ↔ s ∈ st'.subscriptions.rows)
  licenses : ∀ l : License, st.OwnedBy l.subscriptionId (some u) →
    (l ∈ st.licenses.rows ↔ l ∈ st'.licenses.rows)
  devices : ∀ d : Device,
    (∃ l ∈ st.licenses.rows, l.id = d.licenseId ∧ st.OwnedBy l.subscriptionId (some u)) →
      (d ∈ st.devices.rows ↔ d ∈ st'.devices.rows)

/-- The calls about a licence that come with a session of user `u`. -/
inductive SessionCall (u licenseId : ℤ) : LicenseCall → Prop
  | validate (deviceId : Uuid) (machineFingerprint : String) :
      SessionCall u licenseId (.validate licenseId deviceId machineFingerprint (some u))
  | heartbeat (deviceId : Uuid) :
      SessionCall u licenseId (.heartbeat licenseId deviceId (some u))
  | deactivate (deviceId : Uuid) (machineFingerprint : String) :
      SessionCall u licenseId (.deactivate licenseId deviceId machineFingerprint (some u))

/-- The answer to such a call about a licence that the user does not own. -/
def LicenseCall.maskedError : LicenseCall → LicenseOperationError
  | .deactivate _ _ _ _ => .licenseNotFound
  | _ => .deviceNotActivated

section

variable {u licenseId : ℤ} {st st' : Store}

theorem AgreeFor.ownedBy_iff (h : AgreeFor u st st') {subscriptionId : ℕ} :
    st.OwnedBy subscriptionId (some u) ↔ st'.OwnedBy subscriptionId (some u) := by
  simp only [Store.OwnedBy, Option.mem_some_iff, forall_eq']
  constructor
  · rintro ⟨s, hs, hid, huser⟩
    exact ⟨s, (h.subscriptions s huser).mp hs, hid, huser⟩
  · rintro ⟨s, hs, hid, huser⟩
    exact ⟨s, (h.subscriptions s huser).mpr hs, hid, huser⟩

/-- What the user owns in one store is owned in the other. -/
theorem AgreeFor.hasLicense_iff (h : AgreeFor u st st') {l : License} :
    HasLicense st licenseId (some u) l ↔ HasLicense st' licenseId (some u) l := by
  constructor
  · rintro ⟨hmem, hid, howned⟩
    exact ⟨(h.licenses l howned).mp hmem, hid, h.ownedBy_iff.mp howned⟩
  · rintro ⟨hmem, hid, howned⟩
    have howned' := h.ownedBy_iff.mpr howned
    exact ⟨(h.licenses l howned').mpr hmem, hid, howned'⟩

theorem SessionCall.eval_of_foreign {call : LicenseCall} (hcall : SessionCall u licenseId call)
    (hforeign : ∀ l, ¬ HasLicense st licenseId (some u) l) (env : CallEnv) :
    call.run.eval env st = (.error call.maskedError, st) := by
  have hnone : ∀ l, HasLicense st licenseId (some u) l → ∀ deviceId d,
      ¬ HasDevice st l deviceId d := fun l hl => absurd hl (hforeign l)
  cases hcall with
  | validate deviceId machineFingerprint =>
    rw [LicenseCall.run, eval_map, eval_validate_of_none fun l hl => hnone l hl deviceId]
    rfl
  | heartbeat deviceId =>
    rw [LicenseCall.run, eval_map, eval_heartbeat_of_none fun l hl => hnone l hl deviceId]
    rfl
  | deactivate deviceId machineFingerprint =>
    rw [LicenseCall.run, eval_map, eval_deactivate_of_not_hasLicense hforeign]
    rfl

end

/--
**The calls of a session about a licence that is not its own** answer the same in all stores
that agree on what the user owns, and leave the store, every device row of it, as it is.
-/
theorem foreign_license_masked (u licenseId : ℤ) (st st' : Store) (hagree : AgreeFor u st st')
    (hforeign : ∀ l, ¬ HasLicense st licenseId (some u) l) (call : LicenseCall)
    (hcall : SessionCall u licenseId call) (env env' : CallEnv) :
    (call.run.eval env st).1 = (call.run.eval env' st').1 ∧
      (call.run.eval env st).2 = st ∧ (call.run.eval env' st').2 = st' := by
  have hforeign' : ∀ l, ¬ HasLicense st' licenseId (some u) l :=
    fun l hl => hforeign l (hagree.hasLicense_iff.mpr hl)
  rw [hcall.eval_of_foreign hforeign env, hcall.eval_of_foreign hforeign' env']
  exact ⟨rfl, rfl, rfl⟩

/-- User 2 cannot tell the licence of user 1 from none. -/
theorem foreign_license_masked_sample :
    ((LicenseCall.validate 1 7 "fingerprint" (some 2)).run.eval (sampleEnv 3)
        (run serve .empty sampleActivation)).1 =
      ((LicenseCall.validate 1 7 "fingerprint" (some 2)).run.eval (sampleEnv 3) .empty).1 := by
  have huser : ∀ s ∈ (run serve .empty sampleActivation).subscriptions.rows, s.userId = 1 := by
    decide
  have hnone : ∀ subscriptionId,
      ¬ (run serve .empty sampleActivation).OwnedBy subscriptionId (some 2) := by
    intro subscriptionId h
    obtain ⟨s, hs, -, hs2⟩ := h 2 rfl
    rw [huser s hs] at hs2
    cases hs2
  have hagree : AgreeFor 2 (run serve .empty sampleActivation) .empty := by
    refine ⟨fun s hs2 => ?_, fun l hl => absurd hl (hnone _), ?_⟩
    · refine iff_of_false (fun hs => ?_) List.not_mem_nil
      rw [huser s hs] at hs2
      cases hs2
    · rintro d ⟨l, -, -, hl⟩
      exact absurd hl (hnone _)
  exact (foreign_license_masked 2 1 _ _ hagree (fun l hl => hnone _ hl.owned) _
    (.validate 7 "fingerprint") (sampleEnv 3) (sampleEnv 3)).1

end LicenseServer
