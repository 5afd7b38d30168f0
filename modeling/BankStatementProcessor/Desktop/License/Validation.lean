import Mathlib.Order.Basic
import Mathlib.Data.Int.Order.Basic

/-!
# Licence status of an installation

What the application may do, derived from the answer of the server or, without one, from what
was cached of the last answer.
-/

namespace Desktop.License

/-- `DateTime<Utc>`, in nanoseconds since the epoch. -/
abbrev DateTime := ℤ

inductive LicenseStatus
  | notActivated
  | active
  | activeOfflineGrace (daysRemaining : ℤ)
  | gracePeriodExpired
  | suspended
  | expired
  deriving DecidableEq, Repr

def LicenseStatus.isLicensed : LicenseStatus → Bool
  | .active => true
  | .activeOfflineGrace _ => true
  | _ => false

/-- `TimeDelta::num_days`, which drops the fraction of a day. -/
def numDays (d : ℤ) : ℤ := d.tdiv 86400000000000

/-- The whole days since the last validation; a clock that went back counts as none. -/
def elapsedDays (lastValidatedAt now : DateTime) : ℤ := max (numDays (now - lastValidatedAt)) 0

def deriveOfflineStatus (gracePeriodDays : ℤ) (lastValidatedAt highestSeenClock : Option DateTime)
    (now : DateTime) : LicenseStatus :=
  match lastValidatedAt with
  | none => .notActivated
  | some lastValidatedAt =>
    -- the clock was set back
    if highestSeenClock.any (now < ·) then .gracePeriodExpired
    else if elapsedDays lastValidatedAt now ≤ gracePeriodDays then
      .activeOfflineGrace (max (gracePeriodDays - elapsedDays lastValidatedAt now) 0)
    else .gracePeriodExpired

/-- A status this version does not know is none that licenses. -/
def statusFromServerResponse (status : String) : LicenseStatus :=
  if status = "active" then .active
  else if status = "suspended" then .suspended
  else if status = "expired" ∨ status = "revoked" ∨ status = "device_mismatch" then .expired
  else .expired

/-- The last validation is recent enough, and the clock has not gone back. -/
structure WithinGrace (gracePeriodDays : ℤ) (lastValidatedAt highestSeenClock : Option DateTime)
    (now : DateTime) : Prop where
  recent : ∃ validated ∈ lastValidatedAt, elapsedDays validated now ≤ gracePeriodDays
  watermark : ∀ seen ∈ highestSeenClock, seen ≤ now

section

variable {gracePeriodDays : ℤ} {lastValidatedAt highestSeenClock : Option DateTime}
  {now : DateTime} {status : String}

theorem isLicensed_iff {s : LicenseStatus} :
    s.isLicensed ↔ s = .active ∨ ∃ days, s = .activeOfflineGrace days := by
  cases s <;> simp [LicenseStatus.isLicensed]

theorem deriveOfflineStatus_of_withinGrace
    (h : WithinGrace gracePeriodDays lastValidatedAt highestSeenClock now) :
    ∃ days, deriveOfflineStatus gracePeriodDays lastValidatedAt highestSeenClock now =
      .activeOfflineGrace days := by
  obtain ⟨⟨validated, rfl, hrecent⟩, hseen⟩ := h
  refine ⟨max (gracePeriodDays - elapsedDays validated now) 0, ?_⟩
  have hclock : ¬ highestSeenClock.any (now < ·) = true := by
    simpa [Option.any_eq_true] using hseen
  simp only [deriveOfflineStatus]
  rw [if_neg hclock, if_pos hrecent]

theorem isLicensed_deriveOfflineStatus :
    (deriveOfflineStatus gracePeriodDays lastValidatedAt highestSeenClock now).isLicensed ↔
      WithinGrace gracePeriodDays lastValidatedAt highestSeenClock now := by
  constructor
  · intro h
    cases lastValidatedAt with
    | none => cases h
    | some validated =>
      simp only [deriveOfflineStatus] at h
      split at h
      · cases h
      · next hclock =>
        split at h
        · next hrecent =>
          exact ⟨⟨validated, rfl, hrecent⟩, by simpa [Option.any_eq_true] using hclock⟩
        · cases h
  · intro h
    obtain ⟨days, hdays⟩ := deriveOfflineStatus_of_withinGrace h
    rw [hdays]
    rfl

theorem statusFromServerResponse_ne_grace (days : ℤ) :
    statusFromServerResponse status ≠ .activeOfflineGrace days := by
  unfold statusFromServerResponse
  split_ifs <;> simp

end

end Desktop.License
