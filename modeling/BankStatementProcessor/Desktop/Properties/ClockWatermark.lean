import BankStatementProcessor.Desktop.License.Session

/-!
# The clock that only moves forward

`clock_watermark_iff` — when the stored clock never falls, and runs in which grace is granted
only at a clock that no earlier call was ahead of.

A run also remembers, for the statements about it only, every clock its calls have read.
-/

namespace Desktop.License

open Infra

inductive ClockEvent
  | check (env : CallEnv) (api : LicenseApiClient)
  | activate (env : CallEnv) (api : LicenseApiClient) (licenseKey : String)
  /-- `clear_local_activation`; `fault` if the statement fails. -/
  | clear (fault : Bool)

/-- No statement of the call fails. -/
def ClockEvent.WritesSucceed : ClockEvent → Prop
  | .check env _ => env.faults = {}
  | .activate env _ _ => env.faults = {}
  | .clear fault => fault = false

structure ClockHistory where
  conn : Conn
  /-- The clock of every call so far. -/
  readings : List DateTime
  deriving DecidableEq, Repr

/-- Before the first call. -/
def ClockHistory.start (conn : Conn) : ClockHistory where
  conn := conn
  readings := []

section

variable (lib : Libraries) (debugAssertions : Bool)

def ClockHistory.step (s : ClockHistory) : ClockEvent → ClockHistory
  | .check env api =>
    { conn := (checkStatus lib s.conn env api).2
      readings := env.now :: s.readings }
  | .activate env api licenseKey =>
    { conn := (activate lib debugAssertions s.conn env api licenseKey).2
      readings := env.now :: s.readings }
  | .clear fault => { s with conn := s.conn.orKeep (clearLocalActivation lib fault s.conn) }

/-! ## What is claimed of a step -/

/-- The stored clock does not fall, and is not lost. -/
def ClockKept (s : ClockHistory) (e : ClockEvent) : Prop :=
  ∀ seen ∈ s.conn.highestSeenClock,
    ∃ seen' ∈ (s.step lib debugAssertions e).conn.highestSeenClock, seen ≤ seen'

/-- Grace is granted only at a clock that is not behind any earlier reading. -/
def GraceInOrder (s : ClockHistory) (e : ClockEvent) : Prop :=
  ∀ env api days, e = .check env api →
    (checkStatus lib s.conn env api).1 = .activeOfflineGrace days → ∀ r ∈ s.readings, r ≤ env.now

/-! ## What decides it -/

/-- The activation stores its terms: the key needs no server or the server grants it, and the
row can be written. -/
def StoresTerms (conn : Conn) (env : CallEnv) (api : LicenseApiClient) (licenseKey : String) :
    Prop :=
  env.faults.save = false ∧ (isDevTestKey debugAssertions licenseKey = true ∨
    (Session.activateAnswer debugAssertions conn env api licenseKey).isSome = true)

/-- An activation overwrites a stored clock that is ahead of it, or a clear drops one. -/
def LowersClock (s : ClockHistory) : ClockEvent → Prop
  | .check _ _ => False
  | .activate env api licenseKey => StoresTerms debugAssertions s.conn env api licenseKey ∧
      ∃ seen ∈ s.conn.highestSeenClock, env.now < seen
  | .clear fault => fault = false ∧ s.conn.highestSeenClock ≠ none

/-- The clock `r` is not ahead of the one that is cached with a licence. -/
def Covered (conn : Conn) (r : DateTime) : Prop :=
  ∀ record, conn.Caches lib record → record.licenseId ≠ none →
    ∃ seen ∈ record.highestSeenClock, r ≤ seen

/-- The call leaves a record of its clock: a check stores it, an activation stores it unless it
is already covered, and one that stores terms is not behind any earlier reading. -/
def Recorded (s : ClockHistory) : ClockEvent → Prop
  | .check env _ => env.faults.advance = false
  | .activate env api licenseKey =>
    (StoresTerms debugAssertions s.conn env api licenseKey → ∀ r ∈ s.readings, r ≤ env.now) ∧
      (¬ StoresTerms debugAssertions s.conn env api licenseKey → Covered lib s.conn env.now)
  | .clear _ => True

end

/-! ## What a call writes -/

section

variable {lib : Libraries} {debugAssertions : Bool} {conn : Conn} {env : CallEnv}
  {api : LicenseApiClient} {record : LocalLicenseRecord} {licenseKey : String}

/-- The clock after a check is the one stored at its start, whatever the server answers. -/
theorem highestSeenClock_checkStatus :
    (checkStatus lib conn env api).2.highestSeenClock =
      (conn.orKeep (advanceClockWatermark lib env.faults.advance conn env.now)).highestSeenClock := by
  have hprepare : (prepareCheck lib conn env).2.highestSeenClock =
      (conn.orKeep (advanceClockWatermark lib env.faults.advance conn env.now)).highestSeenClock := by
    rw [Conn.highestSeenClock, localLicense_prepareCheck, Conn.highestSeenClock]
  cases hanswer : Session.validateAnswer lib conn env api with
  | none => rw [checkStatus_of_no_answer hanswer, hprepare]
  | some status =>
    obtain ⟨record, request, resp, -, hok, hconn⟩ := checkStatus_of_answer hanswer
    rw [hconn]
    cases env.faults.save with
    | true => exact hprepare
    | false =>
      have hcaches := (prepareCheck_eq_ok.mp ⟨request, hok⟩).2.2.2
      rw [hcaches.highestSeenClock]
      rfl

/-- The licence in the row after a check is the one that was in it. -/
theorem exists_caches_of_checkStatus (h : (checkStatus lib conn env api).2.Caches lib record) :
    ∃ before, conn.Caches lib before ∧ before.licenseId = record.licenseId := by
  have hadvanced : ∀ r, (conn.orKeep (advanceClockWatermark lib env.faults.advance conn
      env.now)).Caches lib r → ∃ before, conn.Caches lib before ∧ before.licenseId = r.licenseId := by
    intro r hr
    rcases orKeep_advanceClockWatermark lib env.faults.advance conn env.now with
      hkeep | ⟨before, hbefore, -, hmove⟩
    · rw [hkeep] at hr
      exact ⟨r, hr, rfl⟩
    · rw [hmove] at hr
      obtain rfl := hr.unique caches_withRecord
      exact ⟨before, hbefore, rfl⟩
  cases hanswer : Session.validateAnswer lib conn env api with
  | none =>
    rw [checkStatus_of_no_answer hanswer, caches_congr localLicense_prepareCheck] at h
    exact hadvanced record h
  | some status =>
    obtain ⟨cached, request, resp, -, hok, hconn⟩ := checkStatus_of_answer hanswer
    rw [hconn] at h
    cases hsave : env.faults.save with
    | true =>
      rw [hsave] at h
      exact hadvanced record ((caches_congr localLicense_prepareCheck).mp h)
    | false =>
      rw [hsave] at h
      obtain rfl := h.unique caches_withRecord
      exact hadvanced cached (prepareCheck_eq_ok.mp ⟨request, hok⟩).2.2.2

/-- An activation that stores its terms stores its clock. -/
theorem activate_of_storesTerms (lib : Libraries)
    (h : StoresTerms debugAssertions conn env api licenseKey) :
    ∃ (conn' : Conn) (record : LocalLicenseRecord), record.highestSeenClock = some env.now ∧
      (activate lib debugAssertions conn env api licenseKey).2 = conn'.withRecord lib record := by
  obtain ⟨hsave, hterms⟩ := h
  unfold activate
  by_cases hdev : isDevTestKey debugAssertions licenseKey = true
  · rw [if_pos hdev, hsave]
    exact ⟨conn, devTestRecord env.now, rfl, rfl⟩
  · rw [if_neg hdev]
    have hanswer := hterms.resolve_left hdev
    unfold Session.activateAnswer at hanswer
    rw [if_neg hdev] at hanswer
    rcases getOrCreateDeviceInfo_cases env.faults.device env.generated conn with
      ⟨-, e, he⟩ | ⟨-, device, conn', -, hok⟩
    · rw [he] at hanswer
      cases hanswer
    · rw [hok] at hanswer ⊢
      dsimp only at hanswer ⊢
      cases hresp : api.activateLicense (activateRequest licenseKey device env) with
      | error e =>
        rw [hresp] at hanswer
        cases hanswer
      | ok resp =>
        rw [hsave]
        exact ⟨conn', activated lib licenseKey resp env.now, rfl, rfl⟩

/-- One that does not leaves the row alone. -/
theorem activate_of_not_storesTerms (h : ¬ StoresTerms debugAssertions conn env api licenseKey) :
    (activate lib debugAssertions conn env api licenseKey).2.localLicense = conn.localLicense := by
  unfold activate
  by_cases hdev : isDevTestKey debugAssertions licenseKey = true
  · rw [if_pos hdev]
    cases hsave : env.faults.save with
    | true => rfl
    | false => exact absurd ⟨hsave, Or.inl hdev⟩ h
  · rw [if_neg hdev]
    rcases getOrCreateDeviceInfo_cases env.faults.device env.generated conn with
      ⟨-, e, he⟩ | ⟨-, device, conn', hrow, hok⟩
    · rw [he]
    · rw [hok]
      dsimp only
      cases hresp : api.activateLicense (activateRequest licenseKey device env) with
      | error e => exact hrow
      | ok resp =>
        cases hsave : env.faults.save with
        | true => exact hrow
        | false =>
          refine absurd ⟨hsave, Or.inr ?_⟩ h
          rw [Session.activateAnswer, if_neg hdev, hok]
          simp [hresp, Except.toOption]

/-! ## The stored clock -/

variable {s : ClockHistory} {e : ClockEvent}

/-- **One call keeps the stored clock unless it overwrites it with less.** -/
theorem clockKept_iff : ClockKept lib debugAssertions s e ↔ ¬ LowersClock debugAssertions s e := by
  cases e with
  | check env api =>
    refine iff_of_true ?_ not_false
    intro seen hseen
    show ∃ seen' ∈ (checkStatus lib s.conn env api).2.highestSeenClock, seen ≤ seen'
    rw [highestSeenClock_checkStatus]
    rcases orKeep_advanceClockWatermark lib env.faults.advance s.conn env.now with
      hkeep | ⟨record, hrecord, hbehind, hmove⟩
    · rw [hkeep]
      exact ⟨seen, hseen, le_rfl⟩
    · rw [hmove, caches_withRecord.highestSeenClock]
      rw [hrecord.highestSeenClock] at hseen
      exact ⟨env.now, rfl, (hbehind seen hseen).le⟩
  | activate env api licenseKey =>
    unfold ClockKept LowersClock
    show (∀ seen ∈ s.conn.highestSeenClock, ∃ seen' ∈
      (activate lib debugAssertions s.conn env api licenseKey).2.highestSeenClock,
        seen ≤ seen') ↔ _
    by_cases hstores : StoresTerms debugAssertions s.conn env api licenseKey
    · obtain ⟨conn', record, hclock, hconn⟩ := activate_of_storesTerms lib hstores
      rw [hconn, caches_withRecord.highestSeenClock, hclock]
      simp [hstores]
    · refine iff_of_true ?_ (fun h => hstores h.1)
      intro seen hseen
      rw [Conn.highestSeenClock, activate_of_not_storesTerms hstores]
      exact ⟨seen, hseen, le_rfl⟩
  | clear fault =>
    unfold ClockKept LowersClock
    cases fault with
    | true => exact iff_of_true (fun seen hseen => ⟨seen, hseen, le_rfl⟩) (by simp)
    | false =>
      show (∀ seen ∈ s.conn.highestSeenClock, ∃ seen' ∈
        (s.conn.withRecord lib .notActivated).highestSeenClock, seen ≤ seen') ↔ _
      rw [caches_withRecord.highestSeenClock]
      simp [LocalLicenseRecord.notActivated, Option.eq_none_iff_forall_not_mem]

/-! ## The readings -/

/-- Every reading is covered by the clock in the row. -/
def ReadingsCovered (lib : Libraries) (s : ClockHistory) : Prop :=
  ∀ r ∈ s.readings, Covered lib s.conn r

/-- A check stores its clock, so it covers what was covered and its own reading. -/
theorem covered_checkStatus (hwritten : env.faults.advance = false) {r : DateTime}
    (h : Covered lib conn r ∨ r = env.now) : Covered lib (checkStatus lib conn env api).2 r := by
  intro record hcaches hactivated
  obtain ⟨before, hbefore, hid⟩ := exists_caches_of_checkStatus hcaches
  rw [← hcaches.highestSeenClock, highestSeenClock_checkStatus]
  have hload : loadLocalLicense lib false conn = .ok (some before) := hbefore
  rw [hwritten]
  -- the clock of the row may already be ahead of the one of the check
  by_cases hbehind : before.highestSeenClock.all (· < env.now) = true
  · have hmove : conn.orKeep (advanceClockWatermark lib false conn env.now) =
        conn.withRecord lib { before with highestSeenClock := some env.now } := by
      simp [advanceClockWatermark, hload, hbehind, saveLocalLicense, Conn.orKeep, Except.toOption]
    rw [hmove, caches_withRecord.highestSeenClock]
    refine ⟨env.now, rfl, ?_⟩
    rcases h with hcovered | rfl
    · obtain ⟨seen, hseen, hle⟩ := hcovered before hbefore (by rwa [hid])
      have hlt : seen < env.now := by
        simpa using Option.all_eq_true _ _ |>.mp hbehind seen hseen
      exact hle.trans hlt.le
    · exact le_rfl
  · have hkeep : conn.orKeep (advanceClockWatermark lib false conn env.now) = conn := by
      simp [advanceClockWatermark, hload, hbehind, Conn.orKeep, Except.toOption]
    rw [hkeep, hbefore.highestSeenClock]
    rcases h with hcovered | rfl
    · exact hcovered before hbefore (by rwa [hid])
    · cases hseen : before.highestSeenClock with
      | none => simp [hseen] at hbehind
      | some seen => exact ⟨seen, rfl, by simpa [hseen] using hbehind⟩

/-- One call: the readings stay covered. -/
theorem ReadingsCovered.step (h : ReadingsCovered lib s)
    (hrecorded : Recorded lib debugAssertions s e) :
    ReadingsCovered lib (s.step lib debugAssertions e) := by
  intro r hr
  cases e with
  | check env api =>
    rcases List.mem_cons.mp hr with rfl | hr
    · exact covered_checkStatus hrecorded (Or.inr rfl)
    · exact covered_checkStatus hrecorded (Or.inl (h r hr))
  | activate env api licenseKey =>
    show Covered lib (activate lib debugAssertions s.conn env api licenseKey).2 r
    by_cases hstores : StoresTerms debugAssertions s.conn env api licenseKey
    · obtain ⟨conn', record, hclock, hconn⟩ := activate_of_storesTerms lib hstores
      rw [hconn]
      intro record' hcaches _
      obtain rfl := hcaches.unique caches_withRecord
      refine ⟨env.now, hclock, ?_⟩
      rcases List.mem_cons.mp hr with rfl | hr
      · exact le_rfl
      · exact hrecorded.1 hstores r hr
    · have hcovered : Covered lib s.conn r := by
        rcases List.mem_cons.mp hr with rfl | hr
        · exact hrecorded.2 hstores
        · exact h r hr
      intro record hcaches
      exact hcovered record ((caches_congr (activate_of_not_storesTerms hstores)).mp hcaches)
  | clear fault =>
    cases fault with
    | true => exact h r hr
    | false =>
      intro record hcaches hactivated
      obtain rfl := hcaches.unique caches_withRecord
      exact absurd rfl hactivated

/-- Grace is granted at a clock that the row is not ahead of. -/
theorem ReadingsCovered.graceInOrder (h : ReadingsCovered lib s) : GraceInOrder lib s e := by
  rintro env api days rfl hgrace r hr
  have hreaches : GraceReaches lib s.conn env := by
    refine (isLicensed_checkStatus_of_fails (serverCallFails_of_grace hgrace)).mp ?_
    rw [hgrace]
    rfl
  obtain ⟨record, hcaches, hactivated, hin⟩ := hreaches.cached
  obtain ⟨seen, hseen, hle⟩ := h r hr record hcaches hactivated
  exact hle.trans (hin.within.watermark seen hseen)

end

/--
**The stored clock never falls exactly in the runs where no activation overwrites one that is
ahead of it and no clear drops one.** Grace is granted in order in every run whose calls leave a
record of their clocks.
-/
theorem clock_watermark_iff (lib : Libraries) (debugAssertions : Bool) (conn : Conn)
    (events : List ClockEvent) :
    (EveryStep (ClockHistory.step lib debugAssertions) (ClockKept lib debugAssertions)
        (.start conn) events ↔
      EveryStep (ClockHistory.step lib debugAssertions)
        (fun s e => ¬ LowersClock debugAssertions s e) (.start conn) events) ∧
    (EveryStep (ClockHistory.step lib debugAssertions) (Recorded lib debugAssertions)
        (.start conn) events →
      EveryStep (ClockHistory.step lib debugAssertions) (GraceInOrder lib) (.start conn) events) := by
  refine ⟨EveryStep.congr fun _ _ => clockKept_iff, fun h => ?_⟩
  refine h.of_invariant (I := ReadingsCovered lib) (fun _ _ hI hP => hI.step hP)
    (fun _ _ hI _ => hI.graceInOrder) ?_
  rintro r ⟨⟩

/-- The HMACs of the rows below. -/
def clockLibraries : Libraries :=
  { sampleLibraries with
    hmacSha256 := fun payload =>
      if payload = "lic_1|active|1970-01-02T00:00:00+00:00|7|1970-01-02T00:00:00+00:00" then
        "M1O5oT5Gap4ISw/Sxu/5jY/bO6VV+mXiEXMS7UOhw/M="
      else sampleLibraries.hmacSha256 payload }

/-- The key of the sample activated when the clock shows `now`. -/
def activationAt (now : DateTime) : ClockEvent :=
  match sampleActivation with
  | .activate env api licenseKey => .activate { env with now } api licenseKey
  | .check env api => .check env api

/-- Activated on the second day, then with the clock set back to the first: the offline check
that follows is granted a week. -/
theorem clock_rolled_back : ¬ ∀ (conn : Conn) (events : List ClockEvent),
    (∀ e ∈ events, e.WritesSucceed) →
      EveryStep (ClockHistory.step clockLibraries false)
        (fun s e => ClockKept clockLibraries false s e ∧ GraceInOrder clockLibraries s e)
        (.start conn) events := by
  intro h
  have hrun := h Session.fresh.conn
    [activationAt 86400000000000, activationAt 0, .check (sampleEnv 0) offlineClient]
    (by simp [ClockEvent.WritesSucceed, activationAt, sampleActivation, sampleEnv])
  have hlast := hrun.2.2.1.2 (sampleEnv 0) offlineClient 7 rfl (by decide)
  exact absurd (hlast 86400000000000 (by decide)) (by decide)

end Desktop.License
