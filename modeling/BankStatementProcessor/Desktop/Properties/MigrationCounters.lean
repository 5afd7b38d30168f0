import BankStatementProcessor.Desktop.Properties.LegacyHistory

/-!
# The counters of a migration

The report of an import is exact when no new hash and no transaction id of an import is repeated.
A repeated one is reported each time and stored once, and a report of more rows than there are takes
the whole migration back.
-/

namespace Desktop

open Infra ImportState

/-! ## The records of the export by name -/

/-- The hashes of the export with the names of their clients. -/
def LegacyExport.namedHashes (e : LegacyExport) : List (String × String) :=
  (wellShaped e.dedupe).filterMap fun x => (e.clientName x.clientId).map fun name => (name, x.hash)

attribute [local instance] lawfulBEq_hashItem

/-- A hash is stored for the client with a name. -/
def FullDb.hasHash (d : FullDb) (x : String × String) : Bool :=
  (d.clientNamed x.1).any fun c => (c, x.2) ∈ d.dedupeHashes

section

variable {e : LegacyExport} {d : FullDb} {p : ImportState}

/-- The id of the client with a name that is there. -/
def FullDb.idNamed (d : FullDb) (name : String) : ℕ := (d.clientNamed name).getD 0

theorem Prepared.resolved_hashItems (h : Prepared e d p) :
    resolved p.idMap e.hashItems =
      e.namedHashes.map fun x => (p.target.idNamed x.1, x.2) := by
  rw [resolved, LegacyExport.hashItems, LegacyExport.namedHashes, List.filterMap_map,
    List.map_filterMap]
  refine List.filterMap_congr fun x _ => ?_
  show (p.idMap.resolveClient x.clientId).map _ = ((e.clientName x.clientId).map _).map _
  cases hname : e.clientName x.clientId with
  | none =>
    rw [h.resolve_eq_none hname]
    rfl
  | some name =>
    obtain ⟨c, hc, hres⟩ := h.named hname
    rw [hres, Option.map_some, Option.map_some, Option.map_some, FullDb.idNamed, hc]
    rfl

/-- A hash is new for the client's id when it is new for the name. -/
theorem Prepared.newHashItems_nodup (h : Prepared e d p) :
    (e.newHashItems p.idMap d).Nodup ↔ (e.namedHashes.filter fun x => !d.hasHash x).Nodup := by
  have hthere : ∀ x ∈ e.namedHashes, ∃ c, p.target.clientNamed x.1 = some c := by
    intro x hx
    obtain ⟨y, -, hy⟩ := List.mem_filterMap.mp hx
    obtain ⟨name, hname, rfl⟩ := Option.map_eq_some_iff.mp hy
    obtain ⟨c, hc, -⟩ := h.named hname
    exact ⟨c, hc⟩
  have hknown : ∀ x ∈ e.namedHashes,
      (p.target.idNamed x.1, x.2) ∈ d.dedupeHashes ↔ d.hasHash x = true := by
    intro x hx
    obtain ⟨c, hc⟩ := hthere x hx
    rw [FullDb.idNamed, hc, Option.getD_some, FullDb.hasHash, Option.any_eq_true]
    constructor
    · intro hmem
      obtain ⟨row, hrow, hid⟩ := d.dedupe_client _ hmem
      have hnamed : d.clientNamed row.name = some c :=
        FullDb.clientNamed_eq_some.mpr ⟨row, hrow, rfl, hid⟩
      rw [FullDb.clientNamed_inj hc (h.keeps _ _ hnamed)]
      exact ⟨c, hnamed, decide_eq_true hmem⟩
    · rintro ⟨c', hc', hmem⟩
      have hsame := h.keeps _ _ hc'
      rw [hc, Option.some.injEq] at hsame
      rw [hsame]
      exact of_decide_eq_true hmem
  rw [LegacyExport.newHashItems, h.resolved_hashItems, List.filter_map]
  have hfilter : e.namedHashes.filter ((fun x => decide (x ∉ d.dedupeHashes)) ∘
      fun x => (p.target.idNamed x.1, x.2)) = e.namedHashes.filter fun x => !d.hasHash x := by
    refine List.filter_congr fun x hx => ?_
    rw [Function.comp_apply, Bool.eq_iff_iff, decide_eq_true_iff, Bool.not_eq_true',
      ← Bool.not_eq_true]
    exact not_congr (hknown x hx)
  rw [hfilter]
  refine ⟨List.Nodup.of_map _, fun hnd => hnd.map_on ?_⟩
  rintro x hx y hy heq
  obtain ⟨c, hc⟩ := hthere x (List.mem_of_mem_filter hx)
  obtain ⟨c', hc'⟩ := hthere y (List.mem_of_mem_filter hy)
  obtain ⟨hid, hhash⟩ := Prod.mk.inj heq
  rw [FullDb.idNamed, FullDb.idNamed, hc, hc', Option.getD_some, Option.getD_some] at hid
  exact Prod.ext (FullDb.clientNamed_inj hc (hid ▸ hc')) hhash

end

/-! ## The report of a migration -/

/-- The report counts the rows that were added. -/
def ExactReport (d : FullDb) (s : ImportState) : Prop :=
  ∀ k, k ≠ .settings → s.target.rowCount k = d.rowCount k + (s.report.entity k).imported

/-- The import completes with a report that counts the rows added, the rows are found again, and
the migration is not taken back. -/
def CountersExact (env : ImportEnv) (r : ImportRun) (e : LegacyExport) (d : FullDb) : Prop :=
  ∃ s entries, importAll env r e d = some (s, entries) ∧ ExactReport d s ∧
    (∀ issue ∈ validateMigrated s.target s.report, issue.severity ≠ .fatal) ∧
    migrate env r .none (some e) d = ⟨true, false, some s.target⟩

section

variable {env : ImportEnv} {r : ImportRun} {e : LegacyExport} {d : FullDb} {s : ImportState}

/-- A report that starts empty is exact when the run has not gained on the rows. -/
theorem exactReport_iff : ExactReport d s ↔ (ImportState.start d).lead = s.lead := by
  have hstart : ∀ k, (ImportState.start d).lead k =
      if k = .settings then 0 else -(d.rowCount k : ℤ) := by
    intro k
    show (if k = .settings then (0 : ℤ) else ((0 : ℕ) : ℤ) - d.rowCount k) = _
    simp
  constructor
  · intro h
    funext k
    rw [hstart, lead]
    split
    · rfl
    · next hk =>
      have := h k hk
      rw [imported]
      omega
  · intro h k hk
    have hlead := congrFun h k
    rw [hstart, lead, if_neg hk, if_neg hk, imported] at hlead
    omega

/-- The report has the entries that it was asked for. -/
theorem entity_eq_of_mem {report : MigrationReport} {entry : Entity × EntityReport}
    (h : entry ∈ report.entities) : report.entity entry.1 = entry.2 := by
  rw [MigrationReport.entity]
  have hnodup := report.nodup
  generalize report.entities = entities at h hnodup
  induction entities with
  | nil => cases h
  | cons first entities ih =>
    rw [List.map_cons, List.nodup_cons] at hnodup
    obtain ⟨k, c⟩ := first
    rcases List.mem_cons.mp h with rfl | hrest
    · rw [List.lookup_cons, beq_self_eq_true]
      rfl
    · have hne : entry.1 ≠ k := by
        rintro rfl
        exact hnodup.1 (List.mem_map.mpr ⟨entry, hrest, rfl⟩)
      rw [List.lookup_cons, beq_false_of_ne hne]
      exact ih hrest hnodup.2

/-- No table has fewer rows than were added to it. -/
theorem validateMigrated_of_exact (h : ExactReport d s) :
    validateMigrated s.target s.report = [] := by
  rw [validateMigrated, List.filterMap_eq_nil_iff]
  rintro ⟨k, c⟩ hmem
  have hentity : s.report.entity k = c := entity_eq_of_mem hmem
  rw [checkEntity]
  cases hcount : s.target.tableCount k with
  | none => rfl
  | some count =>
    have hk : k ≠ .settings := by
      rintro rfl
      cases hcount
    have hrows := h k hk
    rw [hentity, FullDb.rowCount, hcount, Option.getD_some] at hrows
    by_cases hzero : c.imported = 0
    · simp [hzero]
    · have hle : ¬count < c.imported := by omega
      simp [hzero, hle]

theorem migrate_of_exact {entries : List (LegacyImportMeta × ℕ)}
    (heq : importAll env r e d = some (s, entries)) (h : ExactReport d s) :
    migrate env r .none (some e) d = ⟨true, false, some s.target⟩ := by
  simp only [migrate, heq]
  simp [MigrationFaults.none, validateMigrated_of_exact h]

/-- The counters of an import are exact, and the migration stays, exactly when the new hashes of the
export are different and so are the transaction ids within each of its imports, and the ids of each
of them fit into one query. -/
theorem counters_exact_iff (env : ImportEnv) (r : ImportRun) (e : LegacyExport) (d : FullDb) :
    CountersExact env r e d ↔
      (e.namedHashes.filter fun x => !d.hasHash x).Nodup ∧
        ∀ h ∈ e.ownedHistory, ((e.transactions env h.id).map Transaction.id).Nodup ∧
          Fits env (e.transactions env h.id) := by
  obtain ⟨p, hprep, hcase⟩ := importAll_spec env r e d
  have hrecords : ∀ P : LegacyImportMeta → Prop,
      (∀ q ∈ e.records p.idMap, P q.2) ↔ ∀ h ∈ e.ownedHistory, P h := by
    intro P
    rw [hprep.records_eq, List.forall_mem_map]
  rw [hrecords fun h => Fits env (e.transactions env h.id)] at hcase
  rcases hcase with ⟨hfits, ⟨s, entries⟩, heq, hrec⟩ | ⟨hfits, hnone⟩
  · have hcounted := (hprep.counted.trans hrec.counted).eq_iff
    rw [← exactReport_iff, hprep.newHashItems_nodup,
      hrecords fun h => ((e.transactions env h.id).map Transaction.id).Nodup] at hcounted
    constructor
    · rintro ⟨s', entries', heq', hexact, -⟩
      rw [heq, Option.some.injEq, Prod.mk.injEq] at heq'
      obtain ⟨rfl, rfl⟩ := heq'
      obtain ⟨hhashes, hids⟩ := hcounted.mp hexact
      exact ⟨hhashes, fun h hh => ⟨hids h hh, hfits h hh⟩⟩
    · rintro ⟨hhashes, hall⟩
      have hexact := hcounted.mpr ⟨hhashes, fun h hh => (hall h hh).1⟩
      refine ⟨s, entries, heq, hexact, ?_, migrate_of_exact heq hexact⟩
      rw [validateMigrated_of_exact hexact]
      exact fun issue hissue => absurd hissue List.not_mem_nil
  · refine iff_of_false ?_ fun h => hfits fun m hm => (h.2 m hm).2
    rintro ⟨s, entries, heq, -⟩
    rw [hnone] at heq
    cases heq

end

/-! ## A hash that is exported twice -/

/-- One client, and one hash twice. -/
def repeatedHash : LegacyExport where
  clients := [some ⟨"c_1", "Acme Co", ""⟩]
  rules := []
  ledgers := []
  dedupe := [some ⟨"c_1", "abc123"⟩, some ⟨"c_1", "abc123"⟩]
  history := []
  importTransactions _ := []
  config := .absent

/-- Two hashes are reported and one is stored, so the whole import is taken back. -/
theorem repeated_hash_rolls_back :
    (importAll plainEnv plainRun repeatedHash blankFullDb).map (fun out =>
        ((out.1.report.entity .dedupeHashes).imported, out.1.target.dedupeHashes)) =
      some (2, [(1, "abc123")]) ∧
    (migrate plainEnv plainRun .none (some repeatedHash) blankFullDb).rolledBack = true ∧
    ¬CountersExact plainEnv plainRun repeatedHash blankFullDb := by
  have hrolled :
      (migrate plainEnv plainRun .none (some repeatedHash) blankFullDb).rolledBack = true := by
    decide +kernel
  refine ⟨by decide +kernel, hrolled, ?_⟩
  rintro ⟨s, entries, -, -, -, hmigrate⟩
  rw [hmigrate] at hrolled
  cases hrolled

end Desktop
