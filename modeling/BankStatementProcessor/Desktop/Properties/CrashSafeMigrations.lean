import BankStatementProcessor.Desktop.Migrations
import BankStatementProcessor.Infra.StateMachine
import Mathlib.Data.List.Nodup
import Mathlib.Tactic.IntervalCases

/-!
# Migrations and crashes

A crash right after an `ADD COLUMN` leaves a column whose version is not recorded yet. The
column `dup_flag` makes the next open believe in a legacy database, which skips migration 2; the
others make every later open fail, as the column is added again.

After a crash at any other point the next open takes up the work where it was left, however
often that happens.
-/

namespace Desktop

open Infra Sql

/-! ## A database of version `k` -/

/-- The tables made by the base schema and the first `k` migrations. -/
def tablesAt (k : ℕ) : List String :=
  baseTables.map Prod.fst ++ (if 2 ≤ k then ["audit_log"] else []) ++
    if 6 ≤ k then ["local_license", "device_info", "license_validation_log"] else []

def indexesAt (k : ℕ) : List String :=
  baseIndexes ++ (if 2 ≤ k then ["idx_audit_client"] else []) ++
    (if 4 ≤ k then ["idx_classification_rules_unique"] else []) ++
    (if 5 ≤ k then ["idx_txn_import"] else []) ++
    if 6 ≤ k then ["idx_license_validation_log_time"] else []

/-- The indexes on `transactions`. -/
def txnIndexes : List String := baseIndexes ++ ["idx_txn_import"]

structure TransactionsAt (k : ℕ) (t : TableDef) : Prop where
  base : ∀ c ∈ baseColumns ++ ["created_at"], c ∈ t.columns
  dup_flag : "dup_flag" ∈ t.columns ↔ 1 ≤ k
  gst : ∀ c ∈ gstColumns, c ∈ t.columns ↔ 3 ≤ k
  primaryKey : 5 ≤ k → t.primaryKey = rebuiltTable.primaryKey

/-- The schema after the base schema and the first `k` migrations, and the ids of the rows. -/
structure SchemaAt (k : ℕ) (db : Database) : Prop where
  tables : ∀ name ∈ tablesAt k, (db.tables name).isSome
  indexes : ∀ name ∈ indexesAt k, (db.indexes name).isSome
  indexed : ∀ i name, db.indexes i = some name → (db.tables name).isSome
  txnIndexed : ∀ i, db.indexes i = some "transactions" → i ∈ txnIndexes
  transactions : ∀ t ∈ db.tables "transactions", TransactionsAt k t
  local_license : ∀ t ∈ db.tables "local_license", "integrity_hmac" ∈ t.columns ↔ 7 ≤ k
  rebuilding : db.tables "transactions_new" = none
  ruleIds : ∃ ids : List ℤ, (db.rows "classification_rules").map (fun r => r "id") = ids.map .int ∧
    ids.Nodup
  transactionIds : ((db.rows "transactions").map (keyOf rebuiltTable.primaryKey)).Nodup

/-- A database of version `k`. One of a build that kept no version has version 2. -/
structure VersionAt (k : ℕ) (db : Database) : Prop extends SchemaAt k db where
  le_latest : k ≤ 7
  version : db.userVersion = k ∨ k = legacyBaselineVersion ∧ db.userVersion = 0

/-- The databases an open may find: a new one, or one of version `k`. -/
def Found (k : ℕ) (db : Database) : Prop := k = 0 ∧ db = Database.blank ∨ VersionAt k db

/-- The base schema and each migration above version `k`, once. -/
def appliedOnce (k : ℕ) (db : Database) : Option Database :=
  execAll execStep (schemaSql ++ ((migrations.drop k).map Migration.recorded).flatten) db

/-- A step that adds a column. -/
def addsColumn : List Stmt → Bool
  | [.addColumn ..] => true
  | _ => false

/-! ## Where an open goes on -/

section

variable {k : ℕ} {db : Database}

theorem VersionAt.exists_transactions (h : VersionAt k db) :
    ∃ t, db.tables "transactions" = some t ∧ TransactionsAt k t := by
  have hsome : (db.tables "transactions").isSome :=
    h.tables _ (by simp [tablesAt, baseTables])
  obtain ⟨t, ht⟩ := Option.isSome_iff_exists.mp hsome
  exact ⟨t, ht, h.transactions t ht⟩

/-- `dup_flag` tells a legacy database from a new one. -/
theorem VersionAt.baseline_eq (h : VersionAt k db) : baseline db = k := by
  obtain ⟨t, ht, hcols⟩ := h.exists_transactions
  have hdup : columnExists db "transactions" "dup_flag" = decide (1 ≤ k) := by
    rw [columnExists, ht, Option.any_some, Bool.eq_iff_iff, List.contains_iff_mem, hcols.dup_flag,
      decide_eq_true_iff]
  rw [baseline, hdup]
  rcases h.version with hversion | ⟨rfl, hversion⟩
  · rw [hversion]
    by_cases hk : k = 0
    · simp [hk]
    · rw [if_pos hk]
  · rw [hversion]
    rfl

theorem VersionAt.applyMigrations_eq (h : VersionAt k db) :
    applyMigrations db = ((migrations.map Migration.recorded).drop k).flatten := by
  have hle := h.le_latest
  have hversion := h.version
  rw [applyMigrations, h.baseline_eq]
  interval_cases k <;> simp_all [migrations, legacyBaselineVersion]

/-! ## Making tables and indexes -/

theorem TransactionsAt.congr {k' : ℕ} {t : TableDef} (h : TransactionsAt k t)
    (h1 : 1 ≤ k ↔ 1 ≤ k') (h3 : 3 ≤ k ↔ 3 ≤ k') (h5 : 5 ≤ k' → 5 ≤ k) : TransactionsAt k' t where
  base := h.base
  dup_flag := h.dup_flag.trans h1
  gst := fun c hc => (h.gst c hc).trans h3
  primaryKey := fun hk => h.primaryKey (h5 hk)

/-- The tables and indexes are all a migration adds if it changes no columns. -/
theorem SchemaAt.congr {k' : ℕ} (h : SchemaAt k db)
    (htables : ∀ name ∈ tablesAt k', (db.tables name).isSome)
    (hindexes : ∀ name ∈ indexesAt k', (db.indexes name).isSome)
    (h1 : 1 ≤ k ↔ 1 ≤ k') (h3 : 3 ≤ k ↔ 3 ≤ k') (h5 : 5 ≤ k' → 5 ≤ k) (h7 : 7 ≤ k ↔ 7 ≤ k') :
    SchemaAt k' db where
  tables := htables
  indexes := hindexes
  indexed := h.indexed
  txnIndexed := h.txnIndexed
  transactions := fun t ht => (h.transactions t ht).congr h1 h3 h5
  local_license := fun t ht => (h.local_license t ht).trans h7
  rebuilding := h.rebuilding
  ruleIds := h.ruleIds
  transactionIds := h.transactionIds

/-- A step that makes a table or an index in no migration's way. -/
def CreatesFreely (step : List Stmt) : Prop :=
  creates step ∧
    (∀ name t, step = [.createTable true name t] →
      name ≠ "transactions_new" ∧ "integrity_hmac" ∉ t.columns) ∧
    ∀ name unique, step ≠ [.createIndex name "transactions" unique]

theorem SchemaAt.creates {db' : Database} {step : List Stmt} (h : SchemaAt k db) (hk : k < 7)
    (hstep : CreatesFreely step) (hexec : execStep step db = some db') : SchemaAt k db' := by
  obtain ⟨hc, hfree, hnotxn⟩ := hstep
  have hrules : (db.tables "classification_rules").isSome :=
    h.tables _ (by simp [tablesAt, baseTables])
  have htxns : (db.tables "transactions").isSome := h.tables _ (by simp [tablesAt, baseTables])
  refine ⟨?_, ?_, ?_, ?_, ?_, ?_, ?_, ?_, ?_⟩
  · intro name hname
    rw [tables_of_creates hc hexec (h.tables name hname)]
    exact h.tables name hname
  · intro name hname
    rw [indexes_of_creates hc hexec (h.indexes name hname)]
    exact h.indexes name hname
  · intro i name hi
    rcases execStep_creates hc hexec with ⟨-, rfl⟩ | ⟨n, t, -, -, rfl⟩ | ⟨n, table, u, -, -, ht, rfl⟩
    · exact h.indexed i name hi
    · have hsome := h.indexed i name hi
      by_cases hn : name = n
      · subst hn; simp
      · simpa [Function.update_of_ne hn] using hsome
    · change Function.update db.indexes n (some table) i = some name at hi
      by_cases hn : i = n
      · subst hn
        rw [Function.update_self, Option.some.injEq] at hi
        rw [← hi]
        exact ht
      · rw [Function.update_of_ne hn] at hi
        exact h.indexed i name hi
  · intro i hi
    rcases execStep_creates hc hexec with ⟨-, rfl⟩ | ⟨n, t, -, -, rfl⟩ | ⟨n, table, u, hs, -, -, rfl⟩
    · exact h.txnIndexed i hi
    · exact h.txnIndexed i hi
    · change Function.update db.indexes n (some table) i = some "transactions" at hi
      by_cases hn : i = n
      · subst hn
        rw [Function.update_self, Option.some.injEq] at hi
        subst hi
        exact absurd hs (hnotxn i u)
      · rw [Function.update_of_ne hn] at hi
        exact h.txnIndexed i hi
  · rw [tables_of_creates hc hexec htxns]
    exact h.transactions
  · rcases execStep_creates hc hexec with ⟨-, rfl⟩ | ⟨n, t, hs, hn, rfl⟩ | ⟨n, t, u, -, -, -, rfl⟩
    · exact h.local_license
    · intro t' ht'
      change Function.update db.tables n (some t) "local_license" = some t' at ht'
      by_cases hlic : "local_license" = n
      · subst hlic
        rw [Function.update_self] at ht'
        rw [← Option.some.inj ht']
        exact iff_of_false (hfree _ t hs).2 (by omega)
      · rw [Function.update_of_ne hlic] at ht'
        exact h.local_license t' ht'
    · exact h.local_license
  · rcases execStep_creates hc hexec with ⟨-, rfl⟩ | ⟨n, t, hs, hn, rfl⟩ | ⟨n, t, u, -, -, -, rfl⟩
    · exact h.rebuilding
    · show Function.update db.tables n (some t) "transactions_new" = none
      rw [Function.update_of_ne (hfree n t hs).1.symm]
      exact h.rebuilding
    · exact h.rebuilding
  · rw [rows_of_creates hc hexec hrules]
    exact h.ruleIds
  · rw [rows_of_creates hc hexec htxns]
    exact h.transactionIds

theorem SchemaAt.execAll_creates {db' : Database} {steps : List (List Stmt)} (h : SchemaAt k db)
    (hk : k < 7) (hsteps : ∀ step ∈ steps, CreatesFreely step)
    (hexec : execAll execStep steps db = some db') :
    SchemaAt k db' ∧ db'.userVersion = db.userVersion := by
  induction steps generalizing db with
  | nil => rw [← Option.some.inj hexec]; exact ⟨h, rfl⟩
  | cons step steps ih =>
    rw [execAll_cons] at hexec
    obtain ⟨db₁, hstep, hrest⟩ := Option.bind_eq_some_iff.mp hexec
    have hfree := hsteps step List.mem_cons_self
    obtain ⟨hschema, hversion⟩ := ih (h.creates hk hfree hstep)
      (fun s hs => hsteps s (List.mem_cons_of_mem _ hs)) hrest
    exact ⟨hschema, hversion.trans (userVersion_of_creates hfree.1 hstep)⟩

/-- What is to be shown of the crashes inside a migration. -/
def CrashesInside (k : ℕ) (db : Database) (stage : List (List Stmt)) : Prop :=
  ∀ n < stage.length, SafeCrash addsColumn stage n →
    ∃ db', execAll execStep (stage.take n) db = some db' ∧ VersionAt k db' ∧
      execAll execStep (stage.take n) db' = some db'

/-- A migration that only makes tables and indexes may be cut off anywhere. -/
theorem VersionAt.inside_creates {db' : Database} {steps : List (List Stmt)} (h : VersionAt k db)
    (hk : k < 7) (hsteps : ∀ step ∈ steps, CreatesFreely step)
    (hexec : execAll execStep steps db = some db') (record : List Stmt) :
    CrashesInside k db (steps ++ [record]) := by
  intro n hn _
  rw [List.length_append, List.length_singleton] at hn
  have htake : (steps ++ [record]).take n = steps.take n :=
    List.take_append_of_le_length (by omega)
  have hsome := attempt_state hexec (some n)
  have hfree : ∀ step ∈ steps.take n, CreatesFreely step :=
    fun step hstep => hsteps step (List.mem_of_mem_take hstep)
  obtain ⟨hschema, hversion⟩ := h.toSchemaAt.execAll_creates hk hfree hsome
  rw [htake]
  exact ⟨_, hsome, ⟨hschema, h.le_latest, hversion ▸ h.version⟩,
    execAll_creates_again (fun step hstep => (hfree step hstep).1) hsome⟩

/-- Nor does it matter where a migration has no step yet, or only columns. -/
theorem VersionAt.inside_addColumns (h : VersionAt k db) (name : String)
    (columns : List (String × Value)) (record : List Stmt) :
    CrashesInside k db ((columns.map fun c => [.addColumn name c.1 c.2]) ++ [record]) := by
  intro n hn hsafe
  cases n with
  | zero => exact ⟨db, rfl, h, rfl⟩
  | succ n =>
    rw [List.length_append, List.length_map, List.length_singleton] at hn
    rw [SafeCrash, List.take_append_of_le_length (by simp; omega), ← List.map_take,
      List.getLast?_map] at hsafe
    have hne : columns.take (n + 1) ≠ [] := by
      rw [← List.length_pos_iff, List.length_take]
      omega
    rw [List.getLast?_eq_some_getLast hne] at hsafe
    cases hsafe _ rfl

/-! ## Adding columns -/

theorem SchemaAt.addColumns {k' : ℕ} {name : String} {t : TableDef}
    {columns : List (String × Value)} (h : SchemaAt k db) (hname : db.tables name = some t)
    (htables : tablesAt k' = tablesAt k) (hindexes : indexesAt k' = indexesAt k)
    (hkeys : ∀ c ∈ rebuiltTable.primaryKey, c ∉ columns.map Prod.fst)
    (htxns : ∀ t' ∈ (db.addColumns name t columns).tables "transactions", TransactionsAt k' t')
    (hlicense : ∀ t' ∈ (db.addColumns name t columns).tables "local_license",
      "integrity_hmac" ∈ t'.columns ↔ 7 ≤ k') :
    SchemaAt k' (db.addColumns name t columns) := by
  have hsome : ∀ n, (db.tables n).isSome → ((db.addColumns name t columns).tables n).isSome := by
    intro n hn
    by_cases hname' : n = name
    · subst hname'; simp
    · rw [addColumns_tables_of_ne hname']
      exact hn
  have hid : ∀ r, withDefaults columns r "id" = r "id" :=
    fun r => withDefaults_of_notMem (hkeys "id" (by decide))
  refine ⟨?_, ?_, ?_, h.txnIndexed, htxns, hlicense, ?_, ?_, ?_⟩
  · rw [htables]
    exact fun n hn => hsome n (h.tables n hn)
  · rw [hindexes]
    exact h.indexes
  · exact fun i n hi => hsome n (h.indexed i n hi)
  · have hne : "transactions_new" ≠ name := by
      rintro rfl
      rw [h.rebuilding] at hname
      cases hname
    rw [addColumns_tables_of_ne hne]
    exact h.rebuilding
  · rw [map_rows_addColumns hid]
    exact h.ruleIds
  · rw [map_rows_addColumns fun r => keyOf_withDefaults hkeys]
    exact h.transactionIds

/-! ## The migrations one by one -/

/-- What is to be shown of a migration that is not cut off. -/
def LeadsToNext (k : ℕ) (db : Database) (stage : List (List Stmt)) : Prop :=
  ∃ db', execAll execStep stage db = some db' ∧ VersionAt (k + 1) db'

theorem SchemaAt.withVersion (h : SchemaAt k db) (version : ℕ) :
    SchemaAt k { db with userVersion := version } :=
  ⟨h.1, h.2, h.3, h.4, h.5, h.6, h.7, h.8, h.9⟩

theorem SchemaAt.recorded {db' : Database} {steps : List (List Stmt)} (h : SchemaAt (k + 1) db')
    (hk : k < 7) (hexec : execAll execStep steps db = some db') :
    LeadsToNext k db (steps ++ [[.setVersion (k + 1)]]) := by
  refine ⟨{ db' with userVersion := k + 1 }, ?_, h.withVersion (k + 1), hk, .inl rfl⟩
  rw [execAll_append, hexec]
  rfl

theorem TransactionsAt.addDupFlag {t : TableDef} (h : TransactionsAt 0 t) :
    TransactionsAt 1 { t with columns := t.columns ++ ["dup_flag"] } where
  base := fun c hc => List.mem_append_left _ (h.base c hc)
  dup_flag := by simp
  gst := by
    intro c hc
    have hne : c ≠ "dup_flag" := by rintro rfl; simp [gstColumns] at hc
    simpa [hne] using h.gst c hc
  primaryKey := by omega

theorem TransactionsAt.addGst {t : TableDef} (h : TransactionsAt 2 t) :
    TransactionsAt 3 { t with columns := t.columns ++ gstColumns } where
  base := fun c hc => List.mem_append_left _ (h.base c hc)
  dup_flag := by simpa [gstColumns] using h.dup_flag
  gst := by
    intro c hc
    simp [hc]
  primaryKey := by omega

theorem VersionAt.migration_1 (h : VersionAt 0 db) :
    LeadsToNext 0 db ([[.addColumn "transactions" "dup_flag" (.int 0)]] ++ [[.setVersion 1]]) := by
  obtain ⟨t, ht, hcols⟩ := h.exists_transactions
  have hnew : "dup_flag" ∉ t.columns := by simp [hcols.dup_flag]
  have hexec := execAll_addColumns [("dup_flag", .int 0)] ht (by simpa using hnew)
    (by simp)
  refine SchemaAt.recorded (h.toSchemaAt.addColumns ht ?_ ?_ (by decide) ?_ ?_) (by omega) hexec
  · rfl
  · rfl
  · rw [addColumns_tables_self]
    rintro t' ht'
    rw [← Option.some.inj ht']
    exact hcols.addDupFlag
  · rw [addColumns_tables_of_ne (by decide)]
    intro t' ht'
    simpa using h.local_license t' ht'

theorem VersionAt.migration_3 (h : VersionAt 2 db) :
    LeadsToNext 2 db ((gstColumns.map fun c => [.addColumn "transactions" c .null]) ++
      [[.setVersion 3]]) := by
  obtain ⟨t, ht, hcols⟩ := h.exists_transactions
  have hnew : ∀ c ∈ gstColumns, c ∉ t.columns := by
    intro c hc
    rw [hcols.gst c hc]
    omega
  have hexec := execAll_addColumns (gstColumns.map fun c => (c, .null)) ht
    (by simpa [Function.comp_def] using hnew) (by decide)
  refine SchemaAt.recorded (h.toSchemaAt.addColumns ht ?_ ?_ (by decide) ?_ ?_) (by omega) hexec
  · rfl
  · rfl
  · rw [addColumns_tables_self]
    rintro t' ht'
    rw [← Option.some.inj ht']
    exact hcols.addGst
  · rw [addColumns_tables_of_ne (by decide)]
    intro t' ht'
    simpa using h.local_license t' ht'

theorem VersionAt.migration_7 (h : VersionAt 6 db) :
    LeadsToNext 6 db ([[.addColumn "local_license" "integrity_hmac" .null]] ++ [[.setVersion 7]]) := by
  obtain ⟨t, ht⟩ := Option.isSome_iff_exists.mp (h.tables "local_license" (by simp [tablesAt]))
  have hnew : "integrity_hmac" ∉ t.columns := by simp [h.local_license t ht]
  have hexec := execAll_addColumns [("integrity_hmac", .null)] ht (by simpa using hnew)
    (by simp)
  refine SchemaAt.recorded (h.toSchemaAt.addColumns ht ?_ ?_ (by decide) ?_ ?_) (by omega) hexec
  · rfl
  · rfl
  · rw [addColumns_tables_of_ne (by decide)]
    intro t' ht'
    exact (h.transactions t' ht').congr (by omega) (by omega) (by omega)
  · rw [addColumns_tables_self]
    rintro t' ht'
    rw [← Option.some.inj ht']
    simp

/-- A migration that only makes tables and indexes. -/
theorem VersionAt.migrate_creates (h : VersionAt k db) {m : Migration} (hm : m.version = k + 1)
    (hk : k < 7) (hsteps : ∀ step ∈ m.steps, CreatesFreely step)
    (hexec : ∃ db', execAll execStep m.steps db = some db')
    (htables : ∀ name ∈ tablesAt (k + 1),
      name ∈ tablesAt k ∨ ∃ t, [.createTable true name t] ∈ m.steps)
    (hindexes : ∀ name ∈ indexesAt (k + 1),
      name ∈ indexesAt k ∨ ∃ table unique, [.createIndex name table unique] ∈ m.steps)
    (h1 : 1 ≤ k) (h3 : 3 ≤ k ↔ 3 ≤ k + 1) (h5 : 5 ≤ k + 1 → 5 ≤ k) (h7 : k + 1 < 7) :
    LeadsToNext k db m.recorded ∧ CrashesInside k db m.recorded := by
  obtain ⟨db', hexec⟩ := hexec
  have hmade := made_of_execAll (fun step hs => (hsteps step hs).1) hexec
  obtain ⟨hschema, -⟩ := h.toSchemaAt.execAll_creates hk hsteps hexec
  have hnext : SchemaAt (k + 1) db' := by
    refine hschema.congr ?_ ?_ (by omega) h3 h5 (by omega)
    · intro name hname
      rcases htables name hname with hold | ⟨t, ht⟩
      · exact hschema.tables name hold
      · exact hmade _ ht
    · intro name hname
      rcases hindexes name hname with hold | ⟨table, unique, ht⟩
      · exact hschema.indexes name hold
      · exact hmade _ ht
  rw [Migration.recorded, hm]
  exact ⟨hnext.recorded hk hexec, h.inside_creates hk hsteps hexec _⟩

theorem VersionAt.migration_2 (h : VersionAt 1 db) {m : Migration} (hm : migrations[1]? = some m) :
    LeadsToNext 1 db m.recorded ∧ CrashesInside 1 db m.recorded := by
  obtain rfl := Option.some.inj hm
  refine h.migrate_creates rfl (by omega) ?_ ?_ ?_ ?_ (by omega) (by omega) (by omega) (by omega)
  · simp [CreatesFreely, creates]
  · exact exists_execAll_createTable fun _ haudit => exists_execAll_createIndex haudit ⟨_, rfl⟩
  · simp [tablesAt]
  · simp [indexesAt]

theorem VersionAt.migration_6 (h : VersionAt 5 db) {m : Migration} (hm : migrations[5]? = some m) :
    LeadsToNext 5 db m.recorded ∧ CrashesInside 5 db m.recorded := by
  obtain rfl := Option.some.inj hm
  refine h.migrate_creates rfl (by omega) ?_ ?_ ?_ ?_ (by omega) (by omega) (by omega) (by omega)
  · simp [CreatesFreely, creates]
  · refine exists_execAll_createTable fun _ _ => ?_
    refine exists_execAll_createTable fun _ _ => ?_
    exact exists_execAll_createTable fun _ hlog => exists_execAll_createIndex hlog ⟨_, rfl⟩
  · simp [tablesAt, exists_or, or_assoc]
  · simp [indexesAt, or_assoc]

/-! ## The unique rules -/

theorem keepFirst_sublist (key : Row → List Value) (rows : List Row) :
    (keepFirst key rows).Sublist rows := List.filter_sublist

/-- Doing it again changes nothing. -/
theorem keepFirst_keepFirst (key : Row → List Value) (rows : List Row) :
    keepFirst key (keepFirst key rows) = keepFirst key rows := by
  refine List.filter_eq_self.mpr fun r hr => List.all_eq_true.mpr fun r' hr' => ?_
  rw [keepFirst, List.mem_filter, List.all_eq_true] at hr
  exact hr.2 r' ((keepFirst_sublist key rows).subset hr')

theorem id_le_of_mem_keepFirst {key : Row → List Value} {rows : List Row} {r r' : Row} {id id' : ℤ}
    (hr : r ∈ keepFirst key rows) (hr' : r' ∈ rows) (hkey : key r' = key r)
    (hid : r "id" = .int id) (hid' : r' "id" = .int id') : id ≤ id' := by
  rw [keepFirst, List.mem_filter, List.all_eq_true] at hr
  simpa [hkey, hid, hid'] using hr.2 r' hr'

/-- Of two rows with the same key that stay, neither has the smaller id. -/
theorem keepFirst_nodup (key : Row → List Value) {rows : List Row} {ids : List ℤ}
    (hids : rows.map (fun r => r "id") = ids.map .int) (hnodup : ids.Nodup) :
    ((keepFirst key rows).map key).Nodup := by
  have hidNodup : (rows.map fun r => r "id").Nodup := by
    rw [hids]
    exact List.Nodup.map (fun _ _ h => Value.int.inj h) hnodup
  have hint : ∀ r ∈ rows, ∃ id, r "id" = .int id := by
    intro r hr
    have hmem : r "id" ∈ ids.map Value.int := hids ▸ List.mem_map_of_mem hr
    obtain ⟨id, -, hid⟩ := List.mem_map.mp hmem
    exact ⟨id, hid.symm⟩
  refine List.Nodup.map_on ?_ (hidNodup.of_map.sublist (keepFirst_sublist key rows))
  intro r hr r' hr' hkey
  have hmem := (keepFirst_sublist key rows).subset hr
  have hmem' := (keepFirst_sublist key rows).subset hr'
  obtain ⟨id, hid⟩ := hint r hmem
  obtain ⟨id', hid'⟩ := hint r' hmem'
  have hle := id_le_of_mem_keepFirst hr hmem' hkey.symm hid hid'
  have hle' := id_le_of_mem_keepFirst hr' hmem hkey hid' hid
  refine List.inj_on_of_nodup_map hidNodup hmem hmem' ?_
  rw [hid, hid', Int.le_antisymm hle hle']

/-- The statement of migration 4 that leaves one rule for each key. -/
def deleteDuplicates : Stmt := .deleteRows "classification_rules" (keepFirst ruleKey)

def uniqueRules (db : Database) : Database :=
  { db with
    rows := Function.update db.rows "classification_rules"
      (keepFirst ruleKey (db.rows "classification_rules")) }

@[simp] theorem uniqueRules_rules : (uniqueRules db).rows "classification_rules" =
    keepFirst ruleKey (db.rows "classification_rules") := by
  simp [uniqueRules]

theorem uniqueRules_rows {name : String} (h : name ≠ "classification_rules") :
    (uniqueRules db).rows name = db.rows name :=
  Function.update_of_ne h ..

theorem uniqueRules_eq_self
    (h : keepFirst ruleKey (db.rows "classification_rules") = db.rows "classification_rules") :
    uniqueRules db = db := by
  rw [uniqueRules, h, Function.update_eq_self]

theorem SchemaAt.exec_deleteDuplicates (h : SchemaAt k db) :
    execStep [deleteDuplicates] db = some (uniqueRules db) := by
  have hsome : (db.tables "classification_rules").isSome := h.tables _ (by simp [tablesAt, baseTables])
  obtain ⟨t, ht⟩ := Option.isSome_iff_exists.mp hsome
  rw [execStep_singleton, deleteDuplicates, exec, ht]
  rfl

theorem SchemaAt.uniqueRules (h : SchemaAt k db) : SchemaAt k (uniqueRules db) where
  tables := h.tables
  indexes := h.indexes
  indexed := h.indexed
  txnIndexed := h.txnIndexed
  transactions := h.transactions
  local_license := h.local_license
  rebuilding := h.rebuilding
  ruleIds := by
    obtain ⟨ids, hids, hnodup⟩ := h.ruleIds
    have hsub := (keepFirst_sublist ruleKey (db.rows "classification_rules")).map fun r => r "id"
    rw [hids] at hsub
    obtain ⟨ids', hsub', hids'⟩ := List.sublist_map_iff.mp hsub
    exact ⟨ids', by rw [uniqueRules_rules, hids'], hnodup.sublist hsub'⟩
  transactionIds := by
    rw [uniqueRules_rows (by decide)]
    exact h.transactionIds

theorem VersionAt.migration_4 (h : VersionAt 3 db) {m : Migration} (hm : migrations[3]? = some m) :
    LeadsToNext 3 db m.recorded ∧ CrashesInside 3 db m.recorded := by
  have hsteps : m.recorded = [[deleteDuplicates], [.createIndex "idx_classification_rules_unique"
      "classification_rules" (some ruleKey)], [.setVersion 4]] := by
    rw [← Option.some.inj hm]
    rfl
  rw [hsteps]
  -- the statements, each from what the one before it leaves
  have hdelete := h.toSchemaAt.exec_deleteDuplicates
  have hschema := h.toSchemaAt.uniqueRules
  have hrules : ((uniqueRules db).tables "classification_rules").isSome :=
    hschema.tables _ (by simp [tablesAt, baseTables])
  have hkeys : (((uniqueRules db).rows "classification_rules").map ruleKey).Nodup := by
    obtain ⟨ids, hids, hnodup⟩ := h.ruleIds
    rw [uniqueRules_rules]
    exact keepFirst_nodup ruleKey hids hnodup
  obtain ⟨db', hindex⟩ := exists_createUniqueIndex "idx_classification_rules_unique" hrules hkeys
  have hschema' : SchemaAt 3 db' :=
    hschema.creates (by omega) ⟨rfl, by simp, by simp⟩ hindex
  have hmade := made_of_creates rfl hindex
  have hversion := userVersion_of_creates rfl hindex
  -- and what they do when they are made again
  have hdelete₁ : execStep [deleteDuplicates] (uniqueRules db) = some (uniqueRules db) := by
    rw [hschema.exec_deleteDuplicates, uniqueRules_eq_self]
    rw [uniqueRules_rules, keepFirst_keepFirst]
  have hdelete₂ : execStep [deleteDuplicates] db' = some db' := by
    rw [hschema'.exec_deleteDuplicates, uniqueRules_eq_self]
    rw [rows_of_creates rfl hindex hrules, uniqueRules_rules, keepFirst_keepFirst]
  have hindex₂ := execStep_of_made rfl hmade
  constructor
  · have hnext : SchemaAt 4 db' := by
      refine hschema'.congr hschema'.tables ?_ (by omega) (by omega) (by omega) (by omega)
      intro name hname
      have hcases : name ∈ indexesAt 3 ∨ name = "idx_classification_rules_unique" := by
        simpa [indexesAt, or_assoc] using hname
      rcases hcases with hold | rfl
      · exact hschema'.indexes name hold
      · exact hmade
    have hexec : execAll execStep [[deleteDuplicates], [.createIndex
        "idx_classification_rules_unique" "classification_rules" (some ruleKey)]] db = some db' := by
      rw [execAll_cons, hdelete, Option.bind_some, execAll_cons, hindex]
      rfl
    exact hnext.recorded (by omega) hexec
  · intro n hn _
    match n with
    | 0 => exact ⟨db, rfl, h, rfl⟩
    | 1 =>
      refine ⟨uniqueRules db, ?_, ⟨hschema, h.le_latest, h.version⟩, ?_⟩
      · rw [List.take_one, List.head?_cons, Option.toList_some, execAll_cons, hdelete]
        rfl
      · rw [List.take_one, List.head?_cons, Option.toList_some, execAll_cons, hdelete₁]
        rfl
    | 2 =>
      refine ⟨db', ?_, ⟨hschema', h.le_latest, by rw [hversion]; exact h.version⟩, ?_⟩
      · show execAll execStep [_, _] db = _
        rw [execAll_cons, hdelete, Option.bind_some, execAll_cons, hindex]
        rfl
      · show execAll execStep [_, _] db' = _
        rw [execAll_cons, hdelete₂, Option.bind_some, execAll_cons, hindex₂]
        rfl

/-! ## The rebuilt table -/

/-- What the transaction of migration 5 leaves. -/
def rebuilt (db : Database) : Database where
  userVersion := db.userVersion
  tables := Function.update db.tables "transactions" (some rebuiltTable)
  indexes := fun i => (if db.indexes i = some "transactions" then none else db.indexes i).or
    (if i ∈ txnIndexes then some "transactions" else none)
  rows := Function.update (Function.update db.rows "transactions_new" []) "transactions"
    ((db.rows "transactions").map (selectColumns rebuiltTable.columns))

@[simp] theorem rebuilt_transactions :
    (rebuilt db).tables "transactions" = some rebuiltTable := by
  simp [rebuilt]

theorem rebuilt_tables {name : String} (h : name ≠ "transactions") :
    (rebuilt db).tables name = db.tables name := by
  simp [rebuilt, h]

/-- An index is on the rebuilt table, or is where it was. -/
theorem of_rebuilt_indexes {i name : String} (h : (rebuilt db).indexes i = some name) :
    name = "transactions" ∧ i ∈ txnIndexes ∨ name ≠ "transactions" ∧ db.indexes i = some name := by
  simp only [rebuilt, Option.or_eq_some_iff] at h
  rcases h with h | ⟨-, h⟩
  · split at h
    · cases h
    · rename_i hne
      exact .inr ⟨fun hname => hne (hname ▸ h), h⟩
  · split at h
    · rename_i hi
      exact .inl ⟨(Option.some.inj h).symm, hi⟩
    · cases h

theorem rebuildTransactions_eq : rebuildTransactions =
    [.createTable false "transactions_new" rebuiltTable,
     .insertSelect "transactions_new" "transactions" rebuiltTable.columns,
     .dropTable "transactions",
     .renameTable "transactions_new" "transactions"] ++
    txnIndexes.map fun i => .createIndex i "transactions" none := rfl

theorem keyOf_selectColumns {columns key : List String} {r : Row} (h : ∀ c ∈ key, c ∈ columns) :
    keyOf key (selectColumns columns r) = keyOf key r :=
  List.map_congr_left fun c hc => if_pos (h c hc)

theorem rebuilt_keys (rows : List Row) :
    (rows.map (selectColumns rebuiltTable.columns)).map (keyOf rebuiltTable.primaryKey) =
      rows.map (keyOf rebuiltTable.primaryKey) := by
  rw [List.map_map]
  exact List.map_congr_left fun r _ => keyOf_selectColumns (by decide)

theorem selectColumns_selectColumns (columns : List String) (r : Row) :
    selectColumns columns (selectColumns columns r) = selectColumns columns r := by
  funext c
  by_cases hc : c ∈ columns <;> simp [selectColumns, hc]

theorem TransactionsAt.rebuiltColumns {t : TableDef} (h : TransactionsAt 4 t) :
    ∀ c ∈ rebuiltTable.columns, c ∈ t.columns := by
  intro c hc
  have hcases : c ∈ baseColumns ++ ["created_at"] ∨ c = "dup_flag" ∨ c ∈ gstColumns := by
    simp only [rebuiltTable, List.mem_append, List.mem_singleton] at hc ⊢
    tauto
  rcases hcases with hbase | rfl | hgst
  · exact h.base c hbase
  · exact h.dup_flag.mpr (by omega)
  · exact (h.gst c hgst).mpr (by omega)

theorem SchemaAt.exec_rebuild (h : SchemaAt 4 db) :
    execStep rebuildTransactions db = some (rebuilt db) := by
  have hsome : (db.tables "transactions").isSome := h.tables _ (by simp [tablesAt, baseTables])
  obtain ⟨t, ht⟩ := Option.isSome_iff_exists.mp hsome
  have hcolumns := (h.transactions t ht).rebuiltColumns
  have hnodup : (((db.rows "transactions").map (selectColumns rebuiltTable.columns)).map
      (keyOf rebuiltTable.primaryKey)).Nodup := by
    rw [rebuilt_keys]
    exact h.transactionIds
  have hnone : ∀ i, db.indexes i ≠ some "transactions_new" := by
    intro i hi
    simpa [h.rebuilding] using h.indexed i _ hi
  have hmove : execAll exec
      [.createTable false "transactions_new" rebuiltTable,
       .insertSelect "transactions_new" "transactions" rebuiltTable.columns,
       .dropTable "transactions",
       .renameTable "transactions_new" "transactions"] db = some { rebuilt db with
      indexes := fun i => if db.indexes i = some "transactions" then none else db.indexes i } := by
    rw [execAll_cons, exec_createTable h.rebuilding, Option.bind_some, execAll_cons,
      exec_insertSelect (t := rebuiltTable) (s := t) (by simp) (by simp [ht])
        (fun c hc => ⟨hc, hcolumns c hc⟩) (by simpa using hnodup),
      Option.bind_some, execAll_cons, exec_dropTable (t := t) (by simp [ht]), Option.bind_some,
      execAll_cons, exec_renameTable (t := rebuiltTable) (by simp) (by simp), Option.bind_some,
      execAll_nil, Option.some.injEq]
    ext1
    · rfl
    · funext n
      by_cases hn : n = "transactions"
      · simp [hn, rebuilt]
      · by_cases hn' : n = "transactions_new" <;> simp [hn, hn', rebuilt, h.rebuilding]
    · funext i
      by_cases hi : db.indexes i = some "transactions" <;> simp [hi, hnone i]
    · funext n
      by_cases hn : n = "transactions"
      · simp [hn, rebuilt]
      · by_cases hn' : n = "transactions_new" <;> simp [hn, hn', rebuilt]
  rw [rebuildTransactions_eq, execStep, execAll_append, hmove, Option.bind_some,
    execAll_createIndexes (by simp [rebuilt])]
  rfl

theorem rebuilt_rebuilt (db : Database) : rebuilt (rebuilt db) = rebuilt db := by
  ext1
  · rfl
  · exact Function.update_idem _ _ _
  · funext i
    by_cases hi : i ∈ txnIndexes
    · by_cases hx : db.indexes i = some "transactions"
      · simp [rebuilt, hi, hx]
      · cases hx' : db.indexes i <;> simp_all [rebuilt]
    · by_cases hx : db.indexes i = some "transactions" <;> simp [rebuilt, hi, hx]
  · funext n
    by_cases hn : n = "transactions"
    · subst hn
      have hsame : selectColumns rebuiltTable.columns ∘ selectColumns rebuiltTable.columns =
          selectColumns rebuiltTable.columns :=
        funext fun r => selectColumns_selectColumns rebuiltTable.columns r
      simp [rebuilt, hsame]
    · by_cases hn' : n = "transactions_new" <;> simp [hn, hn', rebuilt]

theorem rebuiltTable_transactionsAt : TransactionsAt 5 rebuiltTable where
  base := by decide
  dup_flag := by decide
  gst := by decide
  primaryKey := fun _ => rfl

theorem SchemaAt.rebuilt (h : SchemaAt 4 db) : SchemaAt 5 (rebuilt db) where
  tables := by
    intro n hn
    by_cases hn' : n = "transactions"
    · simp [hn']
    · rw [rebuilt_tables hn']
      exact h.tables n hn
  indexes := by
    intro i hi
    by_cases htxn : i ∈ txnIndexes
    · simp [Desktop.rebuilt, htxn]
    · have hold : i ∈ indexesAt 4 := by
        simp only [txnIndexes, List.mem_append, List.mem_singleton, not_or] at htxn
        simpa [indexesAt, htxn.1, htxn.2] using hi
      have hne : db.indexes i ≠ some "transactions" := fun h' => htxn (h.txnIndexed i h')
      simpa [Desktop.rebuilt, htxn, hne] using h.indexes i hold
  indexed := by
    intro i n hi
    rcases of_rebuilt_indexes hi with ⟨rfl, -⟩ | ⟨hn, hi⟩
    · simp
    · rw [rebuilt_tables hn]
      exact h.indexed i n hi
  txnIndexed := by
    intro i hi
    rcases of_rebuilt_indexes hi with ⟨-, hmem⟩ | ⟨hne, -⟩
    · exact hmem
    · exact absurd rfl hne
  transactions := by
    intro t ht
    rw [rebuilt_transactions, Option.mem_some_iff] at ht
    rw [← ht]
    exact rebuiltTable_transactionsAt
  local_license := by
    intro t ht
    rw [rebuilt_tables (by decide)] at ht
    simpa using h.local_license t ht
  rebuilding := by
    rw [rebuilt_tables (by decide)]
    exact h.rebuilding
  ruleIds := by simpa [Desktop.rebuilt] using h.ruleIds
  transactionIds := by
    have hrows : (Desktop.rebuilt db).rows "transactions" =
        (db.rows "transactions").map (selectColumns rebuiltTable.columns) := by
      simp [Desktop.rebuilt]
    rw [hrows, rebuilt_keys]
    exact h.transactionIds

theorem VersionAt.migration_5 (h : VersionAt 4 db) :
    LeadsToNext 4 db ([rebuildTransactions] ++ [[.setVersion 5]]) ∧
      CrashesInside 4 db ([rebuildTransactions] ++ [[.setVersion 5]]) := by
  have hexec : execAll execStep [rebuildTransactions] db = some (rebuilt db) := by
    rw [execAll_cons, h.toSchemaAt.exec_rebuild]
    rfl
  have hschema := h.toSchemaAt.rebuilt
  have hold : SchemaAt 4 (rebuilt db) :=
    hschema.congr hschema.tables (fun i hi => hschema.indexes i (by
      simp [indexesAt] at hi ⊢
      tauto)) (by omega) (by omega) (by omega) (by omega)
  refine ⟨hschema.recorded (by omega) hexec, fun n hn _ => ?_⟩
  match n with
  | 0 => exact ⟨db, rfl, h, rfl⟩
  | 1 =>
    refine ⟨rebuilt db, hexec, ⟨hold, h.le_latest, h.version⟩, ?_⟩
    show execAll execStep [rebuildTransactions] (rebuilt db) = _
    rw [execAll_cons, hold.exec_rebuild, rebuilt_rebuilt]
    rfl

/-! ## Opening again and again -/

theorem schemaSql_creates : ∀ step ∈ schemaSql, creates step := by decide

theorem SchemaAt.schemaSql_settled (h : SchemaAt k db) :
    ∀ step ∈ schemaSql, execStep step db = some db := by
  intro step hstep
  refine execStep_of_made (schemaSql_creates step hstep) ?_
  have htables : ∀ t ∈ baseTables, (db.tables t.1).isSome :=
    fun t ht => h.tables _ (by simp only [tablesAt, List.mem_append]; exact .inl (.inl (List.mem_map_of_mem ht)))
  have hindexes : ∀ i ∈ baseIndexes, (db.indexes i).isSome :=
    fun i hi => h.indexes i (by simp only [indexesAt, List.mem_append]; tauto)
  simp only [schemaSql, List.map_append, List.map_map, List.mem_append, List.mem_map,
    Function.comp_apply] at hstep
  rcases hstep with (⟨t, ht, rfl⟩ | ⟨i, hi, rfl⟩) | ⟨t, ht, rfl⟩
  · exact htables t (List.mem_of_mem_take ht)
  · exact hindexes i hi
  · exact htables t (List.mem_of_mem_drop ht)

theorem VersionAt.migrate (h : VersionAt k db) {stage : List (List Stmt)}
    (hstage : (migrations.map Migration.recorded)[k]? = some stage) :
    LeadsToNext k db stage ∧ CrashesInside k db stage := by
  match k with
  | 0 =>
    obtain rfl := Option.some.inj hstage
    exact ⟨h.migration_1, h.inside_addColumns "transactions" [("dup_flag", .int 0)] _⟩
  | 1 =>
    obtain rfl := Option.some.inj hstage
    exact h.migration_2 rfl
  | 2 =>
    obtain rfl := Option.some.inj hstage
    exact ⟨h.migration_3,
      h.inside_addColumns "transactions" (gstColumns.map fun c => (c, .null)) _⟩
  | 3 =>
    obtain rfl := Option.some.inj hstage
    exact h.migration_4 rfl
  | 4 =>
    obtain rfl := Option.some.inj hstage
    exact h.migration_5
  | 5 =>
    obtain rfl := Option.some.inj hstage
    exact h.migration_6 rfl
  | 6 =>
    obtain rfl := Option.some.inj hstage
    exact ⟨h.migration_7, h.inside_addColumns "local_license" [("integrity_hmac", .null)] _⟩
  | k + 7 => cases hstage

theorem resumable_migrations : Resumable execStep addsColumn schemaSql
    (migrations.map Migration.recorded) applyMigrations VersionAt where
  le_length h := h.le_latest
  script_eq h := h.applyMigrations_eq
  settled h := h.toSchemaAt.schemaSql_settled
  again h := execAll_creates_again (fun step hs => schemaSql_creates step (List.mem_of_mem_take hs)) h
  done h hstage := (h.migrate hstage).1
  inside h hstage hn hsafe := (h.migrate hstage).2 _ hn hsafe

end

/-! ## A new database -/

/-- What the base schema makes of a new database. -/
def baseDatabase : Database :=
  ((Database.blank.withTables (baseTables.take 2)).withIndexes baseIndexes "transactions").withTables
    (baseTables.drop 2)

theorem schemaSql_blank : execAll execStep schemaSql Database.blank = some baseDatabase := by
  rw [schemaSql, execAll_singletons, execAll_append, execAll_append]
  have hfirst : execAll exec ((baseTables.take 2).map createBaseTable) Database.blank =
      some (Database.blank.withTables (baseTables.take 2)) := execAll_createTables rfl
  rw [hfirst, Option.bind_some]
  have hindexes : execAll exec (baseIndexes.map createBaseIndex)
      (Database.blank.withTables (baseTables.take 2)) =
      some ((Database.blank.withTables (baseTables.take 2)).withIndexes baseIndexes "transactions") :=
    execAll_createIndexes rfl
  rw [hindexes, Option.bind_some]
  exact execAll_createTables rfl

theorem baseDatabase_indexes {i name : String} (h : baseDatabase.indexes i = some name) :
    i ∈ baseIndexes ∧ name = "transactions" := by
  change Option.or none (if i ∈ baseIndexes then some "transactions" else none) = some name at h
  rw [Option.none_or] at h
  split at h
  · rename_i hi
    exact ⟨hi, (Option.some.inj h).symm⟩
  · cases h

theorem baseDatabase_versionAt : VersionAt 0 baseDatabase where
  tables := by decide
  indexes := by decide
  indexed := by
    intro i name hi
    rw [(baseDatabase_indexes hi).2]
    rfl
  txnIndexed := fun i hi => List.mem_append_left _ (baseDatabase_indexes hi).1
  transactions := by
    intro t ht
    rw [← Option.some.inj ht]
    exact ⟨by decide, by decide, by decide, by omega⟩
  local_license := nofun
  rebuilding := rfl
  ruleIds := ⟨[], rfl, List.nodup_nil⟩
  transactionIds := List.nodup_nil
  le_latest := by omega
  version := .inl rfl

/-! ## Any number of opens -/

/-- An open does not crash right after adding a column. -/
def SafeOpen (db : Database) (crash : Option ℕ) : Prop :=
  ∀ n ∈ crash, SafeCrash addsColumn (openSteps db) n

instance (db : Database) (crash : Option ℕ) : Decidable (SafeOpen db crash) :=
  inferInstanceAs (Decidable (∀ n ∈ crash, ∀ a ∈ ((openSteps db).take n).getLast?, addsColumn a = false))

/-- The database after an open, whether it crashes or not. -/
def afterOpen (db : Database) (crash : Option ℕ) : Database := (openDb db crash).state

/-- After these opens one that does not crash succeeds, at the latest version and with each
migration done once. -/
def UpgradesOnce (k : ℕ) (db : Database) (crashes : List (Option ℕ)) : Prop :=
  ∃ final, openDb (run afterOpen db crashes) none = .completed final ∧ final.userVersion = 7 ∧
    appliedOnce k db = some final

theorem Found.leadsTo {k : ℕ} {db : Database} (h : Found k db) : ∃ final,
    Resumable.LeadsTo execStep schemaSql (migrations.map Migration.recorded) VersionAt final db ∧
      final.userVersion = 7 ∧ appliedOnce k db = some final := by
  obtain ⟨s₀, hs₀, hversion⟩ : ∃ s₀, execAll execStep schemaSql db = some s₀ ∧ VersionAt k s₀ := by
    rcases h with ⟨rfl, rfl⟩ | h
    · exact ⟨_, schemaSql_blank, baseDatabase_versionAt⟩
    · exact ⟨db, execAll_of_settled h.toSchemaAt.schemaSql_settled, h⟩
  obtain ⟨final, hfinal, hlast⟩ := resumable_migrations.exists_final hversion
  refine ⟨final, ⟨k, s₀, hs₀, hversion, hfinal⟩, ?_, ?_⟩
  · rcases hlast.version with h7 | ⟨hlegacy, -⟩
    · exact h7
    · cases hlegacy
  · rw [appliedOnce, execAll_append, hs₀, Option.bind_some, List.map_drop]
    exact hfinal

/-- Opens that crash at other points are made up for by the next one that does not crash. -/
theorem upgradesOnce_of_safe {k : ℕ} {db : Database} {crashes : List (Option ℕ)} (h : Found k db)
    (hsafe : EveryStep afterOpen SafeOpen db crashes) : UpgradesOnce k db crashes := by
  obtain ⟨final, hleads, hlatest, honce⟩ := h.leadsTo
  have hrun := hsafe.invariant
    (I := Resumable.LeadsTo execStep schemaSql (migrations.map Migration.recorded) VersionAt final)
    (fun _ _ hs hcrash => hs.attempt resumable_migrations hcrash) hleads
  exact ⟨final, attempt_none (hrun.execAll resumable_migrations), hlatest, honce⟩

/-- The base schema cut off, then migration 2 cut off between its statements. -/
theorem upgradesOnce_of_safe_blank :
    UpgradesOnce 0 Database.blank [some 3, some 14, none] :=
  upgradesOnce_of_safe (.inl ⟨rfl, rfl⟩) (by decide +kernel)

/-- Cut off between migration 1 and the record of its version, a new database is taken for a
legacy one, and never gets an audit log. -/
theorem crash_after_dup_flag :
    Found 0 Database.blank ∧ ¬UpgradesOnce 0 Database.blank [some 12] := by
  refine ⟨.inl ⟨rfl, rfl⟩, ?_⟩
  rintro ⟨final, hopen, -, honce⟩
  have hmissing : (openDb (afterOpen Database.blank (some 12)) none).state.tables "audit_log" =
      none := by decide +kernel
  have hmade : (appliedOnce 0 Database.blank).any fun db => (db.tables "audit_log").isSome := by
    decide +kernel
  rw [run_cons, run_nil] at hopen
  rw [hopen] at hmissing
  rw [honce, Option.any_some] at hmade
  change final.tables "audit_log" = none at hmissing
  rw [hmissing] at hmade
  cases hmade

/-- A database that has lost its version cannot be opened once migration 3 is done: it is taken for
a legacy one, and the columns of migration 3 are added again. -/
theorem openDb_without_version {k : ℕ} {db : Database} (h : VersionAt k db) (hk : 3 ≤ k) :
    openDb { db with userVersion := 0 } none = .failed { db with userVersion := 0 } := by
  obtain ⟨t, ht, hcols⟩ := h.exists_transactions
  have hschema := h.toSchemaAt.withVersion 0
  have hsettled := execAll_of_settled hschema.schemaSql_settled
  have hdup : columnExists { db with userVersion := 0 } "transactions" "dup_flag" = true := by
    simp only [columnExists, ht, Option.any_some, List.contains_iff_mem, hcols.dup_flag]
    omega
  have hbase : baseline { db with userVersion := 0 } = 2 := by
    rw [baseline, if_neg (by simp), if_pos hdup]
    rfl
  have hgst : "gst_rate" ∈ t.columns := (hcols.gst "gst_rate" (by decide)).mpr hk
  have hscript : ∃ rest, applyMigrations { db with userVersion := 0 } =
      [.addColumn "transactions" "gst_rate" .null] :: rest := by
    rw [applyMigrations, hbase]
    exact ⟨_, rfl⟩
  obtain ⟨rest, hscript⟩ := hscript
  rw [openDb, openSteps, Resumable.steps, hsettled, Option.getD_some, hscript]
  refine attempt_failed hsettled ?_
  rw [execStep_singleton, exec]
  simp only [ht, if_pos hgst]

end Desktop
