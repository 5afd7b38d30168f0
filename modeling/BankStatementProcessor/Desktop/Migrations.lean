import BankStatementProcessor.Infra.Sql

/-!
# Opening the database

Every open runs the base schema and then the migrations that `user_version` does not record
yet. A database of a build that kept no version is told from a new one by the column
`dup_flag`.

The batches have no transaction of their own, except the rebuild of migration 5, so each
statement and each record of a version is a step of its own.
-/

namespace Desktop

open Infra Sql

/-! ## The base schema -/

/-- The columns of `transactions` in the base schema, the last one apart. -/
def baseColumns : List String :=
  ["id", "client_id", "import_id", "bank_name", "account_no", "date", "date_ts", "narration",
    "reference", "debit", "credit", "balance", "prev_balance", "vendor", "account_head", "txn_type",
    "status", "confidence", "classified_by", "tags", "balance_ok", "is_opening_bal"]

def gstColumns : List String := ["gst_rate", "gst_amount", "gst_type"]

/-- The tables of `SCHEMA_SQL`. -/
def baseTables : List (String × TableDef) :=
  [("clients", ⟨["id", "name", "gstin", "address", "created_at", "updated_at"], ["id"]⟩),
   ("transactions", ⟨baseColumns ++ ["created_at"], ["id"]⟩),
   ("ledgers", ⟨["id", "client_id", "name", "group_name", "nature"], ["id"]⟩),
   ("classification_rules", ⟨["id", "client_id", "pattern", "vendor", "account_head", "txn_type",
      "priority", "created_at"], ["id"]⟩),
   ("import_history", ⟨["id", "client_id", "file_name", "bank_name", "account_no", "txn_count",
      "file_hash", "imported_at"], ["id"]⟩),
   ("settings", ⟨["key", "value", "updated_at"], ["key"]⟩),
   ("dedupe_hashes", ⟨["client_id", "hash", "added_at"], ["client_id", "hash"]⟩)]

/-- The indexes of `transactions`, which `SCHEMA_SQL` creates behind the table. -/
def baseIndexes : List String := ["idx_txn_client", "idx_txn_date_ts", "idx_txn_status", "idx_txn_vendor"]

def createBaseTable (t : String × TableDef) : Stmt := .createTable true t.1 t.2

def createBaseIndex (name : String) : Stmt := .createIndex name "transactions" none

def schemaSql : List (List Stmt) :=
  ((baseTables.take 2).map createBaseTable ++ baseIndexes.map createBaseIndex ++
    (baseTables.drop 2).map createBaseTable).map fun stmt => [stmt]

/-! ## The migrations -/

structure Migration where
  version : ℕ
  steps : List (List Stmt)

/-- Of the rows that agree on `key` the one with the smallest id stays. -/
def keepFirst (key : Row → List Value) (rows : List Row) : List Row :=
  rows.filter fun r => rows.all fun r' =>
    key r' != key r || match r "id", r' "id" with
      | .int id, .int id' => id ≤ id'
      | _, _ => false

/-- `client_id, pattern COLLATE NOCASE` -/
def ruleKey (r : Row) : List Value :=
  [r "client_id", match r "pattern" with
    | .text s => .text (String.ofList (s.toList.map Char.toLower))
    | v => v]

/-- The table that migration 5 rebuilds `transactions` into. -/
def rebuiltTable : TableDef :=
  ⟨baseColumns ++ ["dup_flag"] ++ gstColumns ++ ["created_at"], ["client_id", "id"]⟩

/-- The transaction of migration 5. -/
def rebuildTransactions : List Stmt :=
  [.createTable false "transactions_new" rebuiltTable,
   .insertSelect "transactions_new" "transactions" rebuiltTable.columns,
   .dropTable "transactions",
   .renameTable "transactions_new" "transactions",
   .createIndex "idx_txn_client" "transactions" none,
   .createIndex "idx_txn_date_ts" "transactions" none,
   .createIndex "idx_txn_status" "transactions" none,
   .createIndex "idx_txn_vendor" "transactions" none,
   .createIndex "idx_txn_import" "transactions" none]

/-- `MIGRATIONS` -/
def migrations : List Migration :=
  [{ version := 1
     steps := [[.addColumn "transactions" "dup_flag" (.int 0)]] },
   { version := 2
     steps := [
       [.createTable true "audit_log" ⟨["id", "client_id", "event", "created_at"], ["id"]⟩],
       [.createIndex "idx_audit_client" "audit_log" none]] },
   { version := 3
     steps := [
       [.addColumn "transactions" "gst_rate" .null],
       [.addColumn "transactions" "gst_amount" .null],
       [.addColumn "transactions" "gst_type" .null]] },
   { version := 4
     steps := [
       [.deleteRows "classification_rules" (keepFirst ruleKey)],
       [.createIndex "idx_classification_rules_unique" "classification_rules" (some ruleKey)]] },
   { version := 5
     steps := [rebuildTransactions] },
   { version := 6
     steps := [
       [.createTable true "local_license" ⟨["id", "customer_id", "license_id", "license_key",
         "subscription_type", "status", "expires_at", "last_validated_at", "grace_period_days",
         "highest_seen_clock", "updated_at"], ["id"]⟩],
       [.createTable true "device_info" ⟨["id", "device_id", "machine_fingerprint",
         "fingerprint_inputs", "created_at"], ["id"]⟩],
       [.createTable true "license_validation_log" ⟨["id", "checked_at", "result", "online",
         "detail"], ["id"]⟩],
       [.createIndex "idx_license_validation_log_time" "license_validation_log" none]] },
   { version := 7
     steps := [[.addColumn "local_license" "integrity_hmac" .null]] }]

def legacyBaselineVersion : ℕ := 2

/-! ## An open -/

def columnExists (db : Database) (table column : String) : Bool :=
  (db.tables table).any fun t => t.columns.contains column

/-- The version from which `apply_migrations` goes on. -/
def baseline (db : Database) : ℕ :=
  if db.userVersion ≠ 0 then db.userVersion
  else if columnExists db "transactions" "dup_flag" then legacyBaselineVersion
  else 0

/-- A migration and the record of its version. -/
def Migration.recorded (m : Migration) : List (List Stmt) := m.steps ++ [[.setVersion m.version]]

/-- The steps of `apply_migrations`. -/
def applyMigrations (db : Database) : List (List Stmt) :=
  let pending := migrations.filter fun m => baseline db < m.version
  let lastRecorded := (pending.getLast?.map Migration.version).getD db.userVersion
  (pending.map Migration.recorded).flatten ++
    if lastRecorded < baseline db then [[.setVersion (baseline db)]] else []

/-- The steps of `init_schema`. -/
def openSteps (db : Database) : List (List Stmt) :=
  Resumable.steps execStep schemaSql applyMigrations db

/-- An open that crashes after `crash` steps, or does not. -/
def openDb (db : Database) (crash : Option ℕ) : Outcome Database :=
  attempt execStep (openSteps db) crash db

end Desktop
