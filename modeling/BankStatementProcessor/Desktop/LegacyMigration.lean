import BankStatementProcessor.Desktop.LegacyImport

/-!
# The migration

A migration takes a backup, imports, counts the rows again and goes back to the backup when
the import failed or the counts are wrong.
-/

namespace Desktop

open Infra

/-- The number of rows of the table that an entity is written to. The settings have none. -/
def FullDb.tableCount (d : FullDb) : Entity → Option ℕ
  | .clients => some d.db.clients.rows.length
  | .classificationRules => some d.rules.rules.rows.length
  | .ledgers => some d.ledgers.rows.length
  | .dedupeHashes => some d.dedupeHashes.length
  | .importHistory => some d.db.importHistory.rows.length
  | .transactions => some d.db.transactions.rows.length
  | .settings => none

inductive Severity where
  | warning
  | fatal
deriving DecidableEq, Repr

structure ValidationIssue where
  severity : Severity
  entity : String
  message : String
deriving DecidableEq, Repr

/-- A table must not have fewer rows than are reported. All queries succeed. -/
def checkEntity (d : FullDb) (entry : Entity × EntityReport) : Option ValidationIssue :=
  let (k, e) := entry
  match d.tableCount k with
  | none => none
  | some count =>
    if e.imported = 0 then none
    else if count < e.imported then
      some ⟨.fatal, k.name, s!"reported {e.imported} row(s) imported into '{k.name}' but only " ++
        s!"{count} exist post-commit"⟩
    else none

def validateMigrated (d : FullDb) (report : MigrationReport) : List ValidationIssue :=
  report.entities.filterMap (checkEntity d)

/-- What may go wrong around the import. -/
structure MigrationFaults where
  backup : Bool
  openDb : Bool
  restore : Bool

def MigrationFaults.none : MigrationFaults := ⟨false, false, false⟩

structure Migrated where
  success : Bool
  rolledBack : Bool
  /-- The database afterwards. Without a backup to go back to it may hold a part of the import. -/
  target : Option FullDb

/-- Go back to the backup. -/
def rollBack (f : MigrationFaults) (backup : FullDb) : Migrated :=
  if f.restore then ⟨false, false, none⟩ else ⟨false, true, some backup⟩

/-- `migrate`. A file that is no export is `none`. -/
def migrate (env : ImportEnv) (r : ImportRun) (f : MigrationFaults) (exported : Option LegacyExport)
    (d : FullDb) : Migrated :=
  match exported with
  | none => ⟨false, false, some d⟩
  | some e =>
    if f.backup || f.openDb then ⟨false, false, some d⟩
    else match importAll env r e d with
      | none => rollBack f d
      | some (s, _) =>
        if (validateMigrated s.target s.report).any fun issue => issue.severity == .fatal then
          rollBack f d
        else ⟨true, false, some s.target⟩

/-! ## An import to start with -/

/-- A new database. -/
def blankFullDb : FullDb where
  db := ⟨.empty, .empty, .empty, by simp [Table.empty], by simp [Keyed.empty],
    noTransactions_import⟩
  rules := ⟨.empty, .empty, by simp [Table.empty], by simp [Table.empty], .nil⟩
  ledgers := .empty
  dedupeHashes := []
  createdAt _ := ""
  rules_clients := rfl
  clients_name := .nil
  clients_next := by decide
  ledgers_client := by simp [Table.empty]
  ledgers_unique := .nil
  dedupe_client := by simp
  dedupe_nodup := List.nodup_nil

def plainEnv : ImportEnv where
  unicode := .ascii
  fastFallbackId _ _ _ _ := "0"
  maxVariables := 32766

def plainRun : ImportRun := ⟨.asInserted, .asInserted, fun _ => "2024-01-01 00:00:00"⟩

end Desktop
