import BankStatementProcessor.Desktop.Db

/-!
# Statements stored one after the other

`statements_coexist_iff` — two statements of one client are both in the database after they
have been stored exactly when no row of the second was found in the same place as a row of
the first or as another row of the second.
-/

namespace Desktop

open Infra

/-- The rows of an import. -/
def Db.rowsOfImport (db : Db) (importId : Option ℕ) : List TransactionRow :=
  db.transactions.rows.filter (fun r => r.importId = importId)

/-- Storing `second` after `first` keeps the rows of `first` as they are and adds every row of
`second` as a row of its own. -/
def Coexist (db : Db) (clientId : ℕ) (fileName : String) (first : ParseResult)
    (fileName' : String) (second : ParseResult) : Prop :=
  let stored := db.persistParseResult clientId fileName first
  let stored' := stored.1.persistParseResult clientId fileName' second
  stored.2.isSome ∧ stored'.2.isSome ∧
    (∀ r ∈ stored.1.rowsOfImport stored.2, r ∈ stored'.1.transactions.rows) ∧
    (stored'.1.rowsOfImport stored'.2).Perm
      (second.txns.map (fun t => t.toRow clientId stored'.2))

instance (db : Db) (clientId : ℕ) (fileName : String) (first : ParseResult)
    (fileName' : String) (second : ParseResult) :
    Decidable (Coexist db clientId fileName first fileName' second) := by
  unfold Coexist
  infer_instance

/-- The rows of the two statements, and those of the second, were found in different places. -/
def PlacesDiffer (first second : ParseResult) : Prop :=
  (∀ t ∈ first.transactions, ∀ t' ∈ second.transactions, t'.place ≠ t.place) ∧
    (second.transactions.map (·.place)).Nodup

/-- No row refers to an import still to come. -/
theorem Db.importId_ne_next {db : Db} :
    ∀ r ∈ db.transactions.rows, r.importId ≠ some db.importHistory.nextId := by
  intro r hr hnext
  obtain ⟨i, hi, hid⟩ := db.transactions_import r hr _ hnext
  have := db.importHistory.below i hi
  omega

/-- Two rows of a client have the same key exactly when they were found in the same place. -/
theorem key_toRow_eq_iff {t t' : ParsedTransaction} {clientId : ℕ} {i i' : Option ℕ} :
    (t.txn.toRow clientId i).key = (t'.txn.toRow clientId i').key ↔ t.place = t'.place := by
  rw [Transaction.toRow_key, Transaction.toRow_key, t.id_eq, t'.id_eq]
  constructor
  · intro h
    exact RowId.render_injective (congrArg Prod.snd h)
  · intro h
    rw [h]

theorem keys_differ_iff {first second : ParseResult} {clientId : ℕ} {i i' : Option ℕ} :
    (∀ r ∈ first.txns.map (fun t => t.toRow clientId i),
      ∀ r' ∈ second.txns.map (fun t => t.toRow clientId i'), r'.key ≠ r.key) ↔
      ∀ t ∈ first.transactions, ∀ t' ∈ second.transactions, t'.place ≠ t.place := by
  simp only [ParseResult.txns, List.map_map, List.forall_mem_map, Function.comp_apply, ne_eq,
    key_toRow_eq_iff]

theorem nodup_keys_iff {result : ParseResult} {clientId : ℕ} {i : Option ℕ} :
    ((result.txns.map (fun t => t.toRow clientId i)).map TransactionRow.key).Nodup ↔
      (result.transactions.map (·.place)).Nodup := by
  simp only [ParseResult.txns, List.map_map, List.Nodup, List.pairwise_map, Function.comp_apply,
    ne_eq, key_toRow_eq_iff]

/--
**Two statements of a client are both stored in full exactly when all the rows of the second
were found in places of their own.**
-/
theorem statements_coexist_iff (db : Db) (clientId : ℕ) (fileName : String) (first : ParseResult)
    (fileName' : String) (second : ParseResult) (hc : ∃ c ∈ db.clients.rows, c.id = clientId) :
    Coexist db clientId fileName first fileName' second ↔ PlacesDiffer first second := by
  obtain ⟨db₁, heq₁, hclients₁, hnext₁, htxns₁⟩ := db.persistParseResult_eq fileName first hc
  obtain ⟨db₂, heq₂, -, -, htxns₂⟩ :=
    db₁.persistParseResult_eq fileName' second (by rwa [hclients₁])
  have howner : ∀ (result : ParseResult) (i : ℕ),
      ∀ r ∈ result.txns.map (fun t => t.toRow clientId (some i)), r.importId = some i := by
    intro result i r hr
    obtain ⟨t, -, rfl⟩ := List.mem_map.mp hr
    rfl
  have hkept := Keyed.batch_kept_iff (howner first db.importHistory.nextId)
    (howner second db₁.importHistory.nextId) (by rw [hnext₁]; simp) db.importId_ne_next
  have hstored := Keyed.batch_stored_iff (howner second db₁.importHistory.nextId)
    db₁.importId_ne_next
  rw [keys_differ_iff, ← htxns₁, ← htxns₂] at hkept
  rw [nodup_keys_iff, ← htxns₂] at hstored
  simp only [Coexist, PlacesDiffer, heq₁, heq₂, Option.isSome_some, true_and, Db.rowsOfImport]
  rw [hstored, ← hkept]
  simp

/-! ## Statements that collide -/

/-- The rows of a scanned statement, which the OCR parser numbers from 1. -/
def ocrRows (txns : List Transaction) : List ParsedTransaction :=
  txns.zipIdx.map fun (t, n) =>
    let place := RowId.numbered .ocr (n + 1)
    { place := place, txn := { t with id := place.render }, id_eq := rfl }

/-- Any two scanned statements with a row collide in their first row. -/
theorem not_placesDiffer_ocr {first second : ParseResult} {t t' : Transaction}
    {ts ts' : List Transaction} (hfirst : first.transactions = ocrRows (t :: ts))
    (hsecond : second.transactions = ocrRows (t' :: ts')) : ¬ PlacesDiffer first second := by
  rintro ⟨hdiffer, -⟩
  rw [hfirst, hsecond] at hdiffer
  exact hdiffer _ List.mem_cons_self _ List.mem_cons_self rfl

/-- The same transaction, by what it says. -/
def SameTransaction (t t' : Transaction) : Prop :=
  t.date = t'.date ∧ t.narration = t'.narration ∧ t.debit = t'.debit ∧ t.credit = t'.credit

/-- A database with one client. -/
def sampleDb : Db where
  clients := Table.empty.insert (fun id => ⟨id, "Client A", "Ledger A"⟩) (fun _ => rfl)
  importHistory := .empty
  transactions := .empty
  importHistory_client := by simp [Table.empty]
  transactions_client := by simp [Keyed.empty]
  transactions_import := noTransactions_import

/-- The `n`th row of an Excel sheet below its header. -/
def sampleRow (n : ℕ) (date narration : String) (debit : ℚ) : ParsedTransaction where
  place := .excel (n + 1) n
  txn := { Transaction.new (RowId.excel (n + 1) n).render with
    date := date, narration := narration, debit := some (.finite debit) }
  id_eq := rfl

def january : ParseResult :=
  ⟨[sampleRow 0 "05/01/2024" "RENT JANUARY" 15000], "HDFC Bank", "50100123456789"⟩

def february : ParseResult :=
  ⟨[sampleRow 0 "09/02/2024" "SALARY FEBRUARY" 42000], "HDFC Bank", "50100123456789"⟩

/-- The rows that follow those of `january` in the same sheet. -/
def secondHalf : ParseResult :=
  ⟨[sampleRow 1 "19/01/2024" "INSURANCE" 2000, sampleRow 2 "25/01/2024" "TELEPHONE" 900],
    "HDFC Bank", "50100123456789"⟩

theorem january_and_secondHalf_coexist :
    PlacesDiffer january secondHalf ∧
      Coexist sampleDb 1 "january.xlsx" january "january_2.xlsx" secondHalf := by
  have hplaces : PlacesDiffer january secondHalf := by
    unfold PlacesDiffer
    decide
  exact ⟨hplaces, (statements_coexist_iff sampleDb 1 "january.xlsx" january "january_2.xlsx"
    secondHalf ⟨⟨1, "Client A", "Ledger A"⟩, by decide, rfl⟩).mpr hplaces⟩

/-- The salary of February replaces the rent of January. -/
theorem february_replaces_january :
    ¬ ∀ (db : Db) clientId fileName first fileName' second,
      (∃ c ∈ db.clients.rows, c.id = clientId) →
      (∀ t ∈ first.txns, ∀ t' ∈ second.txns, ¬ SameTransaction t t') →
      Coexist db clientId fileName first fileName' second := by
  intro h
  have hdiffer : ∀ t ∈ january.txns, ∀ t' ∈ february.txns, ¬ SameTransaction t t' := by
    unfold SameTransaction
    decide
  exact absurd (h sampleDb 1 "january.xlsx" january "february.xlsx" february
    ⟨⟨1, "Client A", "Ledger A"⟩, by decide, rfl⟩ hdiffer) (by decide)

end Desktop
