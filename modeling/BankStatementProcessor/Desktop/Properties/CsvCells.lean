import BankStatementProcessor.Desktop.Export.AccountingFiles
import BankStatementProcessor.Infra.CsvLines

/-!
# The cells of the accounting files

A cell is quoted where it holds a comma, a quote or a line feed, and not where it holds only a
carriage return, at which a record ends too.
-/

namespace Desktop.Export

open Infra

/-! ## Cells -/

/-- A cell that holds a carriage return and nothing for which it is quoted. -/
def IsSplit (v : String) : Prop :=
  '\r' ∈ v.toList ∧ ',' ∉ v.toList ∧ '"' ∉ v.toList ∧ '\n' ∉ v.toList

instance : DecidablePred IsSplit := fun v =>
  inferInstanceAs (Decidable ('\r' ∈ v.toList ∧ ',' ∉ v.toList ∧ '"' ∉ v.toList ∧ '\n' ∉ v.toList))

section

variable {v : String} {cells : List String} {rest : List Char}

theorem replaceChar_quote (s : List Char) :
    '"' :: replaceChar '"' "\"\"" s ++ ['"'] = Csv.quote s := rfl

theorem csvVal_written (h : ¬IsSplit v) : Csv.Written (csvVal v) v.toList := by
  unfold csvVal
  split
  · rw [replaceChar_quote]
    exact .quoted _
  · next hplain =>
    simp only [Bool.or_eq_true, List.contains_iff_mem, not_or] at hplain
    obtain ⟨⟨hcomma, hquote⟩, hlf⟩ := hplain
    refine .plain fun c hc => ⟨?_, ?_, ?_, ?_⟩
    · exact fun heq => hquote (heq ▸ hc)
    · exact fun heq => hcomma (heq ▸ hc)
    · exact fun heq => hlf (heq ▸ hc)
    · exact fun heq => h ⟨heq ▸ hc, hcomma, hquote, hlf⟩

theorem csvVal_split (h : IsSplit v) : ∃ before after, csvVal v = before ++ '\r' :: after ∧
    v.toList = before ++ '\r' :: after ∧ Csv.IsPlain before := by
  obtain ⟨hreturn, hcomma, hquote, hlf⟩ := h
  obtain ⟨before, after, hsplit, hfirst⟩ := List.eq_append_cons_of_mem hreturn
  refine ⟨before, after, ?_, hsplit, fun c hc => ?_⟩
  · rw [csvVal, if_neg, hsplit]
    simp only [Bool.or_eq_true, List.contains_iff_mem, not_or]
    exact ⟨⟨hcomma, hquote⟩, hlf⟩
  · have hmem : c ∈ v.toList := hsplit ▸ List.mem_append_left _ hc
    exact ⟨fun heq => hquote (heq ▸ hmem), fun heq => hcomma (heq ▸ hmem),
      fun heq => hlf (heq ▸ hmem), fun heq => hfirst (heq ▸ hc)⟩

/-! ## Rows -/

/-- A text that ends a record, with the records behind it. -/
def EndsRecord (rest : List Char) (behind : Option (List (List Csv.Field))) : Prop :=
  ∀ spot : Csv.Spot, spot.AtEnd → ∀ record field,
    Csv.readFrom spot record field rest = behind.map ((record ++ [field]) :: ·)

theorem endsRecord_nil : EndsRecord [] (some []) := fun _ h _ _ => Csv.readFrom_nil h

theorem endsRecord_lineBreak (h : rest ≠ []) :
    EndsRecord ('\r' :: '\n' :: rest) (Csv.read rest) :=
  fun _ hspot _ _ => Csv.readFrom_lineBreak hspot h

/-- A reader that goes on behind `record` reads a row as its cells just where no cell is split. -/
theorem readFrom_csvRow_iff {behind : Option (List (List Csv.Field))}
    (records : List (List Csv.Field)) (hend : EndsRecord rest behind) (hne : cells ≠ [])
    (record : List Csv.Field) :
    Csv.readFrom .opening record [] (csvRow cells ++ rest) =
        some ((record ++ cells.map String.toList) :: records) ↔
      (∀ c ∈ cells, ¬IsSplit c) ∧ behind = some records := by
  induction cells generalizing record with
  | nil => exact absurd rfl hne
  | cons v cells ih =>
    obtain ⟨more, hmore, hrow⟩ : ∃ more, (cells = [] → more = rest) ∧
        csvRow (v :: cells) ++ rest = csvVal v ++ more ∧
          (cells ≠ [] → more = ',' :: (csvRow cells ++ rest)) := by
      cases cells with
      | nil => exact ⟨rest, fun _ => rfl, by simp [csvRow], fun h => absurd rfl h⟩
      | cons v' cells =>
        exact ⟨',' :: (csvRow (v' :: cells) ++ rest), nofun, by
          simp [csvRow, List.intercalate_cons_cons], fun _ => rfl⟩
    rw [hrow.1, List.map_cons, List.forall_mem_cons]
    by_cases hsplit : IsSplit v
    · -- the record that is read ends within the cell
      obtain ⟨before, after, hval, htext, hplain⟩ := csvVal_split hsplit
      refine iff_of_false ?_ fun h => h.1.1 hsplit
      rw [hval, List.append_assoc, List.cons_append, Csv.readFrom_split hplain]
      intro hread
      obtain ⟨_, -, heq⟩ := Option.map_eq_some_iff.mp hread
      have hrecord := List.append_cancel_left (List.cons.inj heq).1
      have hlen := congrArg List.length (List.cons.inj hrecord).1
      rw [htext, List.length_append, List.length_cons] at hlen
      omega
    · obtain ⟨spot, hspot, hread⟩ := Csv.readFrom_written (csvVal_written hsplit)
      rw [hread]
      by_cases hnil : cells = []
      · rw [hmore hnil, hend spot hspot, hnil, Option.map_eq_some_iff]
        simp [hsplit]
      · have happend : record ++ v.toList :: cells.map String.toList =
            record ++ [v.toList] ++ cells.map String.toList := by simp
        rw [hrow.2 hnil, Csv.readFrom_comma hspot, happend, ih hnil]
        simp [hsplit]

theorem csvRow_ne_nil (h : 2 ≤ cells.length) : csvRow cells ≠ [] := by
  match cells, h with
  | v :: v' :: cells, _ => simp [csvRow, List.intercalate_cons_cons]

/-- A file of rows is read as its rows just where no cell is split. -/
theorem read_csvRows_iff {rows : List (List String)} (hne : rows ≠ [])
    (hlen : ∀ row ∈ rows, 2 ≤ row.length) :
    Csv.read (['\r', '\n'].intercalate (rows.map csvRow)) =
        some (rows.map (List.map String.toList)) ↔ ∀ row ∈ rows, ∀ c ∈ row, ¬IsSplit c := by
  induction rows with
  | nil => exact absurd rfl hne
  | cons row rows ih =>
    have hrow : row ≠ [] := by
      rintro rfl
      exact absurd (hlen [] List.mem_cons_self) (by decide)
    rw [List.forall_mem_cons]
    cases rows with
    | nil =>
      have hlast := readFrom_csvRow_iff [] endsRecord_nil hrow []
      simpa [Csv.read] using hlast
    | cons row' rows =>
      have hbehind : ['\r', '\n'].intercalate ((row' :: rows).map csvRow) ≠ [] := by
        have hfirst := csvRow_ne_nil (hlen row' (by simp))
        cases rows <;> simp [List.intercalate_cons_cons, hfirst]
      have hfirst := readFrom_csvRow_iff ((row' :: rows).map (List.map String.toList))
        (endsRecord_lineBreak hbehind) hrow []
      rw [ih (List.cons_ne_nil _ _) fun r hr => hlen r (List.mem_cons_of_mem _ hr)] at hfirst
      rw [← hfirst, Csv.read]
      simp [List.intercalate_cons_cons]

end

/-! ## Files -/

inductive CsvFile where
  | zoho
  | quickBooks
  | odoo
  | generic
deriving DecidableEq, Repr

namespace CsvFile

def text (file : CsvFile) (txns : List Transaction) (opts : AccountingOpts) : List Char :=
  match file with
  | .zoho => genZohoText txns opts
  | .quickBooks => genQuickbooksText txns opts
  | .odoo => genOdooText txns opts
  | .generic => genGenericCsvText txns opts

def header : CsvFile → List String
  | .zoho => ZohoRow.header
  | .quickBooks => QuickBooksRow.header
  | .odoo => OdooRow.header
  | .generic => GenericRow.header

/-- The records of a file, by their cells. -/
def records (file : CsvFile) (txns : List Transaction) (opts : AccountingOpts) :
    List (List String) :=
  match file with
  | .zoho => (genZoho txns opts).map ZohoRow.cells
  | .quickBooks => (genQuickbooks txns opts).map QuickBooksRow.cells
  | .odoo => (genOdoo txns opts).map OdooRow.cells
  | .generic => (genGenericCsv txns opts).map GenericRow.cells

/-- The records of one transaction. -/
def perTransaction : CsvFile → ℕ
  | .generic => 1
  | _ => 2

section

variable (file : CsvFile) (txns : List Transaction) (opts : AccountingOpts)

theorem text_eq : file.text txns opts = csvFile (file.header :: file.records txns opts) := by
  cases file <;> rfl

theorem two_le_length : ∀ row ∈ file.header :: file.records txns opts, 2 ≤ row.length := by
  refine List.forall_mem_cons.mpr ⟨by cases file <;> decide, ?_⟩
  cases file with
  | zoho => exact List.forall_mem_map.mpr fun r _ => by simp [ZohoRow.cells]
  | quickBooks => exact List.forall_mem_map.mpr fun r _ => by simp [QuickBooksRow.cells]
  | odoo => exact List.forall_mem_map.mpr fun r _ => by simp [OdooRow.cells]
  | generic => exact List.forall_mem_map.mpr fun r _ => by simp [GenericRow.cells]

theorem header_not_split : ∀ c ∈ file.header, ¬IsSplit c := by
  cases file <;> decide +kernel

theorem length_records :
    (file.records txns opts).length = file.perTransaction * (filterTxns txns opts).length := by
  have hpairs : ∀ {α β : Type} (f : α → List β) (l : List α), (∀ a, (f a).length = 2) →
      (l.flatMap f).length = 2 * l.length := by
    intro α β f l hf
    simp [List.length_flatMap, hf, Nat.mul_comm]
  cases file with
  | zoho =>
    rw [records, List.length_map, genZoho, hpairs _ _ fun _ => rfl, List.length_zipIdx]
    rfl
  | quickBooks =>
    rw [records, List.length_map, genQuickbooks, hpairs _ _ fun _ => rfl, List.length_zipIdx]
    rfl
  | odoo =>
    rw [records, List.length_map, genOdoo, hpairs _ _ fun _ => rfl]
    rfl
  | generic =>
    rw [records, List.length_map, genGenericCsv, List.length_map, perTransaction, Nat.one_mul]

end

end CsvFile

/-- What a spreadsheet reads, without the mark of the byte order. -/
def readCsv (text : List Char) : Option (List (List Csv.Field)) :=
  Csv.read (if text.head? = some '\uFEFF' then text.tail else text)

/-- **A row is read as its cells, and a file as its header and its records, just where no cell
has a carriage return and nothing for which it is quoted.** -/
theorem csv_decodes_iff (cells : List String) (file : CsvFile) (txns : List Transaction)
    (opts : AccountingOpts) :
    (Csv.read (csvRow cells) = some [cells.map String.toList] ↔
      cells ≠ [] ∧ ∀ c ∈ cells, ¬IsSplit c) ∧
    (readCsv (file.text txns opts) =
        some ((file.header :: file.records txns opts).map (List.map String.toList)) ↔
      ∀ record ∈ file.records txns opts, ∀ c ∈ record, ¬IsSplit c) ∧
    (file.records txns opts).length = file.perTransaction * (filterTxns txns opts).length := by
  refine ⟨?_, ?_, file.length_records txns opts⟩
  · by_cases hne : cells = []
    · rw [hne]
      exact iff_of_false (by decide +kernel) fun h => h.1 rfl
    · have hrow := readFrom_csvRow_iff [] endsRecord_nil hne []
      rw [List.append_nil, List.nil_append] at hrow
      rw [Csv.read, hrow]
      simp [hne]
  · have hread : readCsv (file.text txns opts) = Csv.read (['\r', '\n'].intercalate
        ((file.header :: file.records txns opts).map csvRow)) := by
      rw [file.text_eq txns opts]
      rfl
    rw [hread, read_csvRows_iff (List.cons_ne_nil _ _) (file.two_le_length txns opts),
      List.forall_mem_cons]
    exact and_iff_right file.header_not_split

/-- A narration with a carriage return is cut there. -/
theorem carriage_return_splits : Csv.read (csvRow ["NEFT\rACME", "R1"]) ≠
    some [["NEFT\rACME", "R1"].map String.toList] := by
  decide +kernel

end Desktop.Export
