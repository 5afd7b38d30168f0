import BankStatementProcessor.Desktop.Properties.ReconciledOnce
import BankStatementProcessor.Desktop.ReconciliationFiles
import BankStatementProcessor.Infra.Csv

/-!
# The report of a reconciliation can be read back

Every field of a row stands between quotes, whichever of the three kinds of rows it is in.
-/

namespace Desktop

open Infra

/-- The names of the nine fields. -/
def reportFields : List String :=
  ["Match Status", "Bank Date", "Bank Amount", "Bank Narration", "Voucher Date",
    "Voucher Amount", "Voucher Narration", "Voucher No", "Confidence"]

/-- A report of these entries and vouchers. -/
structure ReconReport.Over (report : ReconReport) (bank : List BankEntry)
    (vouchers : List Voucher) : Prop where
  pairs : ∀ m ∈ report.pairs, m.bankIdx < bank.length ∧ m.voucherIdx < vouchers.length
  unmatchedBank : ∀ i ∈ report.unmatchedBank, i < bank.length
  unmatchedVouchers : ∀ i ∈ report.unmatchedVouchers, i < vouchers.length

/-- The reports that are written are such reports. -/
theorem reconcile_over (u : Unicode) (fl : F64 → F64) (bank : List BankEntry)
    (vouchers : List Voucher) (cfg : ReconConfig) :
    (reconcile u fl bank vouchers cfg).Over bank vouchers where
  pairs := by
    intro m hm
    obtain ⟨c, hc, rfl⟩ := List.mem_map.mp hm
    have hmem := (Assignment.taken_sublist _).subset hc
    rw [List.mem_mergeSort] at hmem
    exact (scored_of_mem_candidates hmem).lt_length
  unmatchedBank := fun i hi => List.mem_range.mp (List.mem_of_mem_filter hi)
  unmatchedVouchers := fun i hi => List.mem_range.mp (List.mem_of_mem_filter hi)

/-! ## The lines -/

theorem toList_csvField (s : String) : (csvField s).toList = Csv.quote s.toList := by
  simp [csvField, Csv.quote]

/-- A line of the report, as it is read. -/
def ReadsAs (line : String) (record : List String) : Prop :=
  Csv.WrittenRecord line.toList (record.map String.toList)

theorem readsAs_csvLine {fields : List String} (hne : fields ≠ []) :
    ReadsAs (csvLine fields) fields := by
  obtain ⟨field, fields, rfl⟩ := List.exists_cons_of_ne_nil hne
  have hquoted : ∀ fs : List String,
      List.Forall₂ Csv.Written ((fs.map csvField).map String.toList) (fs.map String.toList) := by
    intro fs
    rw [List.map_map, List.forall₂_map_left_iff, List.forall₂_map_right_iff, List.forall₂_same]
    intro s _
    rw [Function.comp_apply, toList_csvField]
    exact Csv.Written.quoted _
  have hline : (csvLine (field :: fields)).toList =
      [','].intercalate (((field :: fields).map csvField).map String.toList) :=
    String.toList_intercalate
  refine ⟨?_, _, hquoted (field :: fields), hline.symm⟩
  rw [hline]
  cases fields with
  | nil => simp [toList_csvField, Csv.quote]
  | cons field' fields => simp [List.intercalate_cons_cons, toList_csvField, Csv.quote]

theorem readsAs_reportHeader : ReadsAs reportHeader reportFields := by
  have hplain : ∀ name ∈ reportFields.map String.toList, Csv.IsPlain name := by decide +kernel
  refine ⟨by decide +kernel, reportFields.map String.toList, ?_, by decide +kernel⟩
  rw [List.forall₂_same]
  exact fun name hname => Csv.Written.plain (hplain name hname)

theorem decode_of_readsAs {lines : List String} {records : List (List String)}
    (h : List.Forall₂ ReadsAs lines records) :
    Csv.decode ("\n".intercalate lines).toList = some (records.map (List.map String.toList)) := by
  have hwritten : List.Forall₂ Csv.WrittenRecord (lines.map String.toList)
      (records.map (List.map String.toList)) := by
    rw [List.forall₂_map_left_iff, List.forall₂_map_right_iff]
    exact h
  rw [String.toList_intercalate]
  exact Csv.decode_lines hwritten

/-! ## The rows -/

/-- Where each row has its line, all lines are there, and read as the records of the rows. -/
theorem mapM_reads {α : Type*} (line : α → Option String) (IsRecord : α → List String → Prop)
    (xs : List α)
    (h : ∀ x ∈ xs, ∃ l record, line x = some l ∧ ReadsAs l record ∧ IsRecord x record) :
    ∃ lines records, xs.mapM line = some lines ∧ List.Forall₂ ReadsAs lines records ∧
      List.Forall₂ IsRecord xs records := by
  induction xs with
  | nil => exact ⟨[], [], rfl, .nil, .nil⟩
  | cons x xs ih =>
    obtain ⟨l, record, hl, hreads, hrecord⟩ := h x List.mem_cons_self
    obtain ⟨lines, records, hlines, hall, hrecords⟩ :=
      ih fun y hy => h y (List.mem_cons_of_mem _ hy)
    refine ⟨l :: lines, record :: records, ?_, .cons hreads hall, .cons hrecord hrecords⟩
    simp [List.mapM_cons, hl, hlines]

/-- The record of a pair. -/
def IsMatchedRecord (fl : F64 → F64) (bank : List BankEntry) (vouchers : List Voucher)
    (m : MatchPair) (record : List String) : Prop :=
  ∃ b v, bank[m.bankIdx]? = some b ∧ vouchers[m.voucherIdx]? = some v ∧
    record = [m.status.asStr, b.date, F64.fixed 2 b.amount, b.narration, v.date,
      F64.fixed 2 v.amount, v.narration, v.voucherNo, confidence fl m.score]

/-- The record of a transaction without a voucher. -/
def IsUnmatchedBankRecord (bank : List BankEntry) (bi : ℕ) (record : List String) : Prop :=
  ∃ b, bank[bi]? = some b ∧
    record = ["UNMATCHED-BANK", b.date, F64.fixed 2 b.amount, b.narration, "", "", "", "", "0%"]

/-- The record of a voucher without a transaction. -/
def IsUnmatchedVoucherRecord (vouchers : List Voucher) (vi : ℕ) (record : List String) : Prop :=
  ∃ v, vouchers[vi]? = some v ∧
    record = ["MISSING-IN-BANK", "", "", "", v.date, F64.fixed 2 v.amount, v.narration,
      v.voucherNo, "0%"]

/-- **What is written is read back as the header, the pairs, the transactions left over and the
vouchers left over, each one record with its texts as they were.** -/
theorem report_reads_back (fl : F64 → F64) {bank : List BankEntry} {vouchers : List Voucher}
    {report : ReconReport} (h : report.Over bank vouchers) :
    ∃ text pairs unmatchedBank unmatchedVouchers,
      reportToCsv fl bank vouchers report = some text ∧
      Csv.decode text.toList =
        some ((reportFields :: pairs ++ unmatchedBank ++ unmatchedVouchers).map
          (List.map String.toList)) ∧
      List.Forall₂ (IsMatchedRecord fl bank vouchers) report.pairs pairs ∧
      List.Forall₂ (IsUnmatchedBankRecord bank) report.unmatchedBank unmatchedBank ∧
      List.Forall₂ (IsUnmatchedVoucherRecord vouchers) report.unmatchedVouchers
        unmatchedVouchers := by
  obtain ⟨lines₁, pairs, hlines₁, hreads₁, hpairs⟩ := mapM_reads
    (fun m : MatchPair => do
      let b ← bank[m.bankIdx]?
      let v ← vouchers[m.voucherIdx]?
      return matchedLine fl m b v)
    (IsMatchedRecord fl bank vouchers) report.pairs (by
      intro m hm
      obtain ⟨hbank, hvoucher⟩ := h.pairs m hm
      have hb := List.getElem?_eq_getElem hbank
      have hv := List.getElem?_eq_getElem hvoucher
      refine ⟨_, _, ?_, readsAs_csvLine (List.cons_ne_nil _ _), _, _, hb, hv, rfl⟩
      rw [hb, hv]
      rfl)
  obtain ⟨lines₂, unmatchedBank, hlines₂, hreads₂, hunmatchedBank⟩ := mapM_reads
    (fun bi => (bank[bi]?).map unmatchedBankLine)
    (IsUnmatchedBankRecord bank) report.unmatchedBank (by
      intro bi hbi
      have hb := List.getElem?_eq_getElem (h.unmatchedBank bi hbi)
      refine ⟨_, _, ?_, readsAs_csvLine (List.cons_ne_nil _ _), _, hb, rfl⟩
      rw [hb]
      rfl)
  obtain ⟨lines₃, unmatchedVouchers, hlines₃, hreads₃, hunmatchedVouchers⟩ := mapM_reads
    (fun vi => (vouchers[vi]?).map unmatchedVoucherLine)
    (IsUnmatchedVoucherRecord vouchers) report.unmatchedVouchers (by
      intro vi hvi
      have hv := List.getElem?_eq_getElem (h.unmatchedVouchers vi hvi)
      refine ⟨_, _, ?_, readsAs_csvLine (List.cons_ne_nil _ _), _, hv, rfl⟩
      rw [hv]
      rfl)
  refine ⟨"\n".intercalate ([reportHeader] ++ lines₁ ++ lines₂ ++ lines₃), pairs, unmatchedBank,
    unmatchedVouchers, ?_, ?_, hpairs, hunmatchedBank, hunmatchedVouchers⟩
  · rw [reportToCsv, hlines₁, hlines₂, hlines₃]
    rfl
  · have hall : List.Forall₂ ReadsAs ([reportHeader] ++ lines₁ ++ lines₂ ++ lines₃)
        ([reportFields] ++ pairs ++ unmatchedBank ++ unmatchedVouchers) :=
      List.rel_append (List.rel_append (List.rel_append
        (.cons readsAs_reportHeader .nil) hreads₁) hreads₂) hreads₃
    exact decode_of_readsAs hall

/-- A transaction and a voucher with all that a field without quotes may not hold. -/
def quotedEntry : BankEntry := ⟨"01/04/2025", .finite 1500, "NEFT \"ACME, LTD\"\nMUMBAI", ""⟩
def quotedVoucher : Voucher := ⟨"01/04/2025", .finite 1500, "Acme, \"invoice 7\"", "12"⟩

def quotedReport : ReconReport := ⟨[⟨0, 0, .finite (19 / 20), .matched⟩], [], []⟩

theorem quotedReport_reads_back :
    quotedReport.Over [quotedEntry] [quotedVoucher] ∧
      ∃ text pairs unmatchedBank unmatchedVouchers,
        reportToCsv id [quotedEntry] [quotedVoucher] quotedReport = some text ∧
        Csv.decode text.toList =
          some ((reportFields :: pairs ++ unmatchedBank ++ unmatchedVouchers).map
            (List.map String.toList)) ∧
        List.Forall₂ (IsMatchedRecord id [quotedEntry] [quotedVoucher]) quotedReport.pairs pairs ∧
        List.Forall₂ (IsUnmatchedBankRecord [quotedEntry]) quotedReport.unmatchedBank
          unmatchedBank ∧
        List.Forall₂ (IsUnmatchedVoucherRecord [quotedVoucher]) quotedReport.unmatchedVouchers
          unmatchedVouchers := by
  have h : quotedReport.Over [quotedEntry] [quotedVoucher] := ⟨by decide, by decide, by decide⟩
  exact ⟨h, report_reads_back id h⟩

end Desktop
