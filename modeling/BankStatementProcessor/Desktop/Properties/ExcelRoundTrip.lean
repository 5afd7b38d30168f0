import BankStatementProcessor.Desktop.Export.Excel
import BankStatementProcessor.Desktop.Parser.DateParser
import BankStatementProcessor.Desktop.Properties.StatementRows
import BankStatementProcessor.Desktop.Reimport
import BankStatementProcessor.Infra.DisplayText
import BankStatementProcessor.Infra.Words

/-!
# The exported file, read back

What is read of the row of a transaction, when this is the transaction again, and when the row
that is stored for it takes the place of the one it came from.
-/

namespace Desktop

open Infra Desktop.Export Desktop.Parser

/-! ## Cells -/

def IsTrimmed (s : String) : Prop := trim s.toList = s.toList

instance : DecidablePred IsTrimmed := fun s => inferInstanceAs (Decidable (trim s.toList = s.toList))

theorem IsTrimmed.cellText_eq {s : String} (h : IsTrimmed s) : cellText s = s := by
  rw [cellText, h, String.ofList_toList]

theorem sheetCell_of_shown {cells : List SheetCell} {row : List String}
    (h : List.Forall₂ Sheet.ShownAs cells row) {i : ℕ} {cell : SheetCell}
    (hcell : cells[i]? = some cell) :
    ∃ shown, Sheet.ShownAs cell shown ∧ sheetCell (row.map cellText) (some i) = cellText shown := by
  obtain ⟨hi, rfl⟩ := List.getElem?_eq_some_iff.mp hcell
  have hi' : i < row.length := h.length_eq ▸ hi
  refine ⟨row[i], List.forall₂_iff_get.mp h |>.2 i hi hi', ?_⟩
  simp [sheetCell, List.getElem?_eq_getElem hi']

theorem sheetCell_text {cells : List SheetCell} {row : List String}
    (h : List.Forall₂ Sheet.ShownAs cells row) {i : ℕ} {s : String}
    (hcell : cells[i]? = some (.text s)) :
    sheetCell (row.map cellText) (some i) = cellText s := by
  obtain ⟨shown, hshown, heq⟩ := sheetCell_of_shown h hcell
  rw [heq, show shown = s from hshown]

/-! ## Amounts -/

/-- A double that is a number. -/
def IsAmount (x : F64) : Prop := x.isFinite = true ∧ F64.IsExact x

/-- What a blank cell or that of an amount is read as. -/
theorem parseAmt_amountCell {x : Option F64} (hx : ∀ v ∈ x, IsAmount v) {shown : String}
    (h : Sheet.ShownAs (amountCell x) shown) :
    parseAmt (cellText shown) = x.filter fun v => v ≠ .finite 0 := by
  cases x with
  | none =>
    obtain rfl : shown = "" := h
    decide +kernel
  | some v =>
    obtain ⟨hfinite, hexact⟩ := hx v rfl
    obtain rfl : shown = v.display := h hfinite
    cases v with
    | nan => cases hfinite
    | infinite negative => cases hfinite
    | finite q =>
      have hchars : ∀ c ∈ (F64.display (.finite q)).toList,
          c.isDigit = true ∨ c = '.' ∨ c = '-' := fun c hc => F64.mem_display_finite hc
      have htrim : IsTrimmed (F64.display (.finite q)) := by
        refine trim_eq_self fun c hc => ?_
        rcases hchars c hc with hdigit | rfl | rfl
        · exact not_isSpace_of_isDigit hdigit
        · decide
        · decide
      have hclean : (F64.display (.finite q)).toList.filter
          (fun c => c.isDigit || c == '.' || c == '-') = (F64.display (.finite q)).toList := by
        refine List.filter_eq_self.mpr fun c hc => ?_
        rcases hchars c hc with hdigit | rfl | rfl
        · simp [hdigit]
        · rfl
        · rfl
      have hne : (F64.display (.finite q)).isEmpty = false := by
        have := F64.display_ne_empty (.finite q)
        simpa using this
      rw [htrim.cellText_eq, parseAmt, hne, if_neg Bool.false_ne_true]
      simp only [hclean, F64.parse_display hexact]
      refine congrArg (fun p => Option.filter p _) (funext fun v => ?_)
      by_cases hv : v = .finite 0 <;> simp [F64.eqv, hv]

/-! ## Tags -/

/-- A tag that can stand between semicolons. -/
structure IsTag (tag : String) : Prop where
  ne : tag ≠ ""
  trimmed : IsTrimmed tag
  single : ';' ∉ tag.toList

theorem isTag_of_mem_readTags {s tag : String} (h : tag ∈ readTags s) : IsTag tag := by
  simp only [readTags, List.mem_map, List.mem_filter] at h
  obtain ⟨_, ⟨⟨piece, hpiece, rfl⟩, hne⟩, rfl⟩ := h
  refine ⟨fun hempty => ?_, ?_, fun hmem => ?_⟩
  · rw [← String.toList_inj, String.toList_ofList] at hempty
    rw [hempty] at hne
    cases hne
  · rw [IsTrimmed, String.toList_ofList, trim_trim]
  · rw [String.toList_ofList] at hmem
    exact not_mem_of_mem_splitOn piece hpiece (trim_sublist.subset hmem)

/-- The tags of a joined text. -/
theorem splitOn_joined {p : List Char} {ps : List (List Char)}
    (h : ∀ q ∈ p :: ps, ';' ∉ q) :
    ([';', ' '].intercalate (p :: ps)).splitOn ';' = p :: ps.map (' ' :: ·) := by
  induction ps generalizing p with
  | nil =>
    rw [List.intercalate_singleton]
    exact List.splitOn_eq_singleton (h p List.mem_cons_self)
  | cons q ps ih =>
    have ih := ih fun r hr => h r (List.mem_cons_of_mem _ hr)
    rw [List.intercalate_cons_cons, List.append_assoc, List.cons_append,
      List.splitOn_append_cons_self_of_not_mem (h p List.mem_cons_self), List.singleton_append,
      List.splitOn_cons_eq_if_modifyHead, if_neg (by decide), ih]
    rfl

theorem readTags_eq_iff (tags : List String) :
    readTags (cellText ("; ".intercalate tags)) = tags ↔ ∀ tag ∈ tags, IsTag tag := by
  constructor
  · intro h tag htag
    rw [← h] at htag
    exact isTag_of_mem_readTags htag
  · intro h
    have hparts : ∀ p ∈ tags.map String.toList, p ≠ [] ∧ trim p = p := by
      intro p hp
      obtain ⟨tag, htag, rfl⟩ := List.mem_map.mp hp
      exact ⟨by simpa using (h tag htag).ne, (h tag htag).trimmed⟩
    have htext : (cellText ("; ".intercalate tags)).toList =
        [';', ' '].intercalate (tags.map String.toList) := by
      rw [cellText, String.toList_ofList, String.toList_intercalate]
      exact trim_intercalate hparts
    rw [readTags, htext]
    cases tags with
    | nil => decide +kernel
    | cons tag tags =>
      have hsingle : ∀ q ∈ (tag :: tags).map String.toList, ';' ∉ q := by
        intro q hq
        obtain ⟨tag', htag', rfl⟩ := List.mem_map.mp hq
        exact (h tag' htag').single
      have htrimmed : ((tag.toList :: (tags.map String.toList).map (' ' :: ·)).map trim) =
          (tag :: tags).map String.toList := by
        rw [List.map_cons, List.map_map, (hparts _ List.mem_cons_self).2, List.map_cons]
        refine congrArg (tag.toList :: ·) ?_
        refine (List.map_congr_left fun p hp => ?_).trans (List.map_id _)
        exact (hparts p (List.mem_cons_of_mem _ hp)).2
      rw [List.map_cons, splitOn_joined hsingle, htrimmed, List.filter_eq_self.mpr, List.map_map]
      · exact (List.map_congr_left fun tag _ => String.ofList_toList).trans (List.map_id _)
      · intro p hp
        simpa using (hparts p hp).1
/-! ## Types and statuses -/

theorem readType_display_iff (v : VoucherType) : readType v.display = v ↔
    v = .payment ∨ v = .receipt ∨ v = .contra ∨ v = .journal := by
  cases v <;> decide

/-- The status is one that the reader looks for, or the one it takes for a row without a
classification. -/
theorem readStatus_display_iff (s : TransactionStatus) (vendor head : String) :
    readStatus s.display vendor head = s ↔
      s = .suspense ∨ s = .classified ∨ s = .needsReview ∨
        s = .unreviewed ∧ vendor = "" ∧ head = "" := by
  have hother : ∀ s' : TransactionStatus, s' = .manual ∨ s' = .unreviewed →
      readStatus s'.display vendor head =
        if vendor.isEmpty && head.isEmpty then .unreviewed else .classified := by
    rintro s' (rfl | rfl) <;> rfl
  cases s with
  | suspense => exact iff_of_true rfl (Or.inl rfl)
  | classified => exact iff_of_true rfl (Or.inr (Or.inl rfl))
  | needsReview => exact iff_of_true rfl (Or.inr (Or.inr (Or.inl rfl)))
  | manual =>
    rw [hother _ (Or.inl rfl)]
    refine iff_of_false (fun heq => ?_) (by simp)
    split at heq <;> cases heq
  | unreviewed =>
    rw [hother _ (Or.inr rfl)]
    by_cases hblank : vendor = "" ∧ head = ""
    · simp [hblank]
    · have hset : (vendor.isEmpty && head.isEmpty) = false := by
        rw [← Bool.not_eq_true]
        simpa using hblank
      simp [hset, hblank]

theorem cellText_type (v : VoucherType) : cellText v.display = v.display := by
  cases v <;> decide +kernel

theorem lowered_status (u : Unicode) (s : TransactionStatus) :
    lowered u (cellText s.display) = s.display := by
  have hascii : (cellText s.display).toList.all isAscii = true := by cases s <;> decide +kernel
  rw [lowered, u.toLowercase_ascii _ hascii]
  cases s <;> decide +kernel

/-! ## One row -/

/-- The fields that a row is to keep. -/
structure SameFields (t p : Transaction) : Prop where
  date : p.date = t.date
  narration : p.narration = t.narration
  reference : p.reference = t.reference
  debit : p.debit = t.debit
  credit : p.credit = t.credit
  balance : p.balance = t.balance
  vendor : p.vendor = t.vendor
  accountHead : p.accountHead = t.accountHead
  txnType : p.txnType = t.txnType
  status : p.status = t.status
  tags : p.tags = t.tags

/-- A transaction with trimmed texts, and with doubles for amounts. -/
structure IsClean (t : Transaction) : Prop where
  date : IsTrimmed t.date
  narration : IsTrimmed t.narration
  reference : IsTrimmed t.reference
  vendor : IsTrimmed t.vendor
  accountHead : IsTrimmed t.accountHead
  debit : ∀ v ∈ t.debit, IsAmount v
  credit : ∀ v ∈ t.credit, IsAmount v
  balance : ∀ v ∈ t.balance, IsAmount v

/-- A transaction whose row is read as it was. -/
structure IsKept (t : Transaction) : Prop where
  named : t.date ≠ "" ∨ t.narration ≠ ""
  debit : t.debit ≠ some (.finite 0)
  credit : t.credit ≠ some (.finite 0)
  balance : t.balance ≠ some (.finite 0)
  txnType : t.txnType = .payment ∨ t.txnType = .receipt ∨ t.txnType = .contra ∨
    t.txnType = .journal
  status : t.status = .suspense ∨ t.status = .classified ∨ t.status = .needsReview ∨
    t.status = .unreviewed ∧ t.vendor = "" ∧ t.accountHead = ""
  tags : ∀ tag ∈ t.tags, IsTag tag

theorem filter_ne_zero_eq_iff {x : Option F64} :
    (x.filter fun v => v ≠ .finite 0) = x ↔ x ≠ some (.finite 0) := by
  cases x with
  | none => simp
  | some v => by_cases hv : v = .finite 0 <;> simp [Option.filter, hv]

/-- The columns of the file that is exported. -/
def exportedColumns : SheetColumns where
  date := 0
  narration := 1
  reference := some 2
  debit := some 3
  credit := some 4
  balance := some 5
  vendor := 6
  head := 7
  type := some 11
  status := some 12
  tags := some 13
  confidence := some 14
  bank := some 18
  account := some 19

theorem sheetColumns_txnHeaders (u : Unicode) :
    sheetColumns ((txnHeaders.map cellText).map (lowered u)) = .ok exportedColumns := by
  have hascii : ∀ s ∈ txnHeaders.map cellText, s.toList.all isAscii = true := by decide +kernel
  have hlowered : (txnHeaders.map cellText).map (lowered u) =
      (txnHeaders.map cellText).map (lowered .ascii) :=
    List.map_congr_left fun s hs => by
      rw [lowered, lowered, u.toLowercase_ascii _ (hascii s hs)]
      rfl
  rw [hlowered]
  have hnames : (txnHeaders.map cellText).map (lowered .ascii) =
      ["date", "narration", "reference", "debit", "credit", "balance", "vendor", "account head",
        "ledger for posting", "expense head", "party group", "type", "status", "tags",
        "confidence", "classification source", "classification reason", "classified by",
        "bank name", "account no"] := by decide +kernel
  rw [hnames]
  rfl

section

variable {u : Unicode} {expenseHead : Transaction → String} {t : Transaction} {row : List String}

theorem reimportRow_spec (h : IsClean t)
    (hrow : List.Forall₂ Sheet.ShownAs (txnCells expenseHead t) row) (n : ℕ) :
    reimportRow u exportedColumns n (row.map cellText) = none ∧ t.date = "" ∧ t.narration = "" ∨
      ∃ p, reimportRow u exportedColumns n (row.map cellText) = some p ∧ p.id = reimportId n ∧
        (SameFields t p ↔ IsKept t) := by
  have hdate := (sheetCell_text hrow (i := 0) rfl).trans h.date.cellText_eq
  have hnarr := (sheetCell_text hrow (i := 1) rfl).trans h.narration.cellText_eq
  have href := (sheetCell_text hrow (i := 2) rfl).trans h.reference.cellText_eq
  have hvendor := (sheetCell_text hrow (i := 6) rfl).trans h.vendor.cellText_eq
  have hhead := (sheetCell_text hrow (i := 7) rfl).trans h.accountHead.cellText_eq
  have htype := (sheetCell_text hrow (i := 11) rfl).trans (cellText_type t.txnType)
  have hstatus := sheetCell_text hrow (i := 12) rfl
  have htags := sheetCell_text hrow (i := 13) rfl
  obtain ⟨debit, hdebit, hdebitText⟩ := sheetCell_of_shown hrow (i := 3) rfl
  obtain ⟨credit, hcredit, hcreditText⟩ := sheetCell_of_shown hrow (i := 4) rfl
  obtain ⟨balance, hbalance, hbalanceText⟩ := sheetCell_of_shown hrow (i := 5) rfl
  unfold reimportRow
  simp only [exportedColumns, hdate, hnarr, href, hvendor, hhead, htype, hstatus, htags,
    hdebitText, hcreditText, hbalanceText, lowered_status, parseAmt_amountCell h.debit hdebit,
    parseAmt_amountCell h.credit hcredit, parseAmt_amountCell h.balance hbalance]
  by_cases hblank : t.date = "" ∧ t.narration = ""
  · exact Or.inl ⟨if_pos (by simp [hblank]), hblank⟩
  · refine Or.inr ⟨_, if_neg (by simpa [and_comm] using hblank), rfl, ?_⟩
    constructor
    · rintro ⟨-, -, -, hdebit, hcredit, hbalance, -, -, htype, hstatus, htags⟩
      dsimp only at hdebit hcredit hbalance htype hstatus htags
      exact {
        named := not_and_or.mp hblank
        debit := filter_ne_zero_eq_iff.mp hdebit
        credit := filter_ne_zero_eq_iff.mp hcredit
        balance := filter_ne_zero_eq_iff.mp hbalance
        txnType := (readType_display_iff _).mp htype
        status := (readStatus_display_iff _ _ _).mp hstatus
        tags := (readTags_eq_iff _).mp htags }
    · intro hkept
      have hdebit := filter_ne_zero_eq_iff.mpr hkept.debit
      have hcredit := filter_ne_zero_eq_iff.mpr hkept.credit
      have hbalance := filter_ne_zero_eq_iff.mpr hkept.balance
      have htype := (readType_display_iff _).mpr hkept.txnType
      have hstatus := (readStatus_display_iff _ _ _).mpr hkept.status
      have htags := (readTags_eq_iff _).mpr hkept.tags
      rw [hdebit, hcredit, hbalance, htype, hstatus, htags]
      exact ⟨rfl, rfl, rfl, rfl, rfl, rfl, rfl, rfl, rfl, rfl, rfl⟩

/-! ## All rows -/

/-- The rows are read as the transactions again exactly when each one is, and then their ids are
counted from where the reader stands. -/
theorem reimportRows_spec {ts : List Transaction} {rows : List (List String)}
    (h : List.Forall₂ (fun t row => IsClean t ∧
      List.Forall₂ Sheet.ShownAs (txnCells expenseHead t) row) ts rows) (txns : List Transaction) :
    ∃ ps, reimportRows u exportedColumns (rows.map (List.map cellText)) txns = txns ++ ps ∧
      ps.length ≤ ts.length ∧ ps.map Transaction.id =
        (List.range ps.length).map (fun k => reimportId (txns.length + k)) ∧
      (List.Forall₂ SameFields ts ps ↔ ∀ t ∈ ts, IsKept t) := by
  induction h generalizing txns with
  | nil => exact ⟨[], by simp [reimportRows], le_rfl, rfl, by simp⟩
  | @cons t row ts rows hrow hrows ih =>
    obtain ⟨hclean, hshown⟩ := hrow
    have hstep : ∀ found : Option Transaction,
        reimportRow u exportedColumns txns.length (row.map cellText) = found →
        reimportRows u exportedColumns ((row :: rows).map (List.map cellText)) txns =
          reimportRows u exportedColumns (rows.map (List.map cellText))
            (txns ++ found.toList) := by
      rintro found rfl
      rfl
    rcases reimportRow_spec (u := u) hclean hshown txns.length with
      ⟨hnone, hblank⟩ | ⟨p, hsome, hid, hsame⟩
    · obtain ⟨ps, hread, hlength, hids, -⟩ := ih (txns ++ [])
      rw [List.append_nil] at hids
      refine ⟨ps, by rw [hstep _ hnone]; simpa using hread, hlength.trans (Nat.le_succ _), hids, ?_⟩
      refine iff_of_false (fun hall => ?_) (fun hkept => ?_)
      · have := hall.length_eq
        simp only [List.length_cons] at this
        omega
      · rcases (hkept t List.mem_cons_self).named with hdate | hnarr
        · exact hdate hblank.1
        · exact hnarr hblank.2
    · obtain ⟨ps, hread, hlength, hids, hall⟩ := ih (txns ++ [p])
      refine ⟨p :: ps, ?_, Nat.succ_le_succ hlength, ?_, ?_⟩
      · rw [hstep _ hsome]
        simpa using hread
      · rw [List.length_cons, List.range_succ_eq_map, List.map_cons, List.map_cons, hid, hids,
          List.map_map]
        refine congrArg (_ :: ·) (List.map_congr_left fun k _ => ?_)
        rw [List.length_append, List.length_singleton, Function.comp_apply]
        congr 1
        omega
      · rw [List.forall₂_cons, hsame, hall, List.forall_mem_cons]

end

/-! ## The sheet -/

/-- The texts of a row that a cell must hold. -/
def cellTexts (expenseHead : Transaction → String) (t : Transaction) : List String :=
  [t.date, t.narration, t.reference, t.vendor, t.accountHead, expenseHead t,
    "; ".intercalate t.tags, t.classificationSource, t.bankName, t.accountNo]

theorem cellFits_iff {expenseHead : Transaction → String} {t : Transaction} :
    (∀ cell ∈ txnCells expenseHead t, Sheet.CellFits cell) ↔
      ∀ s ∈ cellTexts expenseHead t, s.length ≤ Sheet.maxStringLen := by
  have hamount : ∀ x : Option F64, Sheet.CellFits (amountCell x) := by
    intro x
    cases x <;> trivial
  have hshort : ∀ s : String, s.length ≤ 100 → Sheet.CellFits (.text s) :=
    fun s hs => hs.trans (by decide)
  have htype : Sheet.CellFits (.text t.txnType.display) :=
    hshort _ (by cases t.txnType <;> decide)
  have hstatus : Sheet.CellFits (.text t.status.display) :=
    hshort _ (by cases t.status <;> decide)
  have hgroup : Sheet.CellFits (.text (Export.partyGroup t)) := by
    refine hshort _ ?_
    unfold Export.partyGroup
    split
    · decide
    · split
      · decide
      · split <;> decide
  have hbasis : Sheet.CellFits (.text (classificationBasis t)) := by
    refine hshort _ ?_
    unfold classificationBasis
    split
    · decide
    · decide
    · decide
    · decide
    · split <;> decide
  have hposting : Sheet.CellFits (.text t.vendor) → Sheet.CellFits (.text t.accountHead) →
      Sheet.CellFits (.text (postingLedger t)) := by
    intro hvendor hhead
    unfold postingLedger
    split
    · exact hhead
    · split
      · exact hvendor
      · exact hshort _ (by decide)
  have hby : Sheet.CellFits (.text t.classificationSource) → Sheet.CellFits
      (.text (if t.classificationSource.isEmpty then "local" else t.classificationSource)) := by
    intro hsource
    split
    · exact hshort _ (by decide)
    · exact hsource
  constructor
  · intro h
    simp only [txnCells, List.forall_mem_cons] at h
    obtain ⟨hdate, hnarr, href, -, -, -, hvendor, hhead, -, hexpense, -, -, -, htags, -, hsource,
      -, -, hbank, haccount, -⟩ := h
    have htext : ∀ s ∈ cellTexts expenseHead t, Sheet.CellFits (.text s) := by
      simp only [cellTexts, List.forall_mem_cons]
      exact ⟨hdate, hnarr, href, hvendor, hhead, hexpense, htags, hsource, hbank, haccount,
        List.forall_mem_nil _⟩
    exact htext
  · intro h
    have htext : ∀ s ∈ cellTexts expenseHead t, Sheet.CellFits (.text s) := h
    simp only [cellTexts, List.forall_mem_cons] at htext
    obtain ⟨hdate, hnarr, href, hvendor, hhead, hexpense, htags, hsource, hbank, haccount, -⟩ :=
      htext
    simp only [txnCells, List.forall_mem_cons]
    exact ⟨hdate, hnarr, href, hamount _, hamount _, hamount _, hvendor, hhead,
      hposting hvendor hhead, hexpense, hgroup, htype, hstatus, htags, trivial, hsource, hbasis,
      hby hsource, hbank, haccount, List.forall_mem_nil _⟩

theorem fits_transactionsSheet {expenseHead : Transaction → String} {txns : List Transaction} :
    Sheet.Fits (transactionsSheet expenseHead txns) ↔
      (realRows txns).length < Sheet.rowMax ∧
        ∀ t ∈ realRows txns, ∀ s ∈ cellTexts expenseHead t, s.length ≤ Sheet.maxStringLen := by
  have hheader : ∀ cell ∈ txnHeaders.map SheetCell.text, Sheet.CellFits cell := by decide
  have hrow : ∀ t, (txnCells expenseHead t).length ≤ Sheet.columnMax := fun t => by
    show 20 ≤ Sheet.columnMax
    decide
  have hlength : (transactionsSheet expenseHead txns).length = (realRows txns).length + 1 := by
    rw [transactionsSheet, List.length_cons, List.length_map]
    rfl
  rw [Sheet.Fits, hlength]
  constructor
  · rintro ⟨hrows, hcells⟩
    refine ⟨hrows, fun t ht => cellFits_iff.mp (hcells _ ?_).2⟩
    exact List.mem_cons_of_mem _ (List.mem_map_of_mem ht)
  · rintro ⟨hrows, htexts⟩
    refine ⟨hrows, fun row hr => ?_⟩
    rcases List.mem_cons.mp hr with rfl | hr
    · exact ⟨by decide, hheader⟩
    · obtain ⟨t, ht, rfl⟩ := List.mem_map.mp hr
      exact ⟨hrow t, cellFits_iff.mpr (htexts t ht)⟩

theorem isTable_transactionsSheet (expenseHead : Transaction → String) (txns : List Transaction) :
    Sheet.IsTable (transactionsSheet expenseHead txns) := by
  refine ⟨by decide, by decide, ?_⟩
  rw [List.forall_mem_map]
  exact fun t _ => ⟨rfl, .number t.confidence, by simp [txnCells], rfl⟩

/-- What is read of a file, if anything. -/
def rereadRows : Except String (List Transaction) → List Transaction
  | .error _ => []
  | .ok txns => txns

/-- What is read of an exported file. It is handed on unless there is nothing to hand on. -/
theorem parseSheet_spec {u : Unicode} {expenseHead : Transaction → String}
    {txns : List Transaction} {range : List (List String)}
    (hclean : ∀ t ∈ realRows txns, IsClean t)
    (h : List.Forall₂ (List.Forall₂ Sheet.ShownAs) (transactionsSheet expenseHead txns) range) :
    ∃ ps, rereadRows (parseSheet u range) = ps ∧
      (parseSheet u range = .ok ps ∨ ps = []) ∧ ps.length ≤ (realRows txns).length ∧
      ps.map Transaction.id = (List.range ps.length).map reimportId ∧
      (List.Forall₂ SameFields (realRows txns) ps ↔ ∀ t ∈ realRows txns, IsKept t) := by
  rw [transactionsSheet, List.forall₂_cons_left_iff] at h
  obtain ⟨header, rows, hheader, hrows, rfl⟩ := h
  have hheader : header = txnHeaders := by
    rw [List.forall₂_map_left_iff] at hheader
    exact (List.forall₂_eq_eq_eq ▸ hheader.imp fun _ _ h => h.symm : txnHeaders = header).symm
  subst hheader
  rw [List.forall₂_map_left_iff] at hrows
  have hrows : List.Forall₂ (fun t row => IsClean t ∧
      List.Forall₂ Sheet.ShownAs (txnCells expenseHead t) row) (realRows txns) rows := by
    rw [List.forall₂_and_left]
    exact ⟨hclean, hrows⟩
  obtain ⟨ps, hread, hlength, hids, hall⟩ := reimportRows_spec (u := u) hrows []
  rw [List.nil_append] at hread
  simp only [List.length_nil, Nat.zero_add] at hids
  have hparse : parseSheet u (txnHeaders :: rows) = .ok ps ∨
      ps = [] ∧ ∃ msg, parseSheet u (txnHeaders :: rows) = .error msg := by
    cases rows with
    | nil => exact Or.inr ⟨hread.symm, _, rfl⟩
    | cons row rows =>
      have heq : parseSheet u (txnHeaders :: row :: rows) =
          if ps.isEmpty then .error "No transactions found in sheet" else .ok ps := by
        unfold parseSheet
        rw [List.map_cons, List.map_cons]
        dsimp only
        rw [sheetColumns_txnHeaders]
        dsimp only
        rw [← List.map_cons, hread]
      rw [heq]
      cases ps with
      | nil => exact Or.inr ⟨rfl, _, rfl⟩
      | cons p ps => exact Or.inl rfl
  refine ⟨ps, ?_, hparse.imp_right And.left, hlength, hids, hall⟩
  rcases hparse with hok | ⟨rfl, msg, herror⟩
  · rw [hok]
    rfl
  · rw [herror]
    rfl

/-! ## The store -/

/-- The row of a transaction is as it was, and a new one is stored for what was read of it. -/
def SecondCopy (before after : Db) (clientId : ℕ) (t p : Transaction) : Prop :=
  (∃ r ∈ before.transactions.rows, r.key = (clientId, t.id) ∧ r ∈ after.transactions.rows) ∧
    ∃ r ∈ after.transactions.rows, r.key = (clientId, p.id) ∧ r ∉ before.transactions.rows

section

variable {s : Store} {cid : ℕ}

theorem persist_transactions (hknown : ∃ c ∈ s.db.clients.rows, c.id = cid)
    (file : StatementFile) (txns : List Transaction) :
    (s.persist .none cid file txns).1.db.transactions = s.db.transactions.replaceAll
      (txns.map fun t => t.toRow cid (some s.db.importHistory.nextId)) := by
  obtain ⟨db₁, heq₁, hclients₁, htxns₁, -, himport₁⟩ := s.db.saveImport_eq file.fileName
    file.result.bankName file.result.accountNo (realRows txns).length hknown
  have hrows : ∀ r ∈ txns.map (fun t => t.toRow cid (some s.db.importHistory.nextId)),
      r.clientId = cid ∧ r.importId = some s.db.importHistory.nextId := by
    intro r hr
    obtain ⟨t, -, rfl⟩ := List.mem_map.mp hr
    exact ⟨rfl, rfl⟩
  obtain ⟨db₂, heq₂, -, -, htxns₂⟩ :=
    Db.insertRows_eq _ _ hrows db₁ (by rwa [hclients₁]) himport₁
  unfold Store.persist
  simp only [Faults.none, Bool.false_eq_true, if_false, heq₁]
  simp [Db.upsertTransactions, heq₂, htxns₂, htxns₁]

/-- No stored row names the import that comes next. -/
theorem importId_ne_next {r : TransactionRow} (hr : r ∈ s.db.transactions.rows) :
    r.importId ≠ some s.db.importHistory.nextId := by
  intro hnext
  obtain ⟨i, hi, hid⟩ := s.db.transactions_import r hr _ hnext
  exact absurd hid (s.db.importHistory.below i hi).ne

theorem exists_row_of_mem {t : Transaction} (ht : t ∈ s.db.getTransactions cid) :
    ∃ r ∈ s.db.transactions.rows, r.key = (cid, t.id) := by
  obtain ⟨r, hr, rfl⟩ := List.mem_map.mp ht
  obtain ⟨hmem, rfl⟩ := mem_clientRows.mp hr
  exact ⟨r, hmem, rfl⟩

/-- What is read is written over the row it came from only under its id. -/
theorem secondCopy_iff {auto : AutoClassify} {file : StatementFile} {ps : List Transaction}
    {t p : Transaction} (ht : t ∈ s.db.getTransactions cid) (hp : p ∈ ps) :
    SecondCopy s.db (applyParseResult auto .none (some cid) s file ps).1.db cid t p ↔
      t.id ∉ ps.map Transaction.id := by
  obtain ⟨r, hr, hkey⟩ := exists_row_of_mem ht
  have hclient : ∃ c ∈ s.db.clients.rows, c.id = cid := by
    obtain ⟨c, hc, hid⟩ := s.db.transactions_client r hr
    exact ⟨c, hc, hid.trans (congrArg Prod.fst hkey)⟩
  let rs := (auto.classifyAll ps).2.map fun t => t.toRow cid (some s.db.importHistory.nextId)
  have hafter : (applyParseResult auto .none (some cid) s file ps).1.db.transactions =
      s.db.transactions.replaceAll rs := persist_transactions hclient file _
  have hids : (auto.classifyAll ps).2.map Transaction.id = ps.map Transaction.id := by
    have hkeeps := congrArg (List.map Transaction.id) (auto.keeps ps)
    rwa [List.map_map, List.map_map] at hkeeps
  have hkeys : rs.map TransactionRow.key = (ps.map Transaction.id).map (Prod.mk cid) := by
    rw [← hids, List.map_map, List.map_map]
    rfl
  have hnew : ∀ r' ∈ rs, r' ∉ s.db.transactions.rows := by
    intro r' hr' hold
    obtain ⟨t', -, rfl⟩ := List.mem_map.mp hr'
    exact importId_ne_next hold rfl
  have hmem : ∀ id, (cid, id) ∈ rs.map TransactionRow.key ↔ id ∈ ps.map Transaction.id := by
    intro id
    rw [hkeys]
    exact List.mem_map_of_injective (Prod.mk_right_injective cid)
  rw [SecondCopy, hafter]
  constructor
  · rintro ⟨⟨r', hr', hkey', hkept⟩, -⟩ hid
    have hfree := (Keyed.mem_replaceAll_iff hr' fun h => hnew r' h hr').mp hkept
    rw [hkey'] at hfree
    exact hfree ((hmem _).mpr hid)
  · intro hfree
    refine ⟨⟨r, hr, hkey, (Keyed.mem_replaceAll_iff hr fun h => hnew r h hr).mpr ?_⟩, ?_⟩
    · rw [hkey]
      exact fun h => hfree ((hmem _).mp h)
    · obtain ⟨r', hr', hkey'⟩ :=
        List.mem_map.mp ((hmem p.id).mpr (List.mem_map_of_mem hp))
      obtain ⟨r'', hr'', hstored, hsame⟩ := Keyed.exists_key_replaceAll (t := s.db.transactions)
        r' hr'
      exact ⟨r'', hstored, hsame.trans hkey', hnew r'' hr''⟩

end

/-! ## The round trip -/

/-- An export of these transactions, read into their client: it gives the transactions again, in
order, and none of them a second row. -/
def ReadsBackOnce {File : Type} (u : Unicode) (lib : XlsxLibrary File)
    (expenseHead : Transaction → String) (auto : AutoClassify) (s : Store) (cid : ℕ)
    (fileName : String) (txns : List Transaction) : Prop :=
  ∃ file n, exportXlsx lib expenseHead txns = some (file, n) ∧
    let reimport := onDoReimportExcel u lib auto .none (some cid) s fileName file
    List.Forall₂ SameFields (realRows txns) (rereadRows reimport.1) ∧
      ∀ tp ∈ (realRows txns).zip (rereadRows reimport.1),
        ¬SecondCopy s.db reimport.2.db cid tp.1 tp.2

/-- The file can hold the rows, each row is read as it was, and the ids are those that are given
to the rows that are read. -/
structure CanReadBack (expenseHead : Transaction → String) (txns : List Transaction) : Prop where
  rows : (realRows txns).length < Sheet.rowMax
  texts : ∀ t ∈ realRows txns, ∀ s ∈ cellTexts expenseHead t, s.length ≤ Sheet.maxStringLen
  kept : ∀ t ∈ realRows txns, IsKept t
  ids : ∀ t ∈ realRows txns, ∃ k < (realRows txns).length, t.id = reimportId k

/-- What a re-import makes of an exported file. -/
theorem reimport_spec {File : Type} {u : Unicode} {lib : XlsxLibrary File} (hlib : lib.Lawful)
    {expenseHead : Transaction → String} (auto : AutoClassify) (s : Store) (cid : ℕ)
    (fileName : String) {txns : List Transaction} (hclean : ∀ t ∈ txns, IsClean t) {file : File}
    (hsave : lib.save (transactionsSheet expenseHead txns) = some file) :
    ∃ ps, rereadRows (onDoReimportExcel u lib auto .none (some cid) s fileName file).1 = ps ∧
      (ps ≠ [] → (onDoReimportExcel u lib auto .none (some cid) s fileName file).2 =
        (applyParseResult auto .none (some cid) s ⟨fileName, ⟨[], "", ""⟩⟩ ps).1) ∧
      ps.map Transaction.id = (List.range ps.length).map reimportId ∧
      (List.Forall₂ SameFields (realRows txns) ps ↔ ∀ t ∈ realRows txns, IsKept t) := by
  obtain ⟨ps, hread, hok, -, hids, hall⟩ := parseSheet_spec (u := u)
    (fun t ht => hclean t (mem_realRows.mp ht).1)
    (hlib.reads _ _ hsave (isTable_transactionsSheet expenseHead txns))
  refine ⟨ps, ?_, fun hne => ?_, hids, hall⟩
  · rw [← hread]
    unfold onDoReimportExcel
    cases parseSheet u (lib.worksheetRange file) <;> rfl
  · unfold onDoReimportExcel
    rw [hok.resolve_right hne]

/-- **What is exported is read back, once, exactly when the file can hold it, each row is read as
it was, and the rows have the ids that are given to the rows that are read.** -/
theorem readsBackOnce_iff {File : Type} (u : Unicode) {lib : XlsxLibrary File} (hlib : lib.Lawful)
    (expenseHead : Transaction → String) (auto : AutoClassify) (s : Store) (cid : ℕ)
    (fileName : String) {txns : List Transaction} (hfrom : ∀ t ∈ txns, t ∈ s.db.getTransactions cid)
    (hclean : ∀ t ∈ txns, IsClean t) :
    ReadsBackOnce u lib expenseHead auto s cid fileName txns ↔ CanReadBack expenseHead txns := by
  have hreal : ∀ t ∈ realRows txns, t ∈ txns := fun t ht => (mem_realRows.mp ht).1
  constructor
  · rintro ⟨file, n, hexport, hsame, honce⟩
    obtain ⟨file', hsave, heq⟩ := Option.map_eq_some_iff.mp hexport
    obtain ⟨rfl, -⟩ := Prod.mk.inj heq
    obtain ⟨hrows, htexts⟩ := fits_transactionsSheet.mp
      ((hlib.saves _).mp (Option.isSome_of_eq_some hsave))
    obtain ⟨ps, hread, happly, hids, hall⟩ :=
      reimport_spec (u := u) hlib auto s cid fileName hclean hsave
    rw [hread] at hsame honce
    refine ⟨hrows, htexts, hall.mp hsame, fun t ht => ?_⟩
    have hlength := hsame.length_eq
    rw [← List.map_fst_zip hlength.le] at ht
    obtain ⟨⟨t, p⟩, hmem, rfl⟩ := List.mem_map.mp ht
    obtain ⟨ht, hp⟩ := List.of_mem_zip hmem
    have hcopy := honce _ hmem
    rw [happly (List.ne_nil_of_mem hp), secondCopy_iff (hfrom t (hreal t ht)) hp, not_not,
      hids] at hcopy
    obtain ⟨k, hk, hid⟩ := List.mem_map.mp hcopy
    exact ⟨k, hlength ▸ List.mem_range.mp hk, hid.symm⟩
  · intro h
    obtain ⟨file, hsave⟩ := Option.isSome_iff_exists.mp
      ((hlib.saves _).mpr (fits_transactionsSheet.mpr ⟨h.rows, h.texts⟩))
    obtain ⟨ps, hread, happly, hids, hall⟩ :=
      reimport_spec (u := u) hlib auto s cid fileName hclean hsave
    have hsame := hall.mpr h.kept
    refine ⟨file, _, Option.map_eq_some_iff.mpr ⟨file, hsave, rfl⟩, ?_⟩
    dsimp only
    rw [hread]
    refine ⟨hsame, fun tp htp => ?_⟩
    obtain ⟨ht, hp⟩ := List.of_mem_zip htp
    obtain ⟨k, hk, hid⟩ := h.ids _ ht
    rw [happly (List.ne_nil_of_mem hp), secondCopy_iff (hfrom _ (hreal _ ht)) hp, not_not, hids,
      hid]
    exact List.mem_map_of_mem (List.mem_range.mpr (hsame.length_eq ▸ hk))

/-- The sample client with one transaction. -/
def storeWith (t : Transaction) : Store :=
  ⟨((sampleDb.upsertTransactions 1 none [t]).map Prod.fst).getD sampleDb, []⟩

/-- A transaction of an earlier re-import. -/
def rereadPayment : Transaction :=
  { Transaction.new (reimportId 0) with
    date := "01/04/2025"
    narration := "NEFT ACME; MUMBAI"
    debit := some (.finite (3001 / 2))
    balance := some (.finite 20000)
    vendor := "Acme"
    txnType := .payment
    status := .classified
    tags := ["GST", "Q1 2025"] }

theorem readsBackOnce_rereadPayment :
    ReadsBackOnce .ascii Sheet.plain (fun _ => "Sundry Creditors") .nothing
      (storeWith rereadPayment) 1 "export.xlsx" [rereadPayment] := by
  refine (readsBackOnce_iff .ascii Sheet.lawful_plain (fun _ => "Sundry Creditors") .nothing
    (storeWith rereadPayment) 1 "export.xlsx" ?_ ?_).mpr ⟨by decide +kernel, by decide +kernel, ?_, ?_⟩
  · decide +kernel
  · rintro t (_ | ⟨_, ⟨⟩⟩)
    have hdebit : IsAmount (.finite (3001 / 2)) := ⟨rfl, by unfold F64.IsExact; decide +kernel⟩
    have hbalance : IsAmount (.finite 20000) := ⟨rfl, by unfold F64.IsExact; decide +kernel⟩
    refine ⟨by decide +kernel, by decide +kernel, by decide +kernel, by decide +kernel,
      by decide +kernel, ?_, ?_, ?_⟩
    · rintro _ ⟨⟩
      exact hdebit
    · rintro _ ⟨⟩
    · rintro _ ⟨⟩
      exact hbalance
  · have hreal : realRows [rereadPayment] = [rereadPayment] := by decide +kernel
    rw [hreal]
    rintro t (_ | ⟨_, ⟨⟩⟩)
    refine ⟨Or.inl (by decide), by decide +kernel, by decide +kernel, by decide +kernel,
      Or.inl rfl, Or.inr (Or.inl rfl), fun tag htag => ?_⟩
    have htags : ∀ tag ∈ rereadPayment.tags, tag ≠ "" ∧ IsTrimmed tag ∧ ';' ∉ tag.toList := by
      decide +kernel
    obtain ⟨hne, htrim, hsingle⟩ := htags tag htag
    exact ⟨hne, htrim, hsingle⟩
  · decide +kernel

/-- A sale of a statement. -/
def saleRow : Transaction :=
  { Transaction.new "t_5_0" with
    date := "01/04/2025"
    narration := "NEFT ACME"
    credit := some (.finite 1500)
    txnType := .sales }

/-- The sale is read as a payment. -/
theorem sale_is_reread_as_payment :
    ¬ ∀ (s : Store) (cid : ℕ) (fileName : String) (txns : List Transaction),
      (∀ t ∈ txns, t ∈ s.db.getTransactions cid) → (∀ t ∈ txns, IsClean t) →
        ReadsBackOnce .ascii Sheet.plain (fun _ => "") .nothing s cid fileName txns := by
  intro h
  have hclean : ∀ t ∈ [saleRow], IsClean t := by
    rintro t (_ | ⟨_, ⟨⟩⟩)
    have hcredit : IsAmount (.finite 1500) := ⟨rfl, by unfold F64.IsExact; decide +kernel⟩
    refine ⟨by decide +kernel, by decide +kernel, by decide +kernel, by decide +kernel,
      by decide +kernel, ?_, ?_, ?_⟩
    · rintro _ ⟨⟩
    · rintro _ ⟨⟩
      exact hcredit
    · rintro _ ⟨⟩
  obtain ⟨file, n, hexport, hsame, -⟩ :=
    h (storeWith saleRow) 1 "export.xlsx" [saleRow] (by decide +kernel) hclean
  have hfile : exportXlsx Sheet.plain (fun _ => "") [saleRow] =
      some (transactionsSheet (fun _ => "") [saleRow], 1) := by decide +kernel
  obtain ⟨rfl, -⟩ := Prod.mk.inj (Option.some.inj (hexport.symm.trans hfile))
  have hread : (rereadRows (onDoReimportExcel .ascii Sheet.plain .nothing .none (some 1)
      (storeWith saleRow) "export.xlsx" (transactionsSheet (fun _ => "") [saleRow])).1).map
        Transaction.txnType = [.payment] := by decide +kernel
  have hkept : List.Forall₂ (fun t v => v = t.txnType) (realRows [saleRow]) [.payment] := by
    rw [← hread, List.forall₂_map_right_iff]
    exact hsame.imp fun _ _ h => h.txnType
  rw [show realRows [saleRow] = [saleRow] by decide +kernel] at hkept
  cases hkept with
  | cons hsales _ => cases hsales

end Desktop
