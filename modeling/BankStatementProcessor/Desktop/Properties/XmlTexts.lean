import BankStatementProcessor.Desktop.Properties.TallyDocument

/-!
# Text in the XML exports

The generic document is read as it is meant, with one element for each transaction, but for dates
with marks in them. Both documents are, then, just where no mark stands in a date and no line feed
or tab in the name of a ledger.
-/

namespace Desktop.Export

open Infra Infra.Xml

/-! ## What the generic document holds -/

/-- One transaction. -/
def transactionPieces (opts : AccountingOpts) (t : Transaction) : List Xml.Piece :=
  [⟨"\n    ".toList, .start ⟨"Transaction".toList, []⟩⟩] ++
    leaf "\n      ".toList "Date" (dateToIso t.date).toList ++
    leaf "\n      ".toList "Narration" t.narration.toList ++
    leaf "\n      ".toList "Reference" t.reference.toList ++
    leaf "\n      ".toList "VoucherType" (vt t).toList ++
    leaf "\n      ".toList "Amount" (F64.fixed 2 (amt t)).toList ++
    leaf "\n      ".toList "DebitLedger" (xmlSides t opts).1.toList ++
    leaf "\n      ".toList "CreditLedger" (xmlSides t opts).2.toList ++
    leaf "\n      ".toList "Vendor" t.vendor.toList ++
    leaf "\n      ".toList "Status" t.status.display.toList ++
    [⟨"\n    ".toList, .close "Transaction".toList⟩]

/-- What the generic document is meant to hold. -/
def genericPieces (txns : List Transaction) (opts : XmlOpts) : List Xml.Piece :=
  [⟨"\n".toList, .start ⟨"BankStatementExport".toList, []⟩⟩] ++
    (leaf "\n  ".toList "Company" opts.company.toList ++
      leaf "\n  ".toList "GSTIN" opts.gstin.toList ++
      leaf "\n  ".toList "FinancialYear" opts.fy.toList ++
      leaf "\n  ".toList "StateCode" opts.stateCode.toList ++
      leaf "\n  ".toList "BankLedger" opts.bankLedger.toList ++
      [⟨"\n  ".toList, .start ⟨"Transactions".toList, []⟩⟩] ++
      (filterTxns txns opts.toAccountingOpts).flatMap (transactionPieces opts.toAccountingOpts) ++
      [⟨"\n  ".toList, .close "Transactions".toList⟩,
        ⟨"\n".toList, .close "BankStatementExport".toList⟩])

/-- The texts of the settings of an export. -/
structure XmlOpts.HasXmlTexts (opts : XmlOpts) : Prop where
  company : IsXmlText opts.company.toList
  bankLedger : IsXmlText opts.bankLedger.toList
  gstin : IsXmlText opts.gstin.toList
  fy : IsXmlText opts.fy.toList
  stateCode : IsXmlText opts.stateCode.toList

/-! ## Lines -/

section

variable {op : List Text} {n : Text} {s content : Text} {indent name : String} {P : Prop}

/-- An element on a line of its own. -/
theorem segment_xmlLine (hindent : IsUnescaped indent.toList)
    (h : ∀ acc b, Segment (n :: op) (.content acc b)
      (startTag name.toList ++ content ++ endTag name.toList) (leaf acc name s) (n :: op)
      (.content [] 0) P) :
    Segment (n :: op) (.content ['\n'] 0) (xmlLine indent name content)
      (leaf ('\n' :: indent.toList) name s) (n :: op) (.content ['\n'] 0) P := by
  have hstart : Segment (n :: op) (.content ['\n'] 0) indent.toList [] (n :: op)
      (.content ('\n' :: indent.toList) (bracketsAfter 0 indent.toList)) True := by
    have hescaped : Segment (n :: op) (.content ['\n'] 0) (escape indent.toList) [] (n :: op)
        (.content (['\n'] ++ indent.toList) (bracketsAfter 0 indent.toList)) True :=
      .escaped hindent.1 ['\n'] 0
    rwa [hindent.2] at hescaped
  have hbreak : Segment (n :: op) (.content [] 0) ['\n'] [] (n :: op) (.content ['\n'] 0) True :=
    .literal (by decide) fun _ => rfl
  have hline := (hstart.append (h ('\n' :: indent.toList) _)).append hbreak
  have htext : xmlLine indent name content = indent.toList ++
      (startTag name.toList ++ content ++ endTag name.toList) ++ ['\n'] := by
    have hclose : "</".toList = ['<', '/'] := by decide +kernel
    have hgt : ">\n".toList = ['>', '\n'] := by decide +kernel
    rw [xmlLine, hclose, hgt]
    simp [startTag, endTag]
  rw [htext]
  rw [List.nil_append, List.append_nil] at hline
  exact hline.congr (by simp)

theorem segment_escapedLine (hindent : IsUnescaped indent.toList) (hname : IsName name.toList)
    (hs : IsXmlText s) : Segment (n :: op) (.content ['\n'] 0) (xmlLine indent name (escape s))
      (leaf ('\n' :: indent.toList) name s) (n :: op) (.content ['\n'] 0) True :=
  segment_xmlLine hindent fun acc b => .leaf hname hs acc b

theorem segment_unescapedLine (hindent : IsUnescaped indent.toList) (hname : IsName name.toList)
    (hs : IsUnescaped s) : Segment (n :: op) (.content ['\n'] 0) (xmlLine indent name s)
      (leaf ('\n' :: indent.toList) name s) (n :: op) (.content ['\n'] 0) True :=
  segment_xmlLine hindent fun acc b => segment_unescaped hname hs acc b

/-- Text that stands as it is. -/
theorem segment_rawLine (hindent : IsUnescaped indent.toList) (hname : IsName name.toList)
    (hs : IsXmlText s) : Segment (n :: op) (.content ['\n'] 0) (xmlLine indent name s)
      (leaf ('\n' :: indent.toList) name s) (n :: op) (.content ['\n'] 0) (IsCharData s) := by
  refine segment_xmlLine hindent fun acc b => ?_
  have hleaf : Segment (n :: op) (.content acc b)
      (startTag name.toList ++ (s ++ endTag name.toList)) (leaf acc name s) (n :: op)
      (.content [] 0) (IsCharData s) := .rawLeaf hname hs acc b
  rwa [← List.append_assoc] at hleaf

end

/-! ## The generic document -/

section

variable {t : Transaction} {txns : List Transaction} {opts : XmlOpts}

theorem isUnescaped_vt (t : Transaction) : IsUnescaped (vt t).toList := by
  have hplain : ∀ name ∈ ["Receipt", "Payment", "Contra"], IsUnescaped name.toList := by
    decide +kernel
  refine hplain _ ?_
  unfold vt
  split
  · simp
  · simp
  · simp
  · split_ifs <;> simp

theorem isXmlText_xmlSides (ht : HasXmlTexts t) (h : IsXmlText opts.bankLedger.toList) :
    IsXmlText (xmlSides t opts.toAccountingOpts).1.toList ∧
      IsXmlText (xmlSides t opts.toAccountingOpts).2.toList := by
  have hledger := isXmlText_postingLedger ht
  unfold xmlSides
  split
  · exact ⟨h, hledger⟩
  · exact ⟨hledger, h⟩

/-- The elements that the transactions stand in. -/
def transactionsOpened : List Text := ["Transactions".toList, "BankStatementExport".toList]

/-- A transaction is read as it is meant just where its date is character data. -/
theorem segment_xmlTransaction (ht : HasXmlTexts t) (h : IsXmlText opts.bankLedger.toList) :
    Segment transactionsOpened (.content ['\n'] 0) (xmlTransaction opts.toAccountingOpts t)
      (transactionPieces opts.toAccountingOpts t) transactionsOpened (.content ['\n'] 0)
      (IsCharData (dateToIso t.date).toList) := by
  have hindent : IsUnescaped "      ".toList := by decide +kernel
  have hstatus : IsXmlText t.status.display.toList := by cases t.status <;> decide +kernel
  obtain ⟨hdebit, hcredit⟩ := isXmlText_xmlSides ht h
  have hopen : Segment transactionsOpened (.content ['\n'] 0) "    <Transaction>\n".toList
      [⟨"\n    ".toList, .start ⟨"Transaction".toList, []⟩⟩]
      ("Transaction".toList :: transactionsOpened) (.content ['\n'] 0) True :=
    .fixed (by decide +kernel) (by decide +kernel)
  have hclose : Segment ("Transaction".toList :: transactionsOpened) (.content ['\n'] 0)
      "    </Transaction>\n".toList [⟨"\n    ".toList, .close "Transaction".toList⟩]
      transactionsOpened (.content ['\n'] 0) True :=
    .fixed (by decide +kernel) (by decide +kernel)
  have htransaction := ((((((((((hopen.append
    (segment_rawLine hindent (isName "Date" (by decide +kernel)) (isXmlText_dateToIso ht.date))).append
    (segment_escapedLine hindent (isName "Narration" (by decide +kernel)) ht.narration)).append
    (segment_escapedLine hindent (isName "Reference" (by decide +kernel)) ht.reference)).append
    (segment_unescapedLine hindent (isName "VoucherType" (by decide +kernel))
      (isUnescaped_vt t))).append
    (segment_unescapedLine hindent (isName "Amount" (by decide +kernel))
      (isUnescaped_fixed (amt t)))).append
    (segment_escapedLine hindent (isName "DebitLedger" (by decide +kernel)) hdebit)).append
    (segment_escapedLine hindent (isName "CreditLedger" (by decide +kernel)) hcredit)).append
    (segment_escapedLine hindent (isName "Vendor" (by decide +kernel)) ht.vendor)).append
    (segment_escapedLine hindent (isName "Status" (by decide +kernel)) hstatus)).append hclose)
  unfold xmlTransaction
  rw [x_eq_escape, x_eq_escape, x_eq_escape, x_eq_escape, x_eq_escape, x_eq_escape]
  exact htransaction.congr (by simp)

theorem genGenericXml_eq (txns : List Transaction) (opts : XmlOpts) :
    genGenericXml txns opts = declaration ++ ("\n<BankStatementExport>\n".toList ++
      (xmlLine "  " "Company" (escape opts.company.toList) ++
        xmlLine "  " "GSTIN" (escape opts.gstin.toList) ++
        xmlLine "  " "FinancialYear" (escape opts.fy.toList) ++
        xmlLine "  " "StateCode" (escape opts.stateCode.toList) ++
        xmlLine "  " "BankLedger" (escape opts.bankLedger.toList) ++
        "  <Transactions>\n".toList ++
        (filterTxns txns opts.toAccountingOpts).flatMap (xmlTransaction opts.toAccountingOpts) ++
        "  </Transactions>\n</BankStatementExport>\n".toList)) := by
  have hfirst : "<?xml version=\"1.0\" encoding=\"UTF-8\"?>\n".toList =
      declaration ++ "\n".toList := by decide +kernel
  have hroot : "\n<BankStatementExport>\n".toList =
      "\n".toList ++ "<BankStatementExport>\n".toList := by decide +kernel
  unfold genGenericXml xmlDocument
  rw [x_eq_escape, x_eq_escape, x_eq_escape, x_eq_escape, x_eq_escape, hfirst, hroot]
  simp only [List.append_assoc]

/-- The generic document is read as it is meant just where no date has a mark in it. -/
theorem read_genGenericXml_iff (htxns : ∀ t ∈ txns, HasXmlTexts t) (hopts : opts.HasXmlTexts) :
    read (genGenericXml txns opts) = some (genericPieces txns opts) ↔
      ∀ t ∈ filterTxns txns opts.toAccountingOpts, IsCharData (dateToIso t.date).toList := by
  have hindent : IsUnescaped "  ".toList := by decide +kernel
  have hopen : Segment ["BankStatementExport".toList] (.content ['\n'] 0)
      "  <Transactions>\n".toList [⟨"\n  ".toList, .start ⟨"Transactions".toList, []⟩⟩]
      transactionsOpened (.content ['\n'] 0) True :=
    .fixed (by decide +kernel) (by decide +kernel)
  have hclose : Segment transactionsOpened (.content ['\n'] 0)
      "  </Transactions>\n</BankStatementExport>\n".toList
      [⟨"\n  ".toList, .close "Transactions".toList⟩,
        ⟨"\n".toList, .close "BankStatementExport".toList⟩] [] (.content ['\n'] 0) True :=
    .fixed (by decide +kernel) (by decide +kernel)
  have hcompany : Segment ["BankStatementExport".toList] (.content ['\n'] 0)
      (xmlLine "  " "Company" (escape opts.company.toList))
      (leaf "\n  ".toList "Company" opts.company.toList) ["BankStatementExport".toList]
      (.content ['\n'] 0) True :=
    segment_escapedLine hindent (isName "Company" (by decide +kernel)) hopts.company
  have htransactions : Segment transactionsOpened (.content ['\n'] 0)
      ((filterTxns txns opts.toAccountingOpts).flatMap (xmlTransaction opts.toAccountingOpts))
      ((filterTxns txns opts.toAccountingOpts).flatMap (transactionPieces opts.toAccountingOpts))
      transactionsOpened (.content ['\n'] 0)
      (∀ t ∈ filterTxns txns opts.toAccountingOpts, IsCharData (dateToIso t.date).toList) :=
    .flatMap fun t ht => segment_xmlTransaction (htxns t (List.mem_of_mem_filter ht)) hopts.bankLedger
  have hdocument := ((((((hcompany.append
    (segment_escapedLine hindent (isName "GSTIN" (by decide +kernel)) hopts.gstin)).append
    (segment_escapedLine hindent (isName "FinancialYear" (by decide +kernel)) hopts.fy)).append
    (segment_escapedLine hindent (isName "StateCode" (by decide +kernel)) hopts.stateCode)).append
    (segment_escapedLine hindent (isName "BankLedger" (by decide +kernel))
      hopts.bankLedger)).append hopen).append htransactions).append hclose
  have hroot : Reader.init.run "\n<BankStatementExport>\n".toList =
      some ⟨[⟨"\n".toList, .start ⟨"BankStatementExport".toList, []⟩⟩].reverse,
        ["BankStatementExport".toList], .content ['\n'] 0⟩ := by decide +kernel
  have hread := read_iff hroot (by decide +kernel) (List.cons_ne_nil _ _) hdocument rfl
  rw [genGenericXml_eq]
  exact hread.trans (by simp)

/-- Both documents are read as they are meant just where no date has a mark in it and, if the
ledgers are written, no name of a ledger holds a tab or a line feed. -/
theorem read_documents_iff {classify : ClassifyGroup} {fl : F64 → F64} {openingBal : Option F64}
    (htxns : ∀ t ∈ txns, HasXmlTexts t) (hopts : opts.HasXmlTexts) :
    read (generate classify fl txns opts.toTallyOpts openingBal) =
          some (tallyPieces classify fl txns opts.toTallyOpts openingBal) ∧
        read (genGenericXml txns opts) = some (genericPieces txns opts) ↔
      ((opts.includeLedgers = true →
          (∀ c ∈ opts.bankLedger.toList, c ≠ '\t' ∧ c ≠ '\n') ∧
            ∀ t ∈ tallySelected txns opts.toTallyOpts,
              ∀ c ∈ (postingLedger t).toList, c ≠ '\t' ∧ c ≠ '\n') ∧
        ∀ t ∈ tallySelected txns opts.toTallyOpts, IsCharData (toTallyDate t.date).toList) ∧
      ∀ t ∈ filterTxns txns opts.toAccountingOpts, IsCharData (dateToIso t.date).toList :=
  and_congr (read_generate_iff htxns hopts.company hopts.bankLedger)
    (read_genGenericXml_iff htxns hopts)

end

def sampleXmlOpts : XmlOpts where
  company := "Rao & Sons"
  currency := "INR"
  bankLedger := "HDFC Bank"
  dateFrom := none
  dateTo := none
  includeOb := false
  includeGst := false
  includeLedgers := true
  includeNarrations := true
  onlyClassified := false
  skipLowConf := false
  skipDuplicates := false
  gstin := ""
  fy := "2025-26"
  stateCode := "27"

theorem hasXmlTexts_sampleXmlOpts : sampleXmlOpts.HasXmlTexts :=
  ⟨by decide +kernel, by decide +kernel, by decide +kernel, by decide +kernel, by decide +kernel⟩

/-- A transaction of a date, with marks in its narration. -/
def markedTxn (date : String) : Transaction :=
  { Transaction.new "t_1" with date, narration := "a < b & \"c\"", vendor := "D'Souza" }

theorem hasXmlTexts_markedTxn {date : String} (h : IsXmlText date.toList) :
    ∀ t ∈ [markedTxn date], HasXmlTexts t := by
  have hnarration : IsXmlText "a < b & \"c\"".toList := by decide +kernel
  have hvendor : IsXmlText "D'Souza".toList := by decide +kernel
  have hempty : IsXmlText "".toList := by decide +kernel
  exact List.forall_mem_singleton.mpr ⟨h, hnarration, hempty, hvendor, hempty, hempty⟩

/-- The marks in a narration are read as they are. -/
theorem read_documents_markedTxn :
    read (generate (fun _ _ _ _ => .indirectExpenses) id [markedTxn "05/04/2025"]
          sampleXmlOpts.toTallyOpts none) =
        some (tallyPieces (fun _ _ _ _ => .indirectExpenses) id [markedTxn "05/04/2025"]
          sampleXmlOpts.toTallyOpts none) ∧
      read (genGenericXml [markedTxn "05/04/2025"] sampleXmlOpts) =
        some (genericPieces [markedTxn "05/04/2025"] sampleXmlOpts) :=
  (read_documents_iff (hasXmlTexts_markedTxn (by decide +kernel)) hasXmlTexts_sampleXmlOpts).mpr (by
    have hledger : ∀ c ∈ (postingLedger (markedTxn "05/04/2025")).toList, c ≠ '\t' ∧ c ≠ '\n' :=
      forall_mem_of_all (by decide +kernel)
    have htally : IsCharData (toTallyDate "05/04/2025").toList := by decide +kernel
    have hdate : IsCharData (dateToIso "05/04/2025").toList := by decide +kernel
    refine ⟨⟨fun _ => ⟨forall_mem_of_all (by decide +kernel), fun t ht => ?_⟩,
      fun t ht => ?_⟩, fun t ht => ?_⟩
    · obtain rfl := List.mem_singleton.mp (List.mem_of_mem_filter ht)
      exact hledger
    · obtain rfl := List.mem_singleton.mp (List.mem_of_mem_filter ht)
      exact htally
    · obtain rfl := List.mem_singleton.mp (List.mem_of_mem_filter ht)
      exact hdate)

/-- The marks in a date are not. -/
theorem marked_date_is_misread :
    (∀ t ∈ [markedTxn "<b>"], HasXmlTexts t) ∧ sampleXmlOpts.HasXmlTexts ∧
      sampleXmlOpts.includeNarrations = true ∧
      read (generate (fun _ _ _ _ => .indirectExpenses) id [markedTxn "<b>"]
          sampleXmlOpts.toTallyOpts none) ≠
        some (tallyPieces (fun _ _ _ _ => .indirectExpenses) id [markedTxn "<b>"]
          sampleXmlOpts.toTallyOpts none) ∧
      read (genGenericXml [markedTxn "<b>"] sampleXmlOpts) ≠
        some (genericPieces [markedTxn "<b>"] sampleXmlOpts) := by
  have htxns : ∀ t ∈ [markedTxn "<b>"], HasXmlTexts t := hasXmlTexts_markedTxn (by decide +kernel)
  refine ⟨htxns, hasXmlTexts_sampleXmlOpts, rfl, ?_, ?_⟩
  · rw [Ne, read_generate_iff htxns hasXmlTexts_sampleXmlOpts.company
      hasXmlTexts_sampleXmlOpts.bankLedger]
    have hmark : ¬ IsCharData (toTallyDate "<b>").toList := by decide +kernel
    exact fun h => hmark (h.2 (markedTxn "<b>") (List.mem_filter.mpr ⟨List.mem_singleton_self _, by
      decide +kernel⟩))
  · rw [Ne, read_genGenericXml_iff htxns hasXmlTexts_sampleXmlOpts]
    have hmark : ¬ IsCharData (dateToIso "<b>").toList := by decide +kernel
    exact fun h => hmark (h (markedTxn "<b>") (List.mem_filter.mpr ⟨List.mem_singleton_self _, by
      decide +kernel⟩))

end Desktop.Export
