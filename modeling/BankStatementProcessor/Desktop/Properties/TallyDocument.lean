import BankStatementProcessor.Desktop.Export.AccountingFiles
import BankStatementProcessor.Infra.DisplayText
import BankStatementProcessor.Infra.Unicode
import BankStatementProcessor.Infra.XmlText

/-!
# The Tally document

It is read as it is meant, with the ledgers and one voucher for each transaction selected, wherever
a text is escaped. Dates are not, and a name in an attribute keeps no line feed and no tab.
-/

namespace Desktop.Export

open Infra Infra.Xml

/-! ## Escaping -/

theorem x_eq_escape (s : String) : x s = escape s.toList := by
  unfold x replaceChar escape
  rw [List.flatMap_assoc, List.flatMap_assoc, List.flatMap_assoc, List.flatMap_assoc]
  refine List.flatMap_congr fun c _ => ?_
  rcases escapeChar_cases c with (rfl | rfl | rfl | rfl | rfl) | ⟨heq, hamp, hlt, hgt, hquote⟩
  · rfl
  · rfl
  · rfl
  · rfl
  · rfl
  · by_cases hapos : c = '\x27'
    · subst hapos
      rfl
    · rw [heq]
      simp only [if_neg hamp, if_neg hlt, if_neg hgt, if_neg hquote, if_neg hapos,
        List.flatMap_singleton]

/-- Text in which nothing is escaped. -/
def IsUnescaped (s : Text) : Prop := IsXmlText s ∧ escape s = s

instance : DecidablePred IsUnescaped := fun s =>
  inferInstanceAs (Decidable (IsXmlText s ∧ escape s = s))

theorem isUnescaped_of_forall {s : Text}
    (h : ∀ c ∈ s, (isXmlChar c = true ∧ c ≠ '\r') ∧ Xml.escapeChar c = [c]) : IsUnescaped s :=
  ⟨fun c hc => (h c hc).1, by
    rw [escape, List.flatMap_congr fun c hc => (h c hc).2, List.flatMap_singleton']⟩

theorem isUnescaped_digit {c : Char} (h : c.isDigit = true) :
    (isXmlChar c = true ∧ c ≠ '\r') ∧ Xml.escapeChar c = [c] := by
  have hne : ∀ d : Char, d.isDigit = false → c ≠ d := by
    rintro d hd rfl
    rw [h] at hd
    cases hd
  simp only [Char.isDigit, Bool.and_eq_true, decide_eq_true_eq, UInt32.le_iff_toNat_le] at h
  obtain ⟨hlower, hupper⟩ := h
  have hlower : 48 ≤ c.toNat := hlower
  have hupper : c.toNat ≤ 57 := hupper
  refine ⟨⟨?_, hne _ (by decide)⟩, ?_⟩
  · simp only [isXmlChar, Bool.or_eq_true, Bool.and_eq_true, decide_eq_true_eq]
    omega
  · rcases escapeChar_cases c with (rfl | rfl | rfl | rfl | rfl) | ⟨heq, -⟩
    · exact absurd rfl (hne '&' (by decide))
    · exact absurd rfl (hne '<' (by decide))
    · exact absurd rfl (hne '>' (by decide))
    · exact absurd rfl (hne '"' (by decide))
    · exact absurd rfl (hne '\x27' (by decide))
    · exact heq

/-- The text of an amount. -/
theorem isUnescaped_fixed (a : F64) : IsUnescaped (F64.fixed 2 a).toList := by
  cases a with
  | nan => decide +kernel
  | infinite negative => cases negative <;> decide +kernel
  | finite q =>
    refine isUnescaped_of_forall fun c hc => ?_
    rw [F64.fixed, String.toList_append, List.mem_append] at hc
    rcases hc with hc | hc
    · split at hc
      · obtain rfl := List.mem_singleton.mp hc
        decide
      · cases hc
    · rcases F64.mem_decimal hc with hdigit | rfl
      · exact isUnescaped_digit hdigit
      · decide

theorem isUnescaped_amountText (e : LedgerEntry) : IsUnescaped e.amountText.toList := by
  obtain ⟨hchars, hescape⟩ := isUnescaped_fixed e.amount
  unfold LedgerEntry.amountText
  split
  · rw [String.toList_append]
    refine ⟨List.forall_mem_append.mpr ⟨forall_mem_of_all (by decide), hchars⟩, ?_⟩
    rw [escape, List.flatMap_append, ← escape, ← escape, hescape]
    rfl
  · exact ⟨hchars, hescape⟩

/-! ## What the documents hold -/

/-- An element with text only. -/
def leaf (before : Text) (name : String) (text : Text) : List Xml.Piece :=
  [⟨before, .start ⟨name.toList, []⟩⟩, ⟨text, .close name.toList⟩]

def LedgerEntry.pieces (e : LedgerEntry) : List Xml.Piece :=
  [⟨[], .start ⟨"ALLLEDGERENTRIES.LIST".toList, []⟩⟩] ++
    leaf [] "LEDGERNAME" e.ledgerName.toList ++
    leaf [] "ISDEEMEDPOSITIVE" (if e.isDeemedPositive then "Yes" else "No").toList ++
    leaf [] "AMOUNT" e.amountText.toList ++
    [⟨[], .close "ALLLEDGERENTRIES.LIST".toList⟩]

/-- The tag around a ledger or a voucher. -/
def tallyMessage : Tag :=
  ⟨"TALLYMESSAGE".toList, [("xmlns:UDF".toList, "TallyUDF".toList)]⟩

def Voucher.pieces (v : Voucher) : List Xml.Piece :=
  [⟨"\n        ".toList, .start tallyMessage⟩] ++
    [⟨[], .start ⟨"VOUCHER".toList,
      [("VCHTYPE".toList, v.vchType.toList), ("ACTION".toList, "Create".toList)]⟩⟩] ++
    leaf [] "DATE" v.date.toList ++ leaf [] "NARRATION" v.narration.toList ++
    leaf [] "VOUCHERTYPENAME" v.vchType.toList ++ v.entries.flatMap LedgerEntry.pieces ++
    [⟨[], .close "VOUCHER".toList⟩, ⟨[], .close tallyMessage.name⟩]

/-- The master of a ledger. -/
def ledgerPieces (name group : String) : List Xml.Piece :=
  [⟨"\n        ".toList, .start tallyMessage⟩] ++
    [⟨[], .start ⟨"LEDGER".toList,
      [("NAME".toList, name.toList), ("ACTION".toList, "Create".toList)]⟩⟩] ++
    leaf [] "NAME" name.toList ++ leaf [] "PARENT" group.toList ++
    [⟨[], .close "LEDGER".toList⟩, ⟨[], .close tallyMessage.name⟩]

/-! ## Ledgers and vouchers -/

/-- The elements that the ledgers and the vouchers stand in. -/
def requestData : List Text :=
  ["REQUESTDATA".toList, "IMPORTDATA".toList, "BODY".toList, "ENVELOPE".toList]

section

variable {e : LedgerEntry} {v : Voucher} {op : List Text} {n : Text} {s : Text}

theorem isName (name : String) (h : isNameText name.toList = true) : IsName name.toList :=
  isName_of_isNameText h

/-- An element with text in which nothing is escaped. -/
theorem segment_unescaped {name : Text} (h : IsName name) (hs : IsUnescaped s) (acc : Text)
    (b : ℕ) : Segment (n :: op) (.content acc b) (startTag name ++ s ++ endTag name)
      [⟨acc, .start ⟨name, []⟩⟩, ⟨s, .close name⟩] (n :: op) (.content [] 0) True := by
  have hleaf : Segment (n :: op) (.content acc b) (startTag name ++ escape s ++ endTag name)
      [⟨acc, .start ⟨name, []⟩⟩, ⟨s, .close name⟩] (n :: op) (.content [] 0) True :=
    .leaf h hs.1 acc b
  rwa [hs.2] at hleaf

theorem LedgerEntry.xml_eq (e : LedgerEntry) : e.xml =
    startTag "ALLLEDGERENTRIES.LIST".toList ++
      (startTag "LEDGERNAME".toList ++ escape e.ledgerName.toList ++ endTag "LEDGERNAME".toList) ++
      (startTag "ISDEEMEDPOSITIVE".toList ++ (if e.isDeemedPositive then "Yes" else "No").toList ++
        endTag "ISDEEMEDPOSITIVE".toList) ++
      (startTag "AMOUNT".toList ++ e.amountText.toList ++ endTag "AMOUNT".toList) ++
      endTag "ALLLEDGERENTRIES.LIST".toList := by
  have hopen : "<ALLLEDGERENTRIES.LIST><LEDGERNAME>".toList =
      startTag "ALLLEDGERENTRIES.LIST".toList ++ startTag "LEDGERNAME".toList := by decide +kernel
  have hside : "</LEDGERNAME><ISDEEMEDPOSITIVE>".toList =
      endTag "LEDGERNAME".toList ++ startTag "ISDEEMEDPOSITIVE".toList := by decide +kernel
  have hamount : "</ISDEEMEDPOSITIVE><AMOUNT>".toList =
      endTag "ISDEEMEDPOSITIVE".toList ++ startTag "AMOUNT".toList := by decide +kernel
  have hclose : "</AMOUNT></ALLLEDGERENTRIES.LIST>".toList =
      endTag "AMOUNT".toList ++ endTag "ALLLEDGERENTRIES.LIST".toList := by decide +kernel
  unfold LedgerEntry.xml
  rw [x_eq_escape, hopen, hside, hamount, hclose]
  simp only [List.append_assoc]

theorem LedgerEntry.segment (h : IsXmlText e.ledgerName.toList) (b : ℕ) :
    Segment (n :: op) (.content [] b) e.xml e.pieces (n :: op) (.content [] 0) True := by
  have hyes : IsUnescaped (if e.isDeemedPositive then "Yes" else "No").toList := by
    cases e.isDeemedPositive <;> decide +kernel
  have hlist := isName "ALLLEDGERENTRIES.LIST" (by decide +kernel)
  have hopen : Segment (n :: op) (.content [] b) (startTag "ALLLEDGERENTRIES.LIST".toList)
      [⟨[], .start ⟨"ALLLEDGERENTRIES.LIST".toList, []⟩⟩] _ (.content [] 0) True :=
    .startTag hlist [] b
  have hentry := (((hopen.append
    (.leaf (isName "LEDGERNAME" (by decide +kernel)) h [] 0)).append
    (segment_unescaped (isName "ISDEEMEDPOSITIVE" (by decide +kernel)) hyes [] 0)).append
    (segment_unescaped (isName "AMOUNT" (by decide +kernel)) (isUnescaped_amountText e) [] 0)).append
    (.endTag hlist [] 0)
  rw [e.xml_eq]
  exact hentry.congr (by simp)

/-- A text that stands in an attribute as it is. -/
def IsPlainValue (s : Text) : Prop := IsUnescaped s ∧ normalSpace s = s

instance : DecidablePred IsPlainValue := fun s =>
  inferInstanceAs (Decidable (IsUnescaped s ∧ normalSpace s = s))

theorem Voucher.xml_eq (v : Voucher) (h : IsPlainValue v.vchType.toList) : v.xml =
    "        <TALLYMESSAGE xmlns:UDF=\"TallyUDF\"><VOUCHER VCHTYPE=\"".toList ++
      (escape v.vchType.toList ++ "\" ACTION=\"Create\">".toList) ++
      (startTag "DATE".toList ++ (v.date.toList ++ endTag "DATE".toList)) ++
      (startTag "NARRATION".toList ++ escape v.narration.toList ++ endTag "NARRATION".toList) ++
      (startTag "VOUCHERTYPENAME".toList ++ v.vchType.toList ++
        endTag "VOUCHERTYPENAME".toList) ++
      v.entries.flatMap LedgerEntry.xml ++ "</VOUCHER></TALLYMESSAGE>\n".toList := by
  have hdate : "\" ACTION=\"Create\"><DATE>".toList =
      "\" ACTION=\"Create\">".toList ++ startTag "DATE".toList := by decide +kernel
  have hnarration : "</DATE><NARRATION>".toList =
      endTag "DATE".toList ++ startTag "NARRATION".toList := by decide +kernel
  have htype : "</NARRATION><VOUCHERTYPENAME>".toList =
      endTag "NARRATION".toList ++ startTag "VOUCHERTYPENAME".toList := by decide +kernel
  have hclose : "</VOUCHERTYPENAME>".toList = endTag "VOUCHERTYPENAME".toList := by decide +kernel
  unfold Voucher.xml
  rw [x_eq_escape, hdate, hnarration, htype, hclose, h.1.2]
  simp only [List.append_assoc]

/-- A voucher is read as it is meant just where its date is character data. -/
theorem Voucher.segment (htype : IsPlainValue v.vchType.toList) (hdate : IsXmlText v.date.toList)
    (hnarration : IsXmlText v.narration.toList)
    (hentries : ∀ e ∈ v.entries, IsXmlText e.ledgerName.toList) :
    Segment requestData (.content ['\n'] 0) v.xml v.pieces requestData (.content ['\n'] 0)
      (IsCharData v.date.toList) := by
  have hopen : Segment requestData (.content ['\n'] 0)
      "        <TALLYMESSAGE xmlns:UDF=\"TallyUDF\"><VOUCHER VCHTYPE=\"".toList
      [⟨"\n        ".toList, .start tallyMessage⟩] (tallyMessage.name :: requestData)
      (.value [] ⟨"VOUCHER".toList, []⟩ "VCHTYPE".toList '"' []) True :=
    .fixed (by decide +kernel) (by decide +kernel)
  have hvalue : Segment (tallyMessage.name :: requestData)
      (.value [] ⟨"VOUCHER".toList, []⟩ "VCHTYPE".toList '"' [])
      (escape v.vchType.toList ++ "\" ACTION=\"Create\">".toList)
      [⟨[], .start ⟨"VOUCHER".toList,
        [("VCHTYPE".toList, v.vchType.toList), ("ACTION".toList, "Create".toList)]⟩⟩]
      ("VOUCHER".toList :: tallyMessage.name :: requestData) (.content [] 0)
      (normalSpace v.vchType.toList = v.vchType.toList) :=
    .value htype.1.1 (by decide +kernel) fun _ _ => rfl
  have hclose : Segment ("VOUCHER".toList :: tallyMessage.name :: requestData) (.content [] 0)
      "</VOUCHER></TALLYMESSAGE>\n".toList
      [⟨[], .close "VOUCHER".toList⟩, ⟨[], .close tallyMessage.name⟩] requestData
      (.content ['\n'] 0) True :=
    .fixed (by decide +kernel) (by decide +kernel)
  have hlist : Segment ("VOUCHER".toList :: tallyMessage.name :: requestData) (.content [] 0)
      (v.entries.flatMap LedgerEntry.xml) (v.entries.flatMap LedgerEntry.pieces)
      ("VOUCHER".toList :: tallyMessage.name :: requestData) (.content [] 0)
      (∀ e ∈ v.entries, True) :=
    .flatMap fun e he => e.segment (hentries e he) 0
  have hvoucher := (((((hopen.append hvalue).append
    (.rawLeaf (isName "DATE" (by decide +kernel)) hdate [] 0)).append
    (.leaf (isName "NARRATION" (by decide +kernel)) hnarration [] 0)).append
    (segment_unescaped (isName "VOUCHERTYPENAME" (by decide +kernel)) htype.1 [] 0)).append
    hlist).append hclose
  rw [v.xml_eq htype]
  exact hvoucher.congr (by simp [htype.2])

theorem ledgerMaster_eq (name group : String) : ledgerMaster name group =
    "        <TALLYMESSAGE xmlns:UDF=\"TallyUDF\"><LEDGER NAME=\"".toList ++
      (escape name.toList ++ "\" ACTION=\"Create\">".toList) ++
      (startTag "NAME".toList ++ escape name.toList ++ endTag "NAME".toList) ++
      (startTag "PARENT".toList ++ escape group.toList ++ endTag "PARENT".toList) ++
      "</LEDGER></TALLYMESSAGE>\n".toList := by
  have hname : "\" ACTION=\"Create\"><NAME>".toList =
      "\" ACTION=\"Create\">".toList ++ startTag "NAME".toList := by decide +kernel
  have hparent : "</NAME><PARENT>".toList =
      endTag "NAME".toList ++ startTag "PARENT".toList := by decide +kernel
  have hclose : "</PARENT></LEDGER></TALLYMESSAGE>\n".toList =
      endTag "PARENT".toList ++ "</LEDGER></TALLYMESSAGE>\n".toList := by decide +kernel
  unfold ledgerMaster
  rw [x_eq_escape, x_eq_escape, hname, hparent, hclose]
  simp only [List.append_assoc]

/-- The master of a ledger is read as it is meant just where its name keeps its white space. -/
theorem segment_ledgerMaster {name group : String} (hname : IsXmlText name.toList)
    (hgroup : IsXmlText group.toList) :
    Segment requestData (.content ['\n'] 0) (ledgerMaster name group) (ledgerPieces name group)
      requestData (.content ['\n'] 0) (normalSpace name.toList = name.toList) := by
  have hopen : Segment requestData (.content ['\n'] 0)
      "        <TALLYMESSAGE xmlns:UDF=\"TallyUDF\"><LEDGER NAME=\"".toList
      [⟨"\n        ".toList, .start tallyMessage⟩] (tallyMessage.name :: requestData)
      (.value [] ⟨"LEDGER".toList, []⟩ "NAME".toList '"' []) True :=
    .fixed (by decide +kernel) (by decide +kernel)
  have hvalue : Segment (tallyMessage.name :: requestData)
      (.value [] ⟨"LEDGER".toList, []⟩ "NAME".toList '"' [])
      (escape name.toList ++ "\" ACTION=\"Create\">".toList)
      [⟨[], .start ⟨"LEDGER".toList,
        [("NAME".toList, name.toList), ("ACTION".toList, "Create".toList)]⟩⟩]
      ("LEDGER".toList :: tallyMessage.name :: requestData) (.content [] 0)
      (normalSpace name.toList = name.toList) :=
    .value hname (by decide +kernel) fun _ _ => rfl
  have hclose : Segment ("LEDGER".toList :: tallyMessage.name :: requestData) (.content [] 0)
      "</LEDGER></TALLYMESSAGE>\n".toList
      [⟨[], .close "LEDGER".toList⟩, ⟨[], .close tallyMessage.name⟩] requestData
      (.content ['\n'] 0) True :=
    .fixed (by decide +kernel) (by decide +kernel)
  have hmaster := (((hopen.append hvalue).append
    (.leaf (isName "NAME" (by decide +kernel)) hname [] 0)).append
    (.leaf (isName "PARENT" (by decide +kernel)) hgroup [] 0)).append hclose
  rw [ledgerMaster_eq]
  exact hmaster.congr (by simp)

end

/-! ## Texts -/

/-- The texts of a transaction that are exported. -/
structure HasXmlTexts (t : Transaction) : Prop where
  date : IsXmlText t.date.toList
  narration : IsXmlText t.narration.toList
  reference : IsXmlText t.reference.toList
  vendor : IsXmlText t.vendor.toList
  accountHead : IsXmlText t.accountHead.toList
  bankName : IsXmlText t.bankName.toList

section

variable {t : Transaction} {opts : TallyOpts} {s : String}

theorem isXmlText_zfill2 {s : Text} (h : IsXmlText s) : IsXmlText (zfill2 s) := by
  refine IsXmlText.append (fun c hc => ?_) h
  rw [List.eq_of_mem_replicate hc]
  decide

theorem isXmlText_dateParts {d m y : Text} (h : IsXmlText s.toList)
    (hparts : dateParts s = some (d, m, y)) : IsXmlText d ∧ IsXmlText m ∧ IsXmlText y := by
  unfold dateParts at hparts
  split at hparts
  · next d' m' y' hsplit =>
    have hjoin : ['/'].intercalate [d', m', y'] = s.toList := by
      rw [← hsplit, List.intercalate_splitOn]
    have hall : ∀ part ∈ [d', m', y'], IsXmlText part := by
      intro part hpart c hc
      refine h c ?_
      rw [← hjoin]
      simp only [List.mem_cons, List.not_mem_nil, or_false] at hpart
      rcases hpart with rfl | rfl | rfl <;> simp [List.intercalate_cons_cons, hc]
    split at hparts
    · cases hparts
      exact ⟨isXmlText_zfill2 (hall _ (by simp)), isXmlText_zfill2 (hall _ (by simp)),
        hall _ (by simp)⟩
    · cases hparts
  · cases hparts

theorem isXmlText_toTallyDate (h : IsXmlText s.toList) : IsXmlText (toTallyDate s).toList := by
  unfold toTallyDate
  split
  · next d m y hparts =>
    obtain ⟨hd, hm, hy⟩ := isXmlText_dateParts h hparts
    rw [String.toList_ofList]
    exact (hy.append hm).append hd
  · rw [String.toList_ofList]
    exact fun c hc => h c (List.mem_of_mem_filter hc)

theorem isXmlText_dateToIso (h : IsXmlText s.toList) : IsXmlText (dateToIso s).toList := by
  unfold dateToIso toIsoDate
  split
  · next d m y hparts =>
    obtain ⟨hd, hm, hy⟩ := isXmlText_dateParts h hparts
    rw [String.toList_ofList]
    have hdash : IsXmlText ['-'] := by decide
    exact (hy.append (hdash.append hm)).append (hdash.append hd)
  · exact h

theorem isXmlText_bankLedgerName (ht : HasXmlTexts t) {bankLedger : String}
    (h : IsXmlText bankLedger.toList) : IsXmlText (bankLedgerName t bankLedger).toList := by
  unfold bankLedgerName
  split
  · exact h
  · split
    · have hname : s!"{t.bankName} A/c".toList = t.bankName.toList ++ " A/c".toList := by
        rw [← String.toList_append]
        rfl
      rw [hname]
      exact ht.bankName.append (by decide +kernel)
    · decide +kernel

theorem isXmlText_postingLedger (ht : HasXmlTexts t) : IsXmlText (postingLedger t).toList := by
  unfold postingLedger
  split
  · exact ht.accountHead
  · split
    · exact ht.vendor
    · decide +kernel

theorem isPlainValue_voucherType (t : Transaction) : IsPlainValue (voucherType t).toList := by
  have hplain : ∀ name ∈ ["Receipt", "Contra", "Payment"], IsPlainValue name.toList := by
    decide +kernel
  refine hplain _ ?_
  unfold voucherType
  split
  · simp
  · simp
  · simp
  · dsimp only
    split_ifs <;> simp

/-- What is escaped in a voucher, and its date, are texts of a document. -/
structure Voucher.HasXmlTexts (v : Voucher) : Prop where
  vchType : IsPlainValue v.vchType.toList
  date : IsXmlText v.date.toList
  narration : IsXmlText v.narration.toList
  ledgerNames : ∀ e ∈ v.entries, IsXmlText e.ledgerName.toList

theorem hasXmlTexts_txnVoucher (ht : HasXmlTexts t) (h : IsXmlText opts.bankLedger.toList) :
    (txnVoucher t opts).HasXmlTexts := by
  have hbank := isXmlText_bankLedgerName ht h
  have hledger := isXmlText_postingLedger ht
  have hcash : IsXmlText "Cash".toList := by decide +kernel
  have hsides : IsXmlText (voucherSides t opts).1.toList ∧
      IsXmlText (voucherSides t opts).2.toList := by
    unfold voucherSides
    dsimp only
    split
    · exact ⟨hbank, hledger⟩
    · exact ⟨hbank, hcash⟩
    · exact ⟨hledger, hbank⟩
  refine ⟨isPlainValue_voucherType t, isXmlText_toTallyDate ht.date, ?_, ?_⟩
  · unfold txnVoucher
    dsimp only
    split
    · exact ht.narration
    · decide +kernel
  · simpa [txnVoucher] using hsides

theorem hasXmlTexts_obVoucher {date : String} {ob : F64} (hdate : IsXmlText date.toList)
    (h : IsXmlText opts.bankLedger.toList) : (obVoucher date ob opts).HasXmlTexts := by
  have hcapital : IsXmlText "Capital Account".toList := by decide +kernel
  have htype : IsPlainValue "Journal".toList := by decide +kernel
  refine ⟨htype, isXmlText_toTallyDate hdate, ?_, ?_⟩
  · unfold obVoucher
    dsimp only
    split <;> decide +kernel
  · simpa only [obVoucher, List.forall_mem_cons, List.not_mem_nil, false_imp_iff, implies_true,
      and_true] using ⟨h, hcapital⟩

theorem mem_vouchers {v : Voucher} {txns : List Transaction} {openingBal : Option F64}
    (hv : v ∈ vouchers txns opts openingBal) :
    ∃ t ∈ tallySelected txns opts, v = txnVoucher t opts ∨ ∃ ob, v = obVoucher t.date ob opts := by
  rw [vouchers, List.mem_append] at hv
  rcases hv with hv | hv
  · unfold obVouchers at hv
    split at hv
    · split at hv
      · next _ ob t _ hreal =>
        exact ⟨t, hreal ▸ List.mem_cons_self, .inr ⟨ob, List.mem_singleton.mp hv⟩⟩
      · cases hv
    · cases hv
  · obtain ⟨t, ht, rfl⟩ := List.mem_map.mp hv
    exact ⟨t, ht, .inl rfl⟩

theorem isXmlText_tallyGroup (g : TallyGroup) : IsXmlText g.name.toList := by
  cases g <;> decide +kernel

/-- The ledgers are that of the bank and those that are posted to. -/
theorem exists_mem_ledgers_iff {classify : ClassifyGroup} {fl : F64 → F64}
    {real : List Transaction} {name : String} :
    (∃ l ∈ ledgers classify fl real opts, l.1 = name) ↔
      (opts.bankLedger.isEmpty = false ∧ opts.bankLedger = name) ∨
        ∃ t ∈ real, postingLedger t = name := by
  have hseen : ∀ seen : List (String × TallyGroup),
      (∃ l ∈ real.foldl (fun seen t =>
          if seen.any (·.1 = postingLedger t) then seen
          else seen ++ [(postingLedger t, ledgerGroup classify fl t)]) seen, l.1 = name) ↔
        (∃ l ∈ seen, l.1 = name) ∨ ∃ t ∈ real, postingLedger t = name := by
    induction real with
    | nil => simp
    | cons t real ih =>
      intro seen
      rw [List.foldl_cons, ih, List.exists_mem_cons_iff, ← or_assoc]
      refine or_congr_left ?_
      split
      · next hany =>
        obtain ⟨l, hl, hname⟩ := List.any_eq_true.mp hany
        refine (or_iff_left_of_imp fun hledger => ⟨l, hl, ?_⟩).symm
        exact (of_decide_eq_true hname).trans hledger
      · simp [or_and_right, exists_or]
  rw [ledgers, hseen]
  refine or_congr_left ?_
  split <;> simp [*]

end

/-! ## The Tally document -/

/-- The pieces before the ledgers and the vouchers. The first is that of the root. -/
def tallyHeader (company : String) : List Xml.Piece :=
  [⟨"\n".toList, .start ⟨"ENVELOPE".toList, []⟩⟩] ++
    ([⟨"\n  ".toList, .start ⟨"HEADER".toList, []⟩⟩] ++
      leaf "\n    ".toList "TALLYREQUEST" "Import Data".toList ++
      [⟨"\n  ".toList, .close "HEADER".toList⟩, ⟨"\n  ".toList, .start ⟨"BODY".toList, []⟩⟩,
        ⟨"\n    ".toList, .start ⟨"IMPORTDATA".toList, []⟩⟩,
        ⟨"\n      ".toList, .start ⟨"REQUESTDESC".toList, []⟩⟩] ++
      leaf "\n        ".toList "REPORTNAME" "Vouchers".toList ++
      [⟨"\n        ".toList, .start ⟨"STATICVARIABLES".toList, []⟩⟩] ++
      leaf [] "SVCURRENTCOMPANY" company.toList ++
      [⟨[], .close "STATICVARIABLES".toList⟩, ⟨"\n      ".toList, .close "REQUESTDESC".toList⟩,
        ⟨"\n      ".toList, .start ⟨"REQUESTDATA".toList, []⟩⟩])

def tallyFooter : List Xml.Piece :=
  [⟨"\n      ".toList, .close "REQUESTDATA".toList⟩,
    ⟨"\n    ".toList, .close "IMPORTDATA".toList⟩, ⟨"\n  ".toList, .close "BODY".toList⟩,
    ⟨"\n".toList, .close "ENVELOPE".toList⟩]

/-- What the Tally document is meant to hold. -/
def tallyPieces (classify : ClassifyGroup) (fl : F64 → F64) (txns : List Transaction)
    (opts : TallyOpts) (openingBal : Option F64) : List Xml.Piece :=
  tallyHeader opts.company ++
    (if opts.includeLedgers then
      (ledgers classify fl (tallySelected txns opts) opts).flatMap
        fun l => ledgerPieces l.1 l.2.name
    else []) ++
    (vouchers txns opts openingBal).flatMap Voucher.pieces ++ tallyFooter

section

variable {t : Transaction} {txns : List Transaction} {opts : TallyOpts} {openingBal : Option F64}
  {classify : ClassifyGroup} {fl : F64 → F64}

theorem segment_tallyHeader {company : String} (h : IsXmlText company.toList) :
    Segment ["ENVELOPE".toList] (.content [] 0)
      ("\n  <HEADER>\n    <TALLYREQUEST>Import Data</TALLYREQUEST>\n".toList ++
        "  </HEADER>\n  <BODY>\n    <IMPORTDATA>\n      <REQUESTDESC>\n".toList ++
        "        <REPORTNAME>Vouchers</REPORTNAME>\n".toList ++
        "        <STATICVARIABLES>".toList ++
        (startTag "SVCURRENTCOMPANY".toList ++ escape company.toList ++
          endTag "SVCURRENTCOMPANY".toList) ++
        ("</STATICVARIABLES>\n".toList ++
          "      </REQUESTDESC>\n      <REQUESTDATA>\n".toList))
      (tallyHeader company).tail requestData (.content ['\n'] 0) True := by
  have hopen : Segment ["ENVELOPE".toList] (.content [] 0)
      ("\n  <HEADER>\n    <TALLYREQUEST>Import Data</TALLYREQUEST>\n".toList ++
        "  </HEADER>\n  <BODY>\n    <IMPORTDATA>\n      <REQUESTDESC>\n".toList ++
        "        <REPORTNAME>Vouchers</REPORTNAME>\n".toList ++
        "        <STATICVARIABLES>".toList)
      ([⟨"\n  ".toList, .start ⟨"HEADER".toList, []⟩⟩] ++
        leaf "\n    ".toList "TALLYREQUEST" "Import Data".toList ++
        [⟨"\n  ".toList, .close "HEADER".toList⟩, ⟨"\n  ".toList, .start ⟨"BODY".toList, []⟩⟩,
          ⟨"\n    ".toList, .start ⟨"IMPORTDATA".toList, []⟩⟩,
          ⟨"\n      ".toList, .start ⟨"REQUESTDESC".toList, []⟩⟩] ++
        leaf "\n        ".toList "REPORTNAME" "Vouchers".toList ++
        [⟨"\n        ".toList, .start ⟨"STATICVARIABLES".toList, []⟩⟩])
      ["STATICVARIABLES".toList, "REQUESTDESC".toList, "IMPORTDATA".toList, "BODY".toList,
        "ENVELOPE".toList] (.content [] 0) True :=
    .fixed (by decide +kernel) (by decide +kernel)
  have hclose : Segment ["STATICVARIABLES".toList, "REQUESTDESC".toList, "IMPORTDATA".toList,
        "BODY".toList, "ENVELOPE".toList] (.content [] 0)
      ("</STATICVARIABLES>\n".toList ++ "      </REQUESTDESC>\n      <REQUESTDATA>\n".toList)
      [⟨[], .close "STATICVARIABLES".toList⟩, ⟨"\n      ".toList, .close "REQUESTDESC".toList⟩,
        ⟨"\n      ".toList, .start ⟨"REQUESTDATA".toList, []⟩⟩]
      requestData (.content ['\n'] 0) True :=
    .fixed (by decide +kernel) (by decide +kernel)
  exact ((hopen.append (.leaf (isName "SVCURRENTCOMPANY" (by decide +kernel)) h [] 0)).append
    hclose).congr (by simp)

theorem segment_tallyFooter : Segment requestData (.content ['\n'] 0)
    "      </REQUESTDATA>\n    </IMPORTDATA>\n  </BODY>\n</ENVELOPE>\n".toList tallyFooter []
    (.content ['\n'] 0) True :=
  .fixed (by decide +kernel) (by decide +kernel)

/-- The names of the ledgers are read as they are just where they keep their white space. -/
theorem segment_ledgers (htxns : ∀ t ∈ txns, HasXmlTexts t)
    (hbank : IsXmlText opts.bankLedger.toList) :
    Segment requestData (.content ['\n'] 0)
      ((ledgers classify fl (tallySelected txns opts) opts).flatMap
        fun l => ledgerMaster l.1 l.2.name)
      ((ledgers classify fl (tallySelected txns opts) opts).flatMap
        fun l => ledgerPieces l.1 l.2.name)
      requestData (.content ['\n'] 0)
      ((∀ c ∈ opts.bankLedger.toList, c ≠ '\t' ∧ c ≠ '\n') ∧
        ∀ t ∈ tallySelected txns opts, ∀ c ∈ (postingLedger t).toList, c ≠ '\t' ∧ c ≠ '\n') := by
  have hposted : ∀ t ∈ tallySelected txns opts, IsXmlText (postingLedger t).toList :=
    fun t ht => isXmlText_postingLedger (htxns t (List.mem_of_mem_filter ht))
  have hname : ∀ l ∈ ledgers classify fl (tallySelected txns opts) opts,
      IsXmlText l.1.toList := by
    intro l hl
    rcases exists_mem_ledgers_iff.mp ⟨l, hl, rfl⟩ with ⟨-, heq⟩ | ⟨t, ht, heq⟩
    · exact heq ▸ hbank
    · exact heq ▸ hposted t ht
  refine (Segment.flatMap fun l hl =>
    segment_ledgerMaster (hname l hl) (isXmlText_tallyGroup l.2)).congr ?_
  constructor
  · intro hkeep
    have hall : ∀ name : String, (∃ l ∈ ledgers classify fl (tallySelected txns opts) opts,
        l.1 = name) → ∀ c ∈ name.toList, c ≠ '\t' ∧ c ≠ '\n' := by
      rintro - ⟨l, hl, rfl⟩
      exact (normalSpace_eq_iff (hname l hl)).mp (hkeep l hl)
    refine ⟨?_, fun t ht => hall _ (exists_mem_ledgers_iff.mpr (.inr ⟨t, ht, rfl⟩))⟩
    by_cases hempty : opts.bankLedger = ""
    · rw [hempty]
      exact List.forall_mem_nil _
    · refine hall _ (exists_mem_ledgers_iff.mpr (.inl ⟨?_, rfl⟩))
      simpa using hempty
  · rintro ⟨hbankLedger, hledgers⟩ l hl
    rw [normalSpace_eq_iff (hname l hl)]
    rcases exists_mem_ledgers_iff.mp ⟨l, hl, rfl⟩ with ⟨-, heq⟩ | ⟨t, ht, heq⟩
    · exact heq ▸ hbankLedger
    · exact heq ▸ hledgers t ht

/-- The vouchers are read as they are meant just where the dates are character data. -/
theorem segment_vouchers (openingBal : Option F64) (htxns : ∀ t ∈ txns, HasXmlTexts t)
    (hbank : IsXmlText opts.bankLedger.toList) :
    Segment requestData (.content ['\n'] 0)
      ((vouchers txns opts openingBal).flatMap Voucher.xml)
      ((vouchers txns opts openingBal).flatMap Voucher.pieces)
      requestData (.content ['\n'] 0)
      (∀ t ∈ tallySelected txns opts, IsCharData (toTallyDate t.date).toList) := by
  have hvoucher : ∀ v ∈ vouchers txns opts openingBal, v.HasXmlTexts := by
    intro v hv
    obtain ⟨t, ht, rfl | ⟨ob, rfl⟩⟩ := mem_vouchers hv
    · exact hasXmlTexts_txnVoucher (htxns t (List.mem_of_mem_filter ht)) hbank
    · exact hasXmlTexts_obVoucher (htxns t (List.mem_of_mem_filter ht)).date hbank
  refine (Segment.flatMap fun v hv => Voucher.segment (hvoucher v hv).vchType
    (hvoucher v hv).date (hvoucher v hv).narration (hvoucher v hv).ledgerNames).congr ?_
  constructor
  · intro hdates t ht
    refine hdates (txnVoucher t opts) ?_
    exact List.mem_append_right _ (List.mem_map.mpr ⟨t, ht, rfl⟩)
  · intro hdates v hv
    obtain ⟨t, ht, rfl | ⟨ob, rfl⟩⟩ := mem_vouchers hv
    · exact hdates t ht
    · exact hdates t ht

theorem generate_eq (classify : ClassifyGroup) (fl : F64 → F64) (txns : List Transaction)
    (opts : TallyOpts) (openingBal : Option F64) :
    generate classify fl txns opts openingBal = declaration ++ ("\n<ENVELOPE>".toList ++
      ("\n  <HEADER>\n    <TALLYREQUEST>Import Data</TALLYREQUEST>\n".toList ++
        "  </HEADER>\n  <BODY>\n    <IMPORTDATA>\n      <REQUESTDESC>\n".toList ++
        "        <REPORTNAME>Vouchers</REPORTNAME>\n".toList ++
        "        <STATICVARIABLES>".toList ++
        (startTag "SVCURRENTCOMPANY".toList ++ escape opts.company.toList ++
          endTag "SVCURRENTCOMPANY".toList) ++
        ("</STATICVARIABLES>\n".toList ++
          "      </REQUESTDESC>\n      <REQUESTDATA>\n".toList) ++
        (if opts.includeLedgers then
          (ledgers classify fl (tallySelected txns opts) opts).flatMap
            fun l => ledgerMaster l.1 l.2.name
        else []) ++
        (vouchers txns opts openingBal).flatMap Voucher.xml ++
        "      </REQUESTDATA>\n    </IMPORTDATA>\n  </BODY>\n</ENVELOPE>\n".toList)) := by
  have hfirst : "<?xml version=\"1.0\" encoding=\"UTF-8\"?>\n".toList =
      declaration ++ "\n".toList := by decide +kernel
  have hroot :
      "<ENVELOPE>\n  <HEADER>\n    <TALLYREQUEST>Import Data</TALLYREQUEST>\n".toList =
        "<ENVELOPE>".toList ++
          "\n  <HEADER>\n    <TALLYREQUEST>Import Data</TALLYREQUEST>\n".toList := by
    decide +kernel
  have hcompany : "        <STATICVARIABLES><SVCURRENTCOMPANY>".toList =
      "        <STATICVARIABLES>".toList ++ startTag "SVCURRENTCOMPANY".toList := by decide +kernel
  have hclose : "</SVCURRENTCOMPANY></STATICVARIABLES>\n".toList =
      endTag "SVCURRENTCOMPANY".toList ++ "</STATICVARIABLES>\n".toList := by decide +kernel
  have henvelope : "\n<ENVELOPE>".toList = "\n".toList ++ "<ENVELOPE>".toList := by decide +kernel
  unfold generate
  rw [x_eq_escape, hfirst, hroot, hcompany, hclose, henvelope]
  simp only [List.append_assoc]

/-- The Tally document is read as it is meant just where no date has a mark in it, and no name of
a ledger that is written holds a tab or a line feed. -/
theorem read_generate_iff (htxns : ∀ t ∈ txns, HasXmlTexts t)
    (hcompany : IsXmlText opts.company.toList) (hbank : IsXmlText opts.bankLedger.toList) :
    read (generate classify fl txns opts openingBal) =
        some (tallyPieces classify fl txns opts openingBal) ↔
      (opts.includeLedgers = true →
        (∀ c ∈ opts.bankLedger.toList, c ≠ '\t' ∧ c ≠ '\n') ∧
          ∀ t ∈ tallySelected txns opts, ∀ c ∈ (postingLedger t).toList, c ≠ '\t' ∧ c ≠ '\n') ∧
        ∀ t ∈ tallySelected txns opts, IsCharData (toTallyDate t.date).toList := by
  have hledgers : Segment requestData (.content ['\n'] 0)
      (if opts.includeLedgers then
        (ledgers classify fl (tallySelected txns opts) opts).flatMap
          fun l => ledgerMaster l.1 l.2.name
      else [])
      (if opts.includeLedgers then
        (ledgers classify fl (tallySelected txns opts) opts).flatMap
          fun l => ledgerPieces l.1 l.2.name
      else []) requestData (.content ['\n'] 0)
      (opts.includeLedgers = true →
        (∀ c ∈ opts.bankLedger.toList, c ≠ '\t' ∧ c ≠ '\n') ∧
          ∀ t ∈ tallySelected txns opts,
            ∀ c ∈ (postingLedger t).toList, c ≠ '\t' ∧ c ≠ '\n') := by
    cases opts.includeLedgers with
    | true => exact (segment_ledgers htxns hbank).congr (by simp)
    | false => exact (Segment.literal List.not_mem_nil fun _ => rfl).congr (by simp)
  have hdocument := (((segment_tallyHeader hcompany).append hledgers).append
    (segment_vouchers openingBal htxns hbank)).append segment_tallyFooter
  have hroot : Reader.init.run "\n<ENVELOPE>".toList =
      some ⟨[⟨"\n".toList, .start ⟨"ENVELOPE".toList, []⟩⟩].reverse, ["ENVELOPE".toList],
        .content [] 0⟩ := by decide +kernel
  have hread := read_iff hroot (by decide +kernel) (List.cons_ne_nil _ _) hdocument rfl
  have hpieces : tallyPieces classify fl txns opts openingBal =
      [⟨"\n".toList, .start ⟨"ENVELOPE".toList, []⟩⟩] ++ ((tallyHeader opts.company).tail ++
        (if opts.includeLedgers then
          (ledgers classify fl (tallySelected txns opts) opts).flatMap
            fun l => ledgerPieces l.1 l.2.name
        else []) ++
        (vouchers txns opts openingBal).flatMap Voucher.pieces ++ tallyFooter) := rfl
  rw [generate_eq, hpieces, hread]
  simp

end

end Desktop.Export
