import BankStatementProcessor.Desktop.Properties.DuplicateRows

/-!
# Classifying twice

A row that has been classified is classified the same way again: what the second call reads of it
is what the first has written or left alone. So nothing changes any more, and rows that are locked
are not touched at all.
-/

namespace Desktop

open Infra

/-! ## One transaction -/

section

variable {parts : ClassifierParts} {bankLedger : String} {rules : List ClassificationRule}
  {gstEnabled gstAutoLedgers : Bool} {t x : Transaction} {upper : List Char}

/-- Every arm of the table names a head and a type. -/
theorem kwArm_of_mem {arm : KwArm} (h : arm ∈ kwArms) :
    arm.head ≠ "" ∧ arm.txnType ≠ .unknown := by
  have hall : ∀ arm ∈ kwArms, arm.head ≠ "" ∧ arm.txnType ≠ .unknown := by decide +kernel
  exact hall arm h

/-- So does every answer. -/
theorem kwResult_of_kwMatch {kw : KwResult} (h : kwMatch parts upper t bankLedger = some kw) :
    kw.head ≠ "" ∧ kw.txnType ≠ .unknown := by
  have hparty : ∀ party other : String, other ≠ "" →
      (if party.isEmpty then other else party) ≠ "" := by
    intro party other hother
    split
    · exact hother
    · next hne => exact fun heq => hne (by rw [heq]; rfl)
  unfold kwMatch at h
  split at h
  · next arm harm =>
    obtain rfl := Option.some.inj h
    exact kwArm_of_mem (List.mem_of_find?_eq_some harm)
  · split at h
    · dsimp only at h
      split at h
      · obtain rfl := Option.some.inj h
        exact ⟨hparty _ _ (by decide), VoucherType.noConfusion⟩
      · obtain rfl := Option.some.inj h
        exact ⟨hparty _ _ (by decide), VoucherType.noConfusion⟩
    · cases h

/-- What a row has become: classified as `t` is, with a head or a type where it had none. -/
structure ClassifiedAs (parts : ClassifierParts) (bankLedger : String)
    (rules : List ClassificationRule) (t x : Transaction) : Prop where
  narration : x.narration = t.narration
  reference : x.reference = t.reference
  debit : x.debit = t.debit
  credit : x.credit = t.credit
  vendor : x.vendor = (classifyText parts t bankLedger rules).vendor
  accountHead : x.accountHead = (classifyText parts t bankLedger rules).accountHead ∨
    (classifyText parts t bankLedger rules).accountHead = ""
  txnType : x.txnType = (classifyText parts t bankLedger rules).txnType ∨
    (classifyText parts t bankLedger rules).txnType = .unknown
  confidence : x.confidence = (classifyText parts t bankLedger rules).confidence
  status : x.status = (classifyText parts t bankLedger rules).status
  classificationSource : x.classificationSource =
    (classifyText parts t bankLedger rules).classificationSource

theorem combinedNarrationAndReference_congr (hnarration : x.narration = t.narration)
    (hreference : x.reference = t.reference) :
    combinedNarrationAndReference x = combinedNarrationAndReference t := by
  rw [combinedNarrationAndReference, combinedNarrationAndReference, hnarration, hreference]

theorem upperText_congr (hnarration : x.narration = t.narration)
    (hreference : x.reference = t.reference) : upperText parts x = upperText parts t := by
  rw [upperText, upperText, combinedNarrationAndReference_congr hnarration hreference]

theorem kwMatch_congr
    (hcombined : combinedNarrationAndReference x = combinedNarrationAndReference t)
    (hdebit : x.debit = t.debit) (hcredit : x.credit = t.credit) :
    kwMatch parts upper x bankLedger = kwMatch parts upper t bankLedger := by
  have hside : x.isCreditOnly = t.isCreditOnly := by
    rw [Transaction.isCreditOnly, Transaction.isCreditOnly, hdebit, hcredit]
  unfold kwMatch
  rw [hcombined, hside]

/-- To write what is there changes nothing. -/
theorem write_eq_self {vendor head source : String} {txnType : VoucherType} {confidence : F64}
    {status : TransactionStatus} (hvendor : vendor = x.vendor) (hhead : head = x.accountHead)
    (htype : txnType = x.txnType) (hconfidence : confidence = x.confidence)
    (hstatus : status = x.status) (hsource : source = x.classificationSource) :
    { x with vendor := vendor, accountHead := head, txnType := txnType, confidence := confidence,
             status := status, classificationSource := source } = x := by
  subst hvendor hhead htype hconfidence hstatus hsource
  rfl

/-- The rule of the row, applied to what it has made of the row. -/
theorem applyRule_fixed {r : ClassificationRule} (hvendor : x.vendor = (applyRule r t).vendor)
    (hhead : x.accountHead = (applyRule r t).accountHead ∨ (applyRule r t).accountHead = "")
    (htype : x.txnType = (applyRule r t).txnType ∨ (applyRule r t).txnType = .unknown)
    (hconfidence : x.confidence = (applyRule r t).confidence)
    (hstatus : x.status = (applyRule r t).status)
    (hsource : x.classificationSource = (applyRule r t).classificationSource) :
    applyRule r x = x := by
  refine write_eq_self ?_ ?_ ?_ hconfidence.symm hstatus.symm hsource.symm
  · split
    · rfl
    · next hne => rw [hvendor, applyRule, if_neg hne]
  · split
    · rfl
    · next hne =>
      simp only [applyRule, if_neg hne] at hhead
      rcases hhead with hhead | hnil
      · exact hhead.symm
      · exact absurd (by rw [hnil]; rfl) hne
  · simp only [applyRule, ruleVoucherType] at htype ⊢
    split_ifs at htype ⊢
    · exact (htype.resolve_right (by decide)).symm
    · exact (htype.resolve_right (by decide)).symm
    · exact (htype.resolve_right (by decide)).symm
    · rfl

/-- **To classify a text again finds what is there.** -/
theorem classifyText_fixed (h : ClassifiedAs parts bankLedger rules t x) :
    classifyText parts x bankLedger rules = x := by
  have hupper : upperText parts x = upperText parts t := upperText_congr h.narration h.reference
  have hcombined := combinedNarrationAndReference_congr h.narration h.reference
  obtain ⟨-, -, hdebit, hcredit, hvendor, hhead, htype, hconfidence, hstatus, hsource⟩ := h
  unfold classifyText at hvendor hhead htype hconfidence hstatus hsource ⊢
  simp only [hupper, kwMatch_congr hcombined hdebit hcredit, hcombined]
  cases hrule : applyRules parts (upperText parts t) rules with
  | some rule =>
    simp only [hrule] at hvendor hhead htype hconfidence hstatus hsource ⊢
    exact applyRule_fixed hvendor hhead htype hconfidence hstatus hsource
  | none =>
    cases hmatch : kwMatch parts (upperText parts t) t bankLedger with
    | some kw =>
      simp only [hrule, hmatch] at hvendor hhead htype hconfidence hstatus hsource ⊢
      obtain ⟨hhead', htype'⟩ := kwResult_of_kwMatch hmatch
      exact write_eq_self hvendor.symm (hhead.resolve_right hhead').symm
        (htype.resolve_right htype').symm hconfidence.symm hstatus.symm hsource.symm
    | none =>
      simp only [hrule, hmatch] at hvendor hhead htype hconfidence hstatus hsource ⊢
      refine write_eq_self ?_ rfl rfl hconfidence.symm hstatus.symm hsource.symm
      split
      · rfl
      · next hne => rw [hvendor, if_neg hne]

/-! ## The rest of the pass -/

theorem classifiedAs_classifyText :
    ClassifiedAs parts bankLedger rules t (classifyText parts t bankLedger rules) := by
  have hcore : (classifyText parts t bankLedger rules).narration = t.narration ∧
      (classifyText parts t bankLedger rules).reference = t.reference ∧
      (classifyText parts t bankLedger rules).debit = t.debit ∧
      (classifyText parts t bankLedger rules).credit = t.credit := by
    unfold classifyText
    dsimp only
    split
    · exact ⟨rfl, rfl, rfl, rfl⟩
    · split <;> exact ⟨rfl, rfl, rfl, rfl⟩
  exact ⟨hcore.1, hcore.2.1, hcore.2.2.1, hcore.2.2.2, rfl, Or.inl rfl, Or.inl rfl, rfl, rfl, rfl⟩

theorem ClassifiedAs.inferMissing (h : ClassifiedAs parts bankLedger rules t x) :
    ClassifiedAs parts bankLedger rules t (inferMissing parts upper x) := by
  unfold Desktop.inferMissing
  split
  · next hunknown =>
    refine { h with txnType := Or.inr ?_ }
    rcases h.txnType with htype | htype
    · exact htype.symm.trans hunknown
    · exact htype
  · exact h

theorem ClassifiedAs.addTag (h : ClassifiedAs parts bankLedger rules t x) (tag : String) :
    ClassifiedAs parts bankLedger rules t (addTag tag x) := { h with }

theorem ClassifiedAs.flag (h : ClassifiedAs parts bankLedger rules t x) :
    ClassifiedAs parts bankLedger rules t (Duplicates.flag x) := { h with }

theorem ClassifiedAs.applyGst (h : ClassifiedAs parts bankLedger rules t x) (gst : GstAnalysis) :
    ClassifiedAs parts bankLedger rules t (applyGst gstAutoLedgers gst x) := by
  refine { h with accountHead := ?_ }
  show (if gstAutoLedgers && x.accountHead.isEmpty then gst.expenseLedger.getD x.accountHead
    else x.accountHead) = _ ∨ _
  split
  · next hempty =>
    right
    rw [Bool.and_eq_true, String.isEmpty_iff] at hempty
    rcases h.accountHead with hhead | hhead
    · exact hhead.symm.trans hempty.2
    · exact hhead
  · exact h.accountHead

/-- The tag of `detect_gst`. -/
def tagRow (parts : ClassifierParts) (x : Transaction) : Transaction :=
  match parts.detectGst x.narration x.reference with
  | some tag => addTag tag x
  | none => x

/-- The GST analysis. -/
def analyseRow (parts : ClassifierParts) (gstEnabled gstAutoLedgers : Bool) (x : Transaction) :
    Transaction :=
  if gstEnabled then
    match parts.analyse x.narration x.reference x.vendor x.debit x.credit with
    | some gst => applyGst gstAutoLedgers gst x
    | none => x
  else x

theorem classifyOne_eq_steps (t : Transaction) :
    classifyOne parts bankLedger rules gstEnabled gstAutoLedgers t =
      analyseRow parts gstEnabled gstAutoLedgers (tagRow parts
        (inferMissing parts (upperText parts t) (classifyText parts t bankLedger rules))) := rfl

theorem ClassifiedAs.tagRow (h : ClassifiedAs parts bankLedger rules t x) :
    ClassifiedAs parts bankLedger rules t (tagRow parts x) := by
  unfold Desktop.tagRow
  split
  · exact h.addTag _
  · exact h

theorem ClassifiedAs.analyseRow (h : ClassifiedAs parts bankLedger rules t x) :
    ClassifiedAs parts bankLedger rules t (analyseRow parts gstEnabled gstAutoLedgers x) := by
  unfold Desktop.analyseRow
  split
  · split
    · exact h.applyGst _
    · exact h
  · exact h

theorem classifiedAs_classifyOne (t : Transaction) : ClassifiedAs parts bankLedger rules t
    (classifyOne parts bankLedger rules gstEnabled gstAutoLedgers t) := by
  rw [classifyOne_eq_steps]
  exact classifiedAs_classifyText.inferMissing.tagRow.analyseRow

/-! ## What is settled after each step -/

/-- The type has been inferred, if it can be. -/
def IsInferred (parts : ClassifierParts) (x : Transaction) : Prop :=
  x.txnType = .unknown → inferVoucherType parts x (upperText parts x) = .unknown

/-- The tag is there. -/
def IsTagged (parts : ClassifierParts) (x : Transaction) : Prop :=
  ∀ tag, parts.detectGst x.narration x.reference = some tag → x.tags.contains tag = true

/-- A blank head takes the ledger that is suggested. -/
def filledHead (gstAutoLedgers : Bool) (ledger : Option String) (head : String) : String :=
  if gstAutoLedgers && head.isEmpty then ledger.getD head else head

theorem filledHead_filledHead (gstAutoLedgers : Bool) (ledger : Option String) (head : String) :
    filledHead gstAutoLedgers ledger (filledHead gstAutoLedgers ledger head) =
      filledHead gstAutoLedgers ledger head := by
  cases hfill : gstAutoLedgers && head.isEmpty with
  | false => simp [filledHead, hfill]
  | true =>
    cases ledger with
    | none => simp [filledHead]
    | some ledger => simp [filledHead, hfill]

/-- What the analysis says is there. -/
structure HasGst (gstAutoLedgers : Bool) (gst : GstAnalysis) (x : Transaction) : Prop where
  tag : x.tags.contains "GST" = true
  head : filledHead gstAutoLedgers gst.expenseLedger x.accountHead = x.accountHead
  rate : gst.gstRate = x.gstRate
  amount : gst.gstAmount = x.gstAmount
  type : gst.gstType = x.gstType

def IsAnalysed (parts : ClassifierParts) (gstEnabled gstAutoLedgers : Bool) (x : Transaction) :
    Prop :=
  gstEnabled = true → ∀ gst,
    parts.analyse x.narration x.reference x.vendor x.debit x.credit = some gst →
      HasGst gstAutoLedgers gst x

theorem inferMissing_fixed (h : IsInferred parts x) :
    inferMissing parts (upperText parts x) x = x := by
  unfold inferMissing
  split
  · next hunknown =>
    rw [h hunknown]
    exact write_eq_self rfl rfl hunknown.symm rfl rfl rfl
  · rfl

theorem tagRow_fixed (h : IsTagged parts x) : tagRow parts x = x := by
  unfold tagRow
  split
  · next tag htag => exact addTag_of_contains (h tag htag)
  · rfl

theorem applyGst_fixed {gst : GstAnalysis} (h : HasGst gstAutoLedgers gst x) :
    applyGst gstAutoLedgers gst x = x := by
  have hhead : (if gstAutoLedgers && x.accountHead.isEmpty then
      gst.expenseLedger.getD x.accountHead else x.accountHead) = x.accountHead := h.head
  unfold applyGst
  rw [addTag_of_contains h.tag, hhead, h.rate, h.amount, h.type]

theorem analyseRow_fixed (h : IsAnalysed parts gstEnabled gstAutoLedgers x) :
    analyseRow parts gstEnabled gstAutoLedgers x = x := by
  unfold analyseRow
  split
  · next henabled =>
    split
    · next gst hgst => exact applyGst_fixed (h henabled gst hgst)
    · rfl
  · rfl

theorem classifyOne_fixed (h : ClassifiedAs parts bankLedger rules t x)
    (hinferred : IsInferred parts x) (htagged : IsTagged parts x)
    (hanalysed : IsAnalysed parts gstEnabled gstAutoLedgers x) :
    classifyOne parts bankLedger rules gstEnabled gstAutoLedgers x = x := by
  rw [classifyOne_eq_steps, classifyText_fixed h, inferMissing_fixed hinferred, tagRow_fixed htagged,
    analyseRow_fixed hanalysed]

theorem isInferred_inferMissing (x : Transaction) :
    IsInferred parts (inferMissing parts (upperText parts x) x) := by
  unfold inferMissing
  split
  · exact id
  · next hknown => exact fun hunknown => absurd hunknown hknown

theorem contains_addTag_of_contains {tag tag' : String} (h : x.tags.contains tag = true) :
    (addTag tag' x).tags.contains tag = true := by
  unfold addTag
  dsimp only
  split
  · exact h
  · rw [List.contains_iff_mem] at h ⊢
    exact List.mem_append_left _ h

theorem isTagged_tagRow (x : Transaction) : IsTagged parts (tagRow parts x) := by
  intro tag htag
  unfold tagRow at htag ⊢
  split at htag
  · next tag' hdetect =>
    have heq : parts.detectGst x.narration x.reference = some tag := htag
    obtain rfl := Option.some.inj (hdetect.symm.trans heq)
    exact contains_addTag tag' x
  · next hdetect =>
    rw [hdetect] at htag
    cases htag

theorem hasGst_applyGst (gst : GstAnalysis) (x : Transaction) :
    HasGst gstAutoLedgers gst (applyGst gstAutoLedgers gst x) := by
  refine ⟨contains_addTag "GST" x, ?_, rfl, rfl, rfl⟩
  have hhead : (applyGst gstAutoLedgers gst x).accountHead =
      filledHead gstAutoLedgers gst.expenseLedger x.accountHead := rfl
  rw [hhead, filledHead_filledHead]

theorem isAnalysed_analyseRow (x : Transaction) : IsAnalysed parts gstEnabled gstAutoLedgers
    (analyseRow parts gstEnabled gstAutoLedgers x) := by
  intro henabled gst hgst
  unfold analyseRow at hgst ⊢
  rw [if_pos henabled] at hgst ⊢
  split at hgst
  · next gst' hanalyse =>
    obtain rfl := Option.some.inj (hanalyse.symm.trans hgst)
    exact hasGst_applyGst gst' x
  · next hanalyse =>
    rw [hanalyse] at hgst
    cases hgst

theorem IsInferred.tagRow (h : IsInferred parts x) : IsInferred parts (tagRow parts x) := by
  unfold Desktop.tagRow
  split
  · exact h
  · exact h

theorem IsInferred.analyseRow (h : IsInferred parts x) :
    IsInferred parts (analyseRow parts gstEnabled gstAutoLedgers x) := by
  unfold Desktop.analyseRow
  split
  · split
    · exact h
    · exact h
  · exact h

theorem IsTagged.analyseRow (h : IsTagged parts x) :
    IsTagged parts (analyseRow parts gstEnabled gstAutoLedgers x) := by
  unfold Desktop.analyseRow
  split
  · split
    · exact fun tag htag => contains_addTag_of_contains (h tag htag)
    · exact h
  · exact h

theorem isInferred_classifyOne (t : Transaction) : IsInferred parts
    (classifyOne parts bankLedger rules gstEnabled gstAutoLedgers t) := by
  have hupper : upperText parts (classifyText parts t bankLedger rules) = upperText parts t :=
    upperText_congr classifiedAs_classifyText.narration classifiedAs_classifyText.reference
  have hinferred : IsInferred parts
      (inferMissing parts (upperText parts t) (classifyText parts t bankLedger rules)) := by
    rw [← hupper]
    exact isInferred_inferMissing _
  rw [classifyOne_eq_steps]
  exact hinferred.tagRow.analyseRow

theorem isTagged_classifyOne (t : Transaction) : IsTagged parts
    (classifyOne parts bankLedger rules gstEnabled gstAutoLedgers t) := by
  rw [classifyOne_eq_steps]
  exact (isTagged_tagRow _).analyseRow

theorem isAnalysed_classifyOne (t : Transaction) : IsAnalysed parts gstEnabled gstAutoLedgers
    (classifyOne parts bankLedger rules gstEnabled gstAutoLedgers t) := by
  rw [classifyOne_eq_steps]
  exact isAnalysed_analyseRow _

/-- **A row that has been classified is a fixed point.** -/
theorem classifyOne_classifyOne (t : Transaction) :
    classifyOne parts bankLedger rules gstEnabled gstAutoLedgers
        (classifyOne parts bankLedger rules gstEnabled gstAutoLedgers t) =
      classifyOne parts bankLedger rules gstEnabled gstAutoLedgers t :=
  classifyOne_fixed (classifiedAs_classifyOne t) (isInferred_classifyOne t)
    (isTagged_classifyOne t) (isAnalysed_classifyOne t)

/-- So it is with the flag of a duplicate. -/
theorem classifyOne_flag_classifyOne (t : Transaction) :
    classifyOne parts bankLedger rules gstEnabled gstAutoLedgers
        (Duplicates.flag (classifyOne parts bankLedger rules gstEnabled gstAutoLedgers t)) =
      Duplicates.flag (classifyOne parts bankLedger rules gstEnabled gstAutoLedgers t) := by
  refine classifyOne_fixed (classifiedAs_classifyOne t).flag (isInferred_classifyOne t)
    (fun tag htag => contains_addTag_of_contains (isTagged_classifyOne t tag htag))
    fun henabled gst hgst => ?_
  obtain ⟨htag, hhead, hrate, hamount, htype⟩ := isAnalysed_classifyOne t henabled gst hgst
  exact ⟨contains_addTag_of_contains htag, hhead, hrate, hamount, htype⟩

/-! ## Rows -/

theorem classifyRow_classifyRow (t : Transaction) :
    classifyRow parts bankLedger rules gstEnabled gstAutoLedgers
        (classifyRow parts bankLedger rules gstEnabled gstAutoLedgers t) =
      classifyRow parts bankLedger rules gstEnabled gstAutoLedgers t := by
  by_cases ht : isEligible t = true
  · have hrow : classifyRow parts bankLedger rules gstEnabled gstAutoLedgers t =
        classifyOne parts bankLedger rules gstEnabled gstAutoLedgers t := if_pos ht
    rw [hrow, classifyRow]
    split
    · exact classifyOne_classifyOne t
    · rfl
  · have hrow : classifyRow parts bankLedger rules gstEnabled gstAutoLedgers t = t := if_neg ht
    rw [hrow, hrow]

theorem classifyRow_flag_classifyRow (t : Transaction) :
    classifyRow parts bankLedger rules gstEnabled gstAutoLedgers
        (Duplicates.flag (classifyRow parts bankLedger rules gstEnabled gstAutoLedgers t)) =
      Duplicates.flag (classifyRow parts bankLedger rules gstEnabled gstAutoLedgers t) := by
  by_cases ht : isEligible t = true
  · have hrow : classifyRow parts bankLedger rules gstEnabled gstAutoLedgers t =
        classifyOne parts bankLedger rules gstEnabled gstAutoLedgers t := if_pos ht
    rw [hrow, classifyRow]
    split
    · exact classifyOne_flag_classifyOne t
    · rfl
  · have hrow : classifyRow parts bankLedger rules gstEnabled gstAutoLedgers t = t := if_neg ht
    rw [hrow]
    exact if_neg ht

theorem confidence_classifyText (t : Transaction) :
    (classifyText parts t bankLedger rules).confidence ≠ .nan := by
  unfold classifyText
  dsimp only
  split
  · dsimp only [applyRule]
    split <;> exact F64.noConfusion
  · split <;> exact F64.noConfusion

/-- A row that may be classified again has a number as its confidence. -/
theorem confidence_ne_nan
    (ht : isEligible (classifyRow parts bankLedger rules gstEnabled gstAutoLedgers t) = true) :
    (classifyRow parts bankLedger rules gstEnabled gstAutoLedgers t).confidence ≠ .nan := by
  by_cases hbefore : isEligible t = true
  · have hrow : classifyRow parts bankLedger rules gstEnabled gstAutoLedgers t =
        classifyOne parts bankLedger rules gstEnabled gstAutoLedgers t := if_pos hbefore
    rw [hrow, (classifiedAs_classifyOne t).confidence]
    exact confidence_classifyText t
  · rw [classifyRow, if_neg hbefore] at ht
    exact absurd ht hbefore

theorem isChanged_self (h : x.confidence ≠ .nan) : isChanged x x = false := by
  simp [isChanged, F64.eqv, h]

end

/-! ## All transactions -/

/-- The search for duplicates as it is made, with the tables of Unicode that the parts have. -/
def ClassifierParts.withDuplicates (parts : ClassifierParts) (isNumeric : Char → Bool)
    (fl : F64 → F64) (o : HashOrder (List ℕ)) : ClassifierParts :=
  { parts with
    isDuplicate := fun txns i =>
      decide ((Duplicates.detectDuplicates parts.unicode isNumeric fl o txns)[i]? ≠ txns[i]?) }

section

variable (parts : ClassifierParts) (isNumeric : Char → Bool) (fl : F64 → F64)
  (o o' : HashOrder (List ℕ)) (bankLedger : String) (rules : List ClassificationRule)
  (runDedup gstEnabled gstAutoLedgers : Bool) (txns : List Transaction)

theorem detectDuplicates_withDuplicates :
    detectDuplicates (parts.withDuplicates isNumeric fl o) txns =
      Duplicates.detectDuplicates parts.unicode isNumeric fl o txns := by
  have hmarks : Marks Duplicates.flag txns
      (Duplicates.detectDuplicates parts.unicode isNumeric fl o txns) :=
    Duplicates.marks_detectDuplicates o txns
  refine List.ext_getElem? fun i => ?_
  rw [detectDuplicates, List.getElem?_map, List.getElem?_zipIdx, Option.map_map, Nat.zero_add]
  cases hx : txns[i]? with
  | none =>
    have hlen := List.getElem?_eq_none_iff.mp hx
    rw [hmarks.length_eq] at hlen
    exact (List.getElem?_eq_none hlen).symm
  | some x =>
    have hlt := (List.getElem?_eq_some_iff.mp hx).1
    rw [hmarks.length_eq] at hlt
    have hy := List.getElem?_eq_getElem hlt
    generalize (Duplicates.detectDuplicates parts.unicode isNumeric fl o txns)[i] = y at hy
    obtain ⟨x', hx', hxy⟩ := hmarks.getElem? hy
    obtain rfl := Option.some.inj (hx.symm.trans hx')
    have hdup : (parts.withDuplicates isNumeric fl o).isDuplicate txns i = decide (y ≠ x) := by
      simp only [ClassifierParts.withDuplicates, hx, hy, ne_eq, Option.some.injEq]
    rw [Option.map_some, hy]
    show some (if (parts.withDuplicates isNumeric fl o).isDuplicate txns i then Duplicates.flag x
      else x) = some y
    rw [hdup]
    -- a row that is not changed carries the flag already, or none
    rcases hxy with rfl | rfl
    · simp
    · by_cases hsame : Duplicates.flag x = x
      · rw [hsame, ite_self]
      · rw [decide_eq_true hsame, if_pos rfl]

/-- A row after the first call. -/
theorem exists_row {i : ℕ} {x : Transaction}
    (hx : (classifyAll (parts.withDuplicates isNumeric fl o) bankLedger rules runDedup gstEnabled
      gstAutoLedgers txns).2[i]? = some x) :
    ∃ t, txns[i]? = some t ∧
      (x = classifyRow parts bankLedger rules gstEnabled gstAutoLedgers t ∨
        x = Duplicates.flag (classifyRow parts bankLedger rules gstEnabled gstAutoLedgers t)) := by
  have hrows : ∀ {y}, (txns.map (classifyRow parts bankLedger rules gstEnabled
      gstAutoLedgers))[i]? = some y →
      ∃ t, txns[i]? = some t ∧
        y = classifyRow parts bankLedger rules gstEnabled gstAutoLedgers t := by
    intro y hy
    rw [List.getElem?_map] at hy
    obtain ⟨t, ht, rfl⟩ := Option.map_eq_some_iff.mp hy
    exact ⟨t, ht, rfl⟩
  unfold classifyAll at hx
  dsimp only at hx
  split at hx
  · rw [detectDuplicates_withDuplicates] at hx
    obtain ⟨y, hy, hxy⟩ := (Duplicates.marks_detectDuplicates o _).getElem? hx
    obtain ⟨t, ht, rfl⟩ := hrows hy
    exact ⟨t, ht, hxy⟩
  · obtain ⟨t, ht, rfl⟩ := hrows hx
    exact ⟨t, ht, Or.inl rfl⟩

/-- What a call may classify. -/
def classification (t : Transaction) :
    String × String × VoucherType × TransactionStatus × String × F64 :=
  (t.vendor, t.accountHead, t.txnType, t.status, t.classificationSource, t.confidence)

/-- The rows after the first call are fixed points. -/
theorem map_classifyRow_rows :
    (classifyAll (parts.withDuplicates isNumeric fl o) bankLedger rules runDedup gstEnabled
        gstAutoLedgers txns).2.map (classifyRow parts bankLedger rules gstEnabled gstAutoLedgers) =
      (classifyAll (parts.withDuplicates isNumeric fl o) bankLedger rules runDedup gstEnabled
        gstAutoLedgers txns).2 := by
  refine List.ext_getElem? fun i => ?_
  rw [List.getElem?_map]
  cases hx : (classifyAll (parts.withDuplicates isNumeric fl o) bankLedger rules runDedup gstEnabled
      gstAutoLedgers txns).2[i]? with
  | none => rfl
  | some x =>
    obtain ⟨t, -, hxt⟩ := exists_row parts isNumeric fl o bankLedger rules runDedup gstEnabled
      gstAutoLedgers txns hx
    rw [Option.map_some, Option.some.injEq]
    rcases hxt with rfl | rfl
    · exact classifyRow_classifyRow t
    · exact classifyRow_flag_classifyRow t

/-- None of them counts as changed. -/
theorem countP_isChanged_rows :
    ((classifyAll (parts.withDuplicates isNumeric fl o) bankLedger rules runDedup gstEnabled
        gstAutoLedgers txns).2.zip (classifyAll (parts.withDuplicates isNumeric fl o) bankLedger
          rules runDedup gstEnabled gstAutoLedgers txns).2).countP
      (fun pair => isEligible pair.1 && isChanged pair.1 pair.2) = 0 := by
  refine List.countP_eq_zero.mpr fun pair hpair => ?_
  obtain ⟨x, y⟩ := pair
  obtain ⟨i, hi⟩ := List.mem_iff_getElem?.mp hpair
  obtain ⟨hx, hy⟩ := List.getElem?_zip_eq_some.mp hi
  have hxy : x = y := Option.some.inj (hx.symm.trans hy)
  subst hxy
  rw [Bool.and_eq_true]
  rintro ⟨heligible, hchanged⟩
  obtain ⟨t, -, hxt⟩ := exists_row parts isNumeric fl o bankLedger rules runDedup gstEnabled
    gstAutoLedgers txns hx
  have hconfidence : x.confidence ≠ .nan := by
    rcases hxt with rfl | rfl
    · exact confidence_ne_nan heligible
    · exact confidence_ne_nan heligible
  rw [isChanged_self hconfidence] at hchanged
  cases hchanged

/-- The search for duplicates finds no others among them. -/
theorem detectDuplicates_rows (hdedup : runDedup = true) :
    detectDuplicates (parts.withDuplicates isNumeric fl o')
        (classifyAll (parts.withDuplicates isNumeric fl o) bankLedger rules runDedup gstEnabled
          gstAutoLedgers txns).2 =
      (classifyAll (parts.withDuplicates isNumeric fl o) bankLedger rules runDedup gstEnabled
        gstAutoLedgers txns).2 := by
  have hrows : (classifyAll (parts.withDuplicates isNumeric fl o) bankLedger rules runDedup
      gstEnabled gstAutoLedgers txns).2 =
      Duplicates.detectDuplicates parts.unicode isNumeric fl o
        (txns.map (classifyRow parts bankLedger rules gstEnabled gstAutoLedgers)) := by
    rw [← detectDuplicates_withDuplicates]
    exact if_pos hdedup
  rw [detectDuplicates_withDuplicates, hrows, Duplicates.detectDuplicates_detectDuplicates]

/--
**A second call changes no row and counts none, and the first leaves locked rows and opening
balances as they are.** The hash tables of the search for duplicates may be in another order.
-/
theorem classifyAll_classifyAll :
    classifyAll (parts.withDuplicates isNumeric fl o') bankLedger rules runDedup gstEnabled
        gstAutoLedgers (classifyAll (parts.withDuplicates isNumeric fl o) bankLedger rules runDedup
          gstEnabled gstAutoLedgers txns).2 =
      (0, (classifyAll (parts.withDuplicates isNumeric fl o) bankLedger rules runDedup gstEnabled
        gstAutoLedgers txns).2) ∧
    ∀ (i : ℕ) (t : Transaction), txns[i]? = some t →
      isLockedFromAutoClassify t = true ∨ t.isOpeningBalance = true →
      ((classifyAll (parts.withDuplicates isNumeric fl o) bankLedger rules runDedup gstEnabled
        gstAutoLedgers txns).2[i]?).map classification = some (classification t) := by
  constructor
  · have hfixed := map_classifyRow_rows parts isNumeric fl o bankLedger rules runDedup gstEnabled
      gstAutoLedgers txns
    have hcount := countP_isChanged_rows parts isNumeric fl o bankLedger rules runDedup gstEnabled
      gstAutoLedgers txns
    have hdedup := detectDuplicates_rows parts isNumeric fl o o' bankLedger rules runDedup
      gstEnabled gstAutoLedgers txns
    generalize (classifyAll (parts.withDuplicates isNumeric fl o) bankLedger rules runDedup
      gstEnabled gstAutoLedgers txns).2 = rows at hfixed hcount hdedup ⊢
    have hrows : rows.map (classifyRow (parts.withDuplicates isNumeric fl o') bankLedger rules
        gstEnabled gstAutoLedgers) = rows := hfixed
    unfold classifyAll
    rw [hrows]
    refine Prod.ext hcount ?_
    dsimp only
    split
    · next hon => exact hdedup hon
    · rfl
  · intro i t ht hkept
    have hrow : classifyRow parts bankLedger rules gstEnabled gstAutoLedgers t = t := by
      refine if_neg fun heligible => ?_
      rw [isEligible, Bool.and_eq_true, Bool.not_eq_true', Bool.not_eq_true'] at heligible
      rcases hkept with hlocked | hopening
      · rw [heligible.2] at hlocked
        cases hlocked
      · rw [heligible.1] at hopening
        cases hopening
    have hlen : (classifyAll (parts.withDuplicates isNumeric fl o) bankLedger rules runDedup
        gstEnabled gstAutoLedgers txns).2.length = txns.length := by
      unfold classifyAll
      dsimp only
      split
      · rw [detectDuplicates, List.length_map, List.length_zipIdx, List.length_map]
      · rw [List.length_map]
    have hlt := (List.getElem?_eq_some_iff.mp ht).1
    rw [← hlen] at hlt
    have hx := List.getElem?_eq_getElem hlt
    obtain ⟨t', ht', hxt⟩ := exists_row parts isNumeric fl o bankLedger rules runDedup gstEnabled
      gstAutoLedgers txns hx
    obtain rfl := Option.some.inj (ht.symm.trans ht')
    rw [hrow] at hxt
    rw [hx, Option.map_some, Option.some.injEq]
    rcases hxt with hxt | hxt
    · rw [hxt]
    · rw [hxt]
      rfl

end

end Desktop
