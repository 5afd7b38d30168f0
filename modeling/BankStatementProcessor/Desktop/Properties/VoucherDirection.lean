import BankStatementProcessor.Desktop.Classifier

/-!
# The voucher types the classifier chooses

`voucher_direction_iff` — when no deposit becomes a payment and no withdrawal a receipt.
-/

namespace Desktop

open Infra

/-- The voucher type is not that of the other direction. -/
def RespectsDirection (t : Transaction) : Prop :=
  (t.isCreditOnly = true → t.txnType ≠ .payment) ∧ (t.isDebitOnly = true → t.txnType ≠ .receipt)

/-- An arm of the table has the voucher type of the other direction. -/
def KwArm.Contradicts (arm : KwArm) (t : Transaction) : Prop :=
  (t.isCreditOnly = true ∧ arm.txnType = .payment) ∨
    (t.isDebitOnly = true ∧ arm.txnType = .receipt)

/-- No pattern of a rule occurs in the text of the transaction. -/
def NoRuleApplies (parts : ClassifierParts) (rules : List ClassificationRule)
    (t : Transaction) : Prop :=
  ∀ r ∈ rules, r.pattern.isEmpty = true ∨
    ¬ parts.unicode.toUppercase r.pattern.toList <:+: upperText parts t

/-- The text has a keyword of an arm that contradicts the direction, and none of an arm before
it. -/
def KeywordContradicts (parts : ClassifierParts) (t : Transaction) : Prop :=
  ∃ before arm after, kwArms = before ++ arm :: after ∧
    containsAny (upperText parts t) arm.keywords = true ∧
    (∀ earlier ∈ before, containsAny (upperText parts t) earlier.keywords = false) ∧
    arm.Contradicts t

/-- A transaction that is classified by a keyword of the other direction. -/
def Misdirected (parts : ClassifierParts) (rules : List ClassificationRule)
    (t : Transaction) : Prop :=
  isEligible t = true ∧ NoRuleApplies parts rules t ∧ KeywordContradicts parts t

/-! ## What no step changes -/

section

variable {parts : ClassifierParts} {rules : List ClassificationRule} {bankLedger : String}
  {runDedup gstEnabled gstAutoLedgers : Bool} {t : Transaction}

/-- The amounts decide the direction. -/
def SameAmounts (t t' : Transaction) : Prop := t'.debit = t.debit ∧ t'.credit = t.credit

theorem SameAmounts.trans {t t' t'' : Transaction} (h : SameAmounts t t')
    (h' : SameAmounts t' t'') : SameAmounts t t'' :=
  ⟨h'.1.trans h.1, h'.2.trans h.2⟩

theorem SameAmounts.isCreditOnly_eq {t t' : Transaction} (h : SameAmounts t t') :
    t'.isCreditOnly = t.isCreditOnly := by
  simp [Transaction.isCreditOnly, h.1, h.2]

theorem SameAmounts.isDebitOnly_eq {t t' : Transaction} (h : SameAmounts t t') :
    t'.isDebitOnly = t.isDebitOnly := by
  simp [Transaction.isDebitOnly, h.1, h.2]

theorem respectsDirection_iff {t t' : Transaction} (h : SameAmounts t t') {vt : VoucherType}
    (htype : t'.txnType = vt) : RespectsDirection t' ↔
      (t.isCreditOnly = true → vt ≠ .payment) ∧ (t.isDebitOnly = true → vt ≠ .receipt) := by
  rw [RespectsDirection, h.isCreditOnly_eq, h.isDebitOnly_eq, htype]

theorem sameAmounts_classifyText : SameAmounts t (classifyText parts t bankLedger rules) := by
  simp only [classifyText]
  split
  · exact ⟨rfl, rfl⟩
  · split <;> exact ⟨rfl, rfl⟩

theorem sameAmounts_inferMissing {upper : List Char} :
    SameAmounts t (inferMissing parts upper t) := by
  unfold inferMissing
  split <;> exact ⟨rfl, rfl⟩

theorem sameAmounts_typed {upper : List Char} :
    SameAmounts t (inferMissing parts upper (classifyText parts t bankLedger rules)) :=
  sameAmounts_classifyText.trans sameAmounts_inferMissing

/-- The tags and the GST analysis come after the voucher type and leave it. -/
theorem classifyOne_typed (parts : ClassifierParts) (bankLedger : String)
    (rules : List ClassificationRule) (gstEnabled gstAutoLedgers : Bool) (t : Transaction) :
    let typed := inferMissing parts (upperText parts t) (classifyText parts t bankLedger rules)
    let after := classifyOne parts bankLedger rules gstEnabled gstAutoLedgers t
    SameAmounts typed after ∧ after.txnType = typed.txnType := by
  intro typed after
  simp only [after, typed, classifyOne]
  generalize inferMissing parts (upperText parts t) (classifyText parts t bankLedger rules) = row
  split
  · -- with GST the second match follows the first
    split <;> split <;> exact ⟨⟨rfl, rfl⟩, rfl⟩
  · split <;> exact ⟨⟨rfl, rfl⟩, rfl⟩

/-! ## One transaction -/

theorem not_isCreditOnly (h : t.isDebitOnly = true) : t.isCreditOnly = false := by
  simp only [Transaction.isDebitOnly, Bool.and_eq_true] at h
  simp [Transaction.isCreditOnly, h.1]

/-- A voucher type that goes by the direction. -/
def FollowsDirection (vt : VoucherType) (t : Transaction) : Prop :=
  (t.isCreditOnly = true → vt ≠ .payment) ∧ (t.isDebitOnly = true → vt ≠ .receipt)

theorem followsDirection_infer {upper : List Char} :
    FollowsDirection (inferVoucherType parts t upper) t := by
  unfold inferVoucherType
  split
  · exact ⟨fun _ => by simp, fun _ => by simp⟩
  · constructor
    · intro hcredit
      simp [hcredit]
    · intro hdebit
      simp [not_isCreditOnly hdebit, hdebit]

theorem followsDirection_network :
    FollowsDirection (if t.isCreditOnly then .receipt else .payment) t := by
  constructor
  · intro hcredit
    simp [hcredit]
  · intro hdebit
    simp [not_isCreditOnly hdebit]

theorem followsDirection_arm {arm : KwArm} :
    FollowsDirection arm.txnType t ↔ ¬ arm.Contradicts t := by
  simp [FollowsDirection, KwArm.Contradicts, not_or]

/-- No arm of the table leaves the voucher type open. -/
theorem kwArms_typed : ∀ arm ∈ kwArms, arm.txnType ≠ .unknown := by
  decide

theorem applyRules_eq_none :
    applyRules parts (upperText parts t) rules = none ↔ NoRuleApplies parts rules t := by
  simp only [applyRules, List.find?_eq_none, NoRuleApplies, Bool.and_eq_true,
    Bool.not_eq_true', decide_eq_true_eq, not_and, Bool.eq_false_iff, ne_eq]
  refine forall₂_congr fun r _ => ?_
  by_cases hempty : r.pattern.isEmpty = true <;> simp [hempty]

theorem keywordContradicts_iff : KeywordContradicts parts t ↔
    ∃ arm, firstArm (upperText parts t) = some arm ∧ arm.Contradicts t := by
  constructor
  · rintro ⟨before, arm, after, harms, hkeyword, hbefore, hcontra⟩
    refine ⟨arm, ?_, hcontra⟩
    rw [firstArm, List.find?_eq_some_iff_append]
    exact ⟨hkeyword, before, after, harms, fun earlier hearlier => by
      simp [hbefore earlier hearlier]⟩
  · rintro ⟨arm, hfirst, hcontra⟩
    rw [firstArm, List.find?_eq_some_iff_append] at hfirst
    obtain ⟨hkeyword, before, after, harms, hbefore⟩ := hfirst
    exact ⟨before, arm, after, harms, hkeyword, fun earlier hearlier => by
      simpa using hbefore earlier hearlier, hcontra⟩

/-- A keyword of the table decides the voucher type. -/
theorem typed_of_firstArm {arm : KwArm} (hrules : NoRuleApplies parts rules t)
    (hfirst : firstArm (upperText parts t) = some arm) :
    (inferMissing parts (upperText parts t) (classifyText parts t bankLedger rules)).txnType =
      arm.txnType := by
  have harm : arm.txnType ≠ .unknown := kwArms_typed arm (List.mem_of_find?_eq_some hfirst)
  rw [classifyText, applyRules_eq_none.mpr hrules]
  simp [kwMatch, hfirst, inferMissing, harm]

/-- A row that is still without a voucher type gets the one of its direction. -/
theorem followsDirection_inferMissing {t' : Transaction} {upper : List Char}
    (hsame : SameAmounts t t') (htype : FollowsDirection t'.txnType t) :
    FollowsDirection (inferMissing parts upper t').txnType t := by
  unfold inferMissing
  split
  · have hinfer : FollowsDirection (inferVoucherType parts t' upper) t' := followsDirection_infer
    rwa [FollowsDirection, hsame.isCreditOnly_eq, hsame.isDebitOnly_eq] at hinfer
  · exact htype

/-- Without a keyword of the table the direction decides it. -/
theorem typed_of_noArm (hunknown : t.txnType = .unknown) (hempty : ∀ r ∈ rules, r.txnType = "")
    (hnone : NoRuleApplies parts rules t → firstArm (upperText parts t) = none) :
    FollowsDirection (inferMissing parts (upperText parts t)
      (classifyText parts t bankLedger rules)).txnType t := by
  have hopen : FollowsDirection .unknown t := ⟨fun _ => by simp, fun _ => by simp⟩
  refine followsDirection_inferMissing sameAmounts_classifyText ?_
  cases hrule : applyRules parts (upperText parts t) rules with
  | some rule =>
    have htype : ruleVoucherType rule t.txnType = .unknown := by
      simp [ruleVoucherType, hempty rule (List.mem_of_find?_eq_some hrule), hunknown]
    simpa only [classifyText, hrule, applyRule, htype] using hopen
  | none =>
    have hfirst := hnone (applyRules_eq_none.mp hrule)
    simp only [classifyText, hrule, kwMatch, hfirst]
    by_cases hnetwork : containsAny (upperText parts t) networkKeywords = true
    · have hside := followsDirection_network (t := t)
      by_cases hcredit : t.isCreditOnly = true
      · rw [if_pos hcredit] at hside
        simpa [hnetwork, hcredit] using hside
      · rw [if_neg hcredit] at hside
        simpa [hnetwork, hcredit] using hside
    · simpa [hnetwork, hunknown] using hopen

/-- **A row that is classified respects its direction unless a keyword of the table contradicts
it.** -/
theorem classifyOne_respects_iff (hunknown : t.txnType = .unknown)
    (hempty : ∀ r ∈ rules, r.txnType = "") :
    RespectsDirection (classifyOne parts bankLedger rules gstEnabled gstAutoLedgers t) ↔
      ¬ (NoRuleApplies parts rules t ∧ KeywordContradicts parts t) := by
  obtain ⟨hsame, htype⟩ := classifyOne_typed parts bankLedger rules gstEnabled gstAutoLedgers t
  rw [respectsDirection_iff (sameAmounts_typed.trans hsame) htype, keywordContradicts_iff]
  by_cases hrules : NoRuleApplies parts rules t
  · cases hfirst : firstArm (upperText parts t) with
    | none =>
      refine iff_of_true (typed_of_noArm hunknown hempty fun _ => hfirst) ?_
      simp
    | some arm =>
      rw [typed_of_firstArm hrules hfirst]
      refine followsDirection_arm.trans ?_
      simp [hrules]
  · exact iff_of_true (typed_of_noArm hunknown hempty fun h => absurd h hrules) fun h => hrules h.1

/-! ## All of them -/

theorem classifyRow_respects_iff (hunknown : t.txnType = .unknown)
    (hempty : ∀ r ∈ rules, r.txnType = "") :
    RespectsDirection (classifyRow parts bankLedger rules gstEnabled gstAutoLedgers t) ↔
      ¬ Misdirected parts rules t := by
  unfold classifyRow Misdirected
  by_cases heligible : isEligible t = true
  · rw [if_pos heligible, classifyOne_respects_iff hunknown hempty]
    simp [heligible]
  · rw [if_neg heligible]
    refine iff_of_true ?_ fun h => heligible h.1
    simp [RespectsDirection, hunknown]

/-- The search for duplicates leaves directions and voucher types. -/
theorem detectDuplicates_respects_iff {txns : List Transaction} :
    (∀ t ∈ detectDuplicates parts txns, RespectsDirection t) ↔
      ∀ t ∈ txns, RespectsDirection t := by
  have hflag : ∀ p : Transaction × ℕ, RespectsDirection
      (if parts.isDuplicate txns p.2 then { addTag "DUP" p.1 with dupFlag := true } else p.1) ↔
        RespectsDirection p.1 := by
    intro p
    split <;> rfl
  constructor
  · intro h t ht
    rw [← List.zipIdx_map_fst 0 txns] at ht
    obtain ⟨p, hp, rfl⟩ := List.mem_map.mp ht
    exact (hflag p).mp (h _ (List.mem_map.mpr ⟨p, hp, rfl⟩))
  · intro h t ht
    obtain ⟨p, hp, rfl⟩ := List.mem_map.mp ht
    exact (hflag p).mpr (h _ (List.fst_mem_of_mem_zipIdx hp))

end

/--
**Classification respects the direction of every transaction exactly when no row that it
classifies has its first keyword in an arm of the other direction.**
-/
theorem voucher_direction_iff (parts : ClassifierParts) (bankLedger : String)
    (rules : List ClassificationRule) (runDedup gstEnabled gstAutoLedgers : Bool)
    (txns : List Transaction) (hunknown : ∀ t ∈ txns, t.txnType = .unknown)
    (hempty : ∀ r ∈ rules, r.txnType = "") :
    (∀ t ∈ (classifyAll parts bankLedger rules runDedup gstEnabled gstAutoLedgers txns).2,
        RespectsDirection t) ↔
      ∀ t ∈ txns, ¬ Misdirected parts rules t := by
  have hrows : (∀ t ∈ txns.map (classifyRow parts bankLedger rules gstEnabled gstAutoLedgers),
      RespectsDirection t) ↔ ∀ t ∈ txns, ¬ Misdirected parts rules t := by
    rw [List.forall_mem_map]
    exact forall₂_congr fun t ht => classifyRow_respects_iff (hunknown t ht) hempty
  rw [← hrows, classifyAll]
  cases runDedup with
  | false => rfl
  | true => exact detectDuplicates_respects_iff

/-! ## A sample -/

/-- Nothing beyond the keywords. -/
def keywordsOnly : ClassifierParts where
  unicode := Unicode.ascii
  extractPartyName _ := ""
  detectGst _ _ := none
  analyse _ _ _ _ _ := none
  isDuplicate _ _ := false

/-- A deposit of 500 rupees. -/
def deposit (narration : String) : Transaction :=
  { Transaction.new "t_1_0" with
    narration := narration
    credit := some (.finite 500) }

theorem misdirected_reversal : Misdirected keywordsOnly [] (deposit "BANK CHARGES REVERSED") := by
  refine ⟨by decide, fun r hr => absurd hr List.not_mem_nil, keywordContradicts_iff.mpr ?_⟩
  exact ⟨kwArms[2], by decide +kernel, Or.inl (by decide)⟩

/-- The interest the bank pays is a receipt. -/
theorem interest_is_received :
    (classifyAll keywordsOnly "HDFC Bank" [] true true true
      [deposit "INTEREST CREDITED"]).2.Forall RespectsDirection := by
  refine List.forall_iff_forall_mem.mpr ((voucher_direction_iff keywordsOnly "HDFC Bank" [] true
    true true [deposit "INTEREST CREDITED"] (by decide) (by simp)).mpr ?_)
  refine List.forall_mem_singleton.mpr fun h => ?_
  obtain ⟨arm, hfirst, hcontra⟩ := keywordContradicts_iff.mp h.2.2
  have hinterest : firstArm (upperText keywordsOnly (deposit "INTEREST CREDITED")) =
      some kwArms[1] := by
    decide +kernel
  obtain rfl := Option.some.inj (hinterest.symm.trans hfirst)
  obtain ⟨_, hpayment⟩ | ⟨hdebit, _⟩ := hcontra
  · exact absurd hpayment (by decide)
  · exact absurd hdebit (by decide)

/-- A charge that the bank pays back becomes a payment. -/
theorem reversed_charge_becomes_payment : ¬ ∀ (parts : ClassifierParts) (bankLedger : String)
    (rules : List ClassificationRule) (runDedup gstEnabled gstAutoLedgers : Bool)
    (txns : List Transaction), (∀ t ∈ txns, t.txnType = .unknown) →
      (∀ r ∈ rules, r.txnType = "") →
      ∀ t ∈ (classifyAll parts bankLedger rules runDedup gstEnabled gstAutoLedgers txns).2,
        RespectsDirection t := by
  intro h
  have hrow := h keywordsOnly "HDFC Bank" [] false false false [deposit "BANK CHARGES REVERSED"]
    (by decide) (by simp) _ List.mem_cons_self
  exact (classifyRow_respects_iff rfl (by simp)).mp hrow misdirected_reversal

end Desktop
