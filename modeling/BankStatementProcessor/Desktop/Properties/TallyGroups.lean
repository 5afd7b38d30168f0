import BankStatementProcessor.Desktop.TallyGroupEngine
import BankStatementProcessor.Infra.Hundredths

/-!
# The group of a ledger

The best group of a name is the same in every order of the scores just where one group scores best.
The three places that show the group of a transaction agree on a name just then; on a party only
where the amount is large and the voucher goes the way of the money.
-/

namespace Desktop

open Infra Infra.F64 Desktop.Export

/-! ## Names -/

def tallyGroups : List TallyGroup :=
  [.capitalAccount, .reserves, .loans, .bankOd, .sundryCreditors, .dutiesTaxes, .provisions,
   .salesAccounts, .directIncome, .indirectIncome, .purchaseAccounts, .directExpenses,
   .indirectExpenses, .fixedAssets, .investments, .loansAdvances, .sundryDebtors, .stockInTrade,
   .cashInHand, .bankAccounts, .deposits]

theorem mem_tallyGroups (g : TallyGroup) : g ∈ tallyGroups := by
  cases g <;> decide

theorem tallyGroup_name_inj {g g' : TallyGroup} (h : g.name = g'.name) : g = g' :=
  List.inj_on_of_nodup_map (by decide : (tallyGroups.map TallyGroup.name).Nodup)
    (mem_tallyGroups g) (mem_tallyGroups g') h

/-! ## Scores -/

section

variable {scores : List (TallyGroup × ℕ)} {group : TallyGroup} {points : ℕ} {u : Unicode}
  {headName : List Char}

theorem map_fst_addScore : (addScore scores group points).map Prod.fst =
    if group ∈ scores.map Prod.fst then scores.map Prod.fst
    else scores.map Prod.fst ++ [group] := by
  unfold addScore
  by_cases h : group ∈ scores.map Prod.fst
  · have hany : scores.any (·.1 = group) = true := by
      obtain ⟨s, hs, heq⟩ := List.mem_map.mp h
      exact List.any_eq_true.mpr ⟨s, hs, decide_eq_true heq⟩
    rw [if_pos hany, if_pos h, List.map_map]
    refine List.map_congr_left fun s _ => ?_
    dsimp only [Function.comp]
    split <;> rfl
  · have hany : ¬scores.any (·.1 = group) = true := by
      intro hany
      obtain ⟨s, hs, heq⟩ := List.any_eq_true.mp hany
      exact h (List.mem_map.mpr ⟨s, hs, of_decide_eq_true heq⟩)
    rw [if_neg hany, if_neg h, List.map_append]
    rfl

/-- A group has one score. -/
theorem nodup_map_fst_scoreHead : ((scoreHead u headName).map Prod.fst).Nodup := by
  unfold scoreHead
  generalize headPoints u headName = ps
  induction ps using List.reverseRecOn with
  | nil => exact .nil
  | append_singleton ps p ih =>
    rw [List.foldl_append, List.foldl_cons, List.foldl_nil, map_fst_addScore]
    split
    · exact ih
    · next hnew =>
      exact (List.perm_append_singleton _ _).nodup_iff.mpr (List.nodup_cons.mpr ⟨hnew, ih⟩)

theorem points_pos : ∀ p ∈ headPoints u headName, 0 < p.2 := by
  intro p hp
  obtain ⟨entry, hentry, hp⟩ := List.mem_flatMap.mp hp
  obtain ⟨k, -, rfl⟩ := List.mem_map.mp hp
  have hweight : ∀ entry ∈ keywordMap, 0 < entry.weight := by decide +kernel
  exact Nat.add_pos_left (hweight entry hentry) _

theorem score_pos : ∀ s ∈ scoreHead u headName, 0 < s.2 := by
  have hpos : ∀ p ∈ headPoints u headName, 0 < p.2 := points_pos
  unfold scoreHead
  generalize headPoints u headName = ps at hpos
  induction ps using List.reverseRecOn with
  | nil => exact List.forall_mem_nil _
  | append_singleton ps p ih =>
    have hscores := ih fun q hq => hpos q (List.mem_append_left _ hq)
    have hp : 0 < p.2 := hpos p (by simp)
    rw [List.foldl_append, List.foldl_cons, List.foldl_nil]
    unfold addScore
    split
    · intro s hs
      obtain ⟨s', hs', rfl⟩ := List.mem_map.mp hs
      have hs'pos := hscores s' hs'
      split
      · exact Nat.add_pos_left hs'pos _
      · exact hs'pos
    · exact List.forall_mem_append.mpr ⟨hscores, by simpa using hp⟩

/-! ## Confidence -/

theorem le_min {x y z : F64} (hy : x.le y = true) (hz : x.le z = true) : x.le (y.min z) = true := by
  unfold F64.min
  split
  · exact hz
  · split
    · exact hy
    · split
      · exact hz
      · exact hy

theorem minConfidence_le {q : ℚ} (hlow : 1 / 2 ≤ q) (hhigh : q ≤ 1) :
    minConfidence.le (toDouble (.finite q)) = true := by
  obtain ⟨r, hr, hclose⟩ := rounds_toDouble.isNear (q := q) (b := 1)
    (by rw [abs_of_nonneg (by linarith)]; exact hhigh) le_rfl (by norm_num)
  obtain ⟨m, hm, hnear⟩ := rounds_toDouble.isNear (q := 3 / 10) (b := 1)
    (by rw [abs_of_nonneg (by norm_num)]; norm_num) le_rfl (by norm_num)
  rw [minConfidence, hr, hm, le_finite]
  rw [abs_le] at hclose hnear
  have hsmall : (1 : ℚ) / 2 ^ 52 ≤ 1 / 100 := by norm_num
  linarith [hclose.1, hnear.2]

/-- A best score is never too small a share. -/
theorem minConfidence_le_groupConfidence {vals : List ℕ} (hsorted : vals.Pairwise fun a b => b ≤ a)
    (hpos : ∀ v ∈ vals, 0 < v) : minConfidence.le (groupConfidence vals) = true := by
  match vals with
  | [] => exact minConfidence_le (by norm_num) (by norm_num)
  | [a] => exact minConfidence_le (by norm_num) (by norm_num)
  | a :: b :: rest =>
    have hab : b ≤ a := List.rel_of_pairwise_cons hsorted (by simp)
    have ha : (0 : ℚ) < a := by exact_mod_cast hpos a (by simp)
    have hb : (0 : ℚ) < b := by exact_mod_cast hpos b (by simp)
    have hle : (b : ℚ) ≤ a := by exact_mod_cast hab
    refine le_min (minConfidence_le ?_ ?_) (minConfidence_le (by norm_num) (by norm_num))
    · rw [div_le_div_iff₀ (by norm_num) (by linarith)]
      linarith
    · rw [div_le_one (by linarith)]
      linarith

/-! ## One name -/

/-- The key that overrides are looked up by. -/
def overrideOf (u : Unicode) (headName : List Char)
    (overrides : Option (List Char → Option String)) : Option String :=
  overrides.bind fun ovr => ovr (u.toLowercase (trim headName))

/-- No two groups share the best score. -/
def OneBestGroup (u : Unicode) (headName : List Char) : Prop :=
  ∀ s s', IsGreatest Prod.snd (scoreHead u headName) s →
    IsGreatest Prod.snd (scoreHead u headName) s' → s = s'

theorem classifyGroup_eq (h : HashOrder (TallyGroup × ℕ)) (isCredit : Bool) (amount : F64)
    (overrides : Option (List Char → Option String)) :
    classifyGroup u h headName isCredit amount overrides =
      (overrideOf u headName overrides).getD
        ((maxByKey Prod.snd (h.order (scoreHead u headName))).elim
          (fallbackGroup isCredit amount).name fun best => best.1.name) := by
  have hconfident : minConfidence.le (groupConfidence
      (((scoreHead u headName).map Prod.snd).mergeSort fun a b => b ≤ a)) = true := by
    refine minConfidence_le_groupConfidence ?_ fun v hv => ?_
    · have hsorted : (((scoreHead u headName).map Prod.snd).mergeSort
          fun a b => decide (b ≤ a)).Pairwise fun a b => decide (b ≤ a) = true :=
        List.pairwise_mergeSort (fun a b c hab hbc => by simp only [decide_eq_true_eq] at *; omega)
          (fun a b => by simp only [Bool.or_eq_true, decide_eq_true_eq]; omega) _
      simpa only [decide_eq_true_eq] using hsorted
    · obtain ⟨s, hs, rfl⟩ := List.mem_map.mp (List.mem_mergeSort.mp hv)
      exact score_pos s hs
  unfold classifyGroup overrideOf
  split
  · next group hgroup =>
    rw [hgroup]
    rfl
  · next hnone =>
    rw [hnone, Option.getD_none]
    dsimp only
    cases maxByKey Prod.snd (h.order (scoreHead u headName)) with
    | none => rfl
    | some best => exact if_pos hconfident

/-- The best group is the same in every order of the scores just where one group scores best. -/
theorem bestGroup_order_iff (u : Unicode) (headName : List Char) (fallback : String) :
    (∀ h h' : HashOrder (TallyGroup × ℕ),
      ((maxByKey Prod.snd (h.order (scoreHead u headName))).elim fallback fun best =>
          best.1.name) =
        (maxByKey Prod.snd (h'.order (scoreHead u headName))).elim fallback fun best =>
          best.1.name) ↔ OneBestGroup u headName := by
  rw [OneBestGroup, ← maxByKey_order_iff]
  refine forall₂_congr fun h h' => ⟨fun hsame => ?_, fun hsame => by rw [hsame]⟩
  by_cases hnil : scoreHead u headName = []
  · rw [hnil, h.order_nil, h'.order_nil]
  · obtain ⟨s, hs, ⟨hmem, -⟩⟩ := maxByKey_order (f := Prod.snd) h hnil
    obtain ⟨s', hs', ⟨hmem', -⟩⟩ := maxByKey_order (f := Prod.snd) h' hnil
    rw [hs, hs'] at hsame
    rw [hs, hs', List.inj_on_of_nodup_map nodup_map_fst_scoreHead hmem hmem'
      (tallyGroup_name_inj hsame)]

/-- A name has the same group in every order of its scores just where it has an override or one
group scores best. -/
theorem classifyGroup_order_iff (u : Unicode) (headName : List Char) (isCredit : Bool)
    (amount : F64) (overrides : Option (List Char → Option String)) :
    (∀ h h' : HashOrder (TallyGroup × ℕ), classifyGroup u h headName isCredit amount overrides =
        classifyGroup u h' headName isCredit amount overrides) ↔
      (overrideOf u headName overrides).isSome = true ∨ OneBestGroup u headName := by
  simp only [classifyGroup_eq]
  cases overrideOf u headName overrides with
  | some group => simp
  | none =>
    simp only [Option.getD_none, bestGroup_order_iff, Option.isSome_none, Bool.false_eq_true,
      false_or]

end

/-- Of two groups that score the same, either can be given. -/
theorem capital_reserve_has_two_groups :
    ∃ h h' : HashOrder (TallyGroup × ℕ),
      classifyGroup .ascii h "Capital Reserve".toList false (.finite 100) none ≠
        classifyGroup .ascii h' "Capital Reserve".toList false (.finite 100) none := by
  refine ⟨.asMade, .backwards, ?_⟩
  have hscores : scoreHead .ascii "Capital Reserve".toList =
      [(.capitalAccount, 11), (.reserves, 11)] := by decide +kernel
  rw [classifyGroup_eq, classifyGroup_eq, hscores]
  decide

/-! ## Three places -/

section

variable {u : Unicode} {t : Transaction}

/-- The transaction is posted to a party. -/
def IsParty (t : Transaction) : Prop :=
  trim t.accountHead.toList = [] ∧ trim t.vendor.toList ≠ []

instance : DecidablePred IsParty := fun t =>
  inferInstanceAs (Decidable (trim t.accountHead.toList = [] ∧ trim t.vendor.toList ≠ []))

theorem partyGroup_of_isParty (ht : IsParty t) (isReceipt : Bool) :
    partyGroup t.accountHead.toList t.vendor.toList isReceipt =
      some (if isReceipt then .sundryDebtors else .sundryCreditors) := by
  refine if_pos ?_
  simpa [IsParty] using ht

theorem partyGroup_of_not_isParty (ht : ¬IsParty t) (isReceipt : Bool) :
    partyGroup t.accountHead.toList t.vendor.toList isReceipt = none := by
  refine if_neg ?_
  simpa [IsParty] using ht

theorem scoreHead_blank {headName : List Char} (h : trim headName = []) :
    scoreHead u headName = [] := by
  have hlower : u.toLowercase [] = [] := u.toLowercase_ascii [] rfl
  have hkeywords : ∀ entry ∈ keywordMap, ∀ k ∈ entry.kws, k.isEmpty = false := by decide +kernel
  have hpoints : headPoints u headName = [] := by
    refine List.flatMap_eq_nil_iff.mpr fun entry hentry => ?_
    rw [List.map_eq_nil_iff, List.filter_eq_nil_iff, h, hlower]
    intro k hk hcontains
    have hinfix := List.infix_nil.mp (of_decide_eq_true hcontains)
    have hempty : k = "" := String.toList_eq_nil_iff.mp hinfix
    have hne := hkeywords entry hentry k hk
    rw [hempty] at hne
    cases hne
  rw [scoreHead, hpoints]
  rfl

/-- A party has no score, and its group is given by the amount. -/
theorem keywordGroup_party (h : HashOrder (TallyGroup × ℕ)) (ht : IsParty t) :
    keywordGroup u h t = (fallbackGroup t.credit.isSome (groupAmount t)).name := by
  rw [keywordGroup, classifyGroup_eq, scoreHead_blank ht.1, h.order_nil]
  rfl

theorem fallbackGroup_party_iff (isCredit : Bool) {amount : F64} {g : TallyGroup}
    (hg : g = if isCredit then .sundryDebtors else .sundryCreditors) :
    fallbackGroup isCredit amount = g ↔ (F64.finite 10000).le amount = true := by
  subst hg
  unfold fallbackGroup
  cases isCredit with
  | true => cases (F64.finite 10000).le amount <;> simp
  | false =>
    cases (F64.finite 10000).le amount
    · simp only [Bool.false_and, Bool.false_eq_true, if_false, Bool.not_false, Bool.true_and]
      split <;> simp
    · simp

/-- The three places agree on a party just where the amount is large and the type of the voucher
goes with the side, and on any other transaction just where one group of its account head scores
best. -/
theorem expenseHeads_agree_iff (u : Unicode) (t : Transaction) :
    (∀ h₁ h₂ h₃ : HashOrder (TallyGroup × ℕ), buildTxnRowGroup u h₁ t = parseResultGroup u h₂ t ∧
        parseResultGroup u h₂ t = expenseHeadLabel u h₃ t) ↔
      (IsParty t → (F64.finite 10000).le (groupAmount t) = true ∧
        (t.txnType = .receipt ↔ t.credit.isSome = true)) ∧
      (¬IsParty t → OneBestGroup u t.accountHead.toList) := by
  by_cases ht : IsParty t
  · have hshown : ∀ h₁ h₂ h₃ : HashOrder (TallyGroup × ℕ),
        (buildTxnRowGroup u h₁ t = parseResultGroup u h₂ t ∧
          parseResultGroup u h₂ t = expenseHeadLabel u h₃ t) ↔
        (F64.finite 10000).le (groupAmount t) = true ∧
          (t.txnType = .receipt ↔ t.credit.isSome = true) := by
      intro h₁ h₂ h₃
      rw [buildTxnRowGroup, keywordGroup_party h₁ ht, parseResultGroup, expenseHeadLabel,
        partyGroup_of_isParty ht, partyGroup_of_isParty ht]
      dsimp only
      refine and_congr ?_ ?_
      · rw [← fallbackGroup_party_iff t.credit.isSome rfl]
        exact ⟨fun hname => tallyGroup_name_inj hname, fun hgroup => by rw [hgroup]⟩
      · have hreceipt : (t.txnType == VoucherType.receipt) = true ↔ t.txnType = .receipt :=
          beq_iff_eq
        rw [← hreceipt]
        cases t.credit.isSome <;> cases t.txnType == .receipt <;> decide
    simp only [hshown, ht, not_true_eq_false, false_imp_iff, and_true, forall_const]
  · have horder := bestGroup_order_iff u t.accountHead.toList
      (fallbackGroup t.credit.isSome (groupAmount t)).name
    have hgroup : ∀ h, classifyGroup u h t.accountHead.toList t.credit.isSome (groupAmount t) none =
        (maxByKey Prod.snd (h.order (scoreHead u t.accountHead.toList))).elim
          (fallbackGroup t.credit.isSome (groupAmount t)).name fun best => best.1.name :=
      fun h => classifyGroup_eq h _ _ none
    simp only [← hgroup] at horder
    simp only [ht, false_imp_iff, not_false_eq_true, forall_true_left, true_and, ← horder,
      buildTxnRowGroup, parseResultGroup, expenseHeadLabel, partyGroup_of_not_isParty ht,
      keywordGroup]
    exact ⟨fun hall h h' => (hall h h' h').1, fun hall h₁ h₂ h₃ => ⟨hall h₁ h₂, hall h₂ h₃⟩⟩

end

def smallPayment : Transaction :=
  { Transaction.new "t_1" with vendor := "Ramesh", debit := some (.finite 500) }

/-- A small payment to a party is shown under expenses, not under creditors. -/
theorem small_party_is_shown_twice :
    ¬∀ h₁ h₂ h₃ : HashOrder (TallyGroup × ℕ),
      buildTxnRowGroup .ascii h₁ smallPayment = parseResultGroup .ascii h₂ smallPayment ∧
        parseResultGroup .ascii h₂ smallPayment = expenseHeadLabel .ascii h₃ smallPayment := by
  intro hall
  have hparty : IsParty smallPayment := by decide +kernel
  have hshown := (hall .asMade .asMade .asMade).1
  rw [buildTxnRowGroup, keywordGroup_party _ hparty, parseResultGroup,
    partyGroup_of_isParty hparty] at hshown
  have hlarge := (fallbackGroup_party_iff _ rfl).mp (tallyGroup_name_inj hshown)
  have hamount : groupAmount smallPayment = .finite 500 := by
    have hsum : (smallPayment.credit.getD (.finite 0)).add (smallPayment.debit.getD (.finite 0)) =
        .finite ((500 : ℤ) : ℚ) := by decide +kernel
    rw [groupAmount, hsum, rounds_toDouble.whole 500 (by norm_num)]
    rfl
  rw [hamount] at hlarge
  exact absurd hlarge (by decide +kernel)

end Desktop
