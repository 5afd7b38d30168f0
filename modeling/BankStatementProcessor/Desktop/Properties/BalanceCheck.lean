import BankStatementProcessor.Desktop.Parser.Balances
import BankStatementProcessor.Infra.StateMachine

/-!
# The balance shown before a row and the check of its balance

`balance_passes_agree_iff` — when the balance that is shown before each row explains whether its
own balance is flagged.
-/

namespace Desktop.Parser

open Infra

/-! ## What each pass has seen -/

/-- The last balance that a row states. -/
def lastStated (before : List Transaction) : Option F64 := before.reverse.findSome? (·.balance)

/-- The rows after it. -/
def sinceStated (before : List Transaction) : List Transaction :=
  (before.reverse.takeWhile (·.balance.isNone)).reverse

/-- The last balance stated, or else the opening balance, and what the rows since have moved. -/
def carriedBalance (opening : Option F64) (before : List Transaction) : Option F64 :=
  ((lastStated before).or opening).map fun balance =>
    (sinceStated before).foldl (fun b t => if hasAmt t then expectedBalance b t else b) balance

/-- The last balance of a row with an amount, or else the opening balance, or the first balance
stated. -/
def lastChecked (opening : Option F64) (kept : List Transaction) : Option F64 :=
  (kept.reverse.findSome? fun t => if hasAmt t then t.balance else none).or
    (opening.or (kept.findSome? (·.balance)))

/-- The last balance stated, but nothing from before a marker. -/
def lastAnchor (kept : List Transaction) : Option F64 :=
  (kept.reverse.find? fun t => t.isOpeningBalance || t.balance.isSome).bind (·.balance)

/-- No row before has the same key. Markers have none. -/
def isKept (toString : F64 → String) (before : List Transaction) (t : Transaction) : Bool :=
  t.isOpeningBalance ||
    !before.any fun u => !u.isOpeningBalance && dedupKey toString u == dedupKey toString t

/-- The row with its sides as the balance stated before it has them. -/
def directRow (anchor : Option F64) (t : Transaction) : Transaction :=
  if t.isOpeningBalance then t
  else
    match t.balance, anchor with
    | some bal, some pb => correctRow (F64.round2 (F64.sub bal pb)) t
    | _, _ => t

/-- At most a rupee away from the balance that was expected. -/
def isExplained (prevBal actual : F64) (t : Transaction) : Bool :=
  F64.le (F64.abs (F64.sub (expectedBalance prevBal t) actual)) (.finite 1)

/-- The row is flagged exactly when the balance shown before it does not explain its own. -/
def RowAgrees (t : Transaction) : Prop :=
  ∀ prev ∈ t.prevBalance, ∀ actual ∈ t.balance, hasAmt t = true →
    (t.balanceOk = some true ↔ isExplained prev actual t = true)

/-- The balance carried to the row and the last one checked explain its own balance alike. -/
def SameVerdict (toString : F64 → String) (opening : Option F64) (before : List Transaction)
    (t : Transaction) : Prop :=
  ∀ carried ∈ carriedBalance opening before, ∀ actual ∈ t.balance, hasAmt t = true →
    let kept := deduplicateTxns toString before
    let directed := directRow (lastAnchor kept) t
    (∀ checked ∈ lastChecked opening kept, isMismatch checked actual directed = false) ↔
      isExplained (F64.round2 carried) actual directed = true

/-! ## One more row -/

section

variable {toString : F64 → String} {opening anchor prev : Option F64}
  {before kept txns : List Transaction} {t : Transaction} {seen : List String}

theorem carriedBalance_snoc :
    carriedBalance opening (before ++ [t]) = nextRunBal (carriedBalance opening before) t := by
  cases hstated : t.balance with
  | some x =>
    cases hamt : hasAmt t <;>
      simp [carriedBalance, lastStated, sinceStated, nextRunBal, hstated, hamt]
  | none =>
    have hlast : lastStated (before ++ [t]) = lastStated before := by
      simp [lastStated, hstated]
    have hsince : sinceStated (before ++ [t]) = sinceStated before ++ [t] := by
      simp [sinceStated, hstated]
    rw [carriedBalance, hlast, hsince, carriedBalance]
    cases (lastStated before).or opening with
    | none => cases hamt : hasAmt t <;> simp [nextRunBal, hstated, hamt]
    | some x => cases hamt : hasAmt t <;> simp [nextRunBal, hstated, hamt, List.foldl_append]

def nextChecked (prev : Option F64) (t : Transaction) : Option F64 :=
  if hasAmt t then t.balance.or prev else prev.or t.balance

theorem lastChecked_snoc :
    lastChecked opening (kept ++ [t]) = nextChecked (lastChecked opening kept) t := by
  cases hamt : hasAmt t with
  | true =>
    cases hstated : t.balance with
    | none => simp [lastChecked, nextChecked, hamt, hstated]
    | some x => simp [lastChecked, nextChecked, hamt, hstated]
  | false =>
    simp [lastChecked, nextChecked, hamt, List.findSome?_append, Option.or_assoc]

def nextAnchor (anchor : Option F64) (t : Transaction) : Option F64 :=
  if t.isOpeningBalance then t.balance else t.balance.or anchor

theorem lastAnchor_snoc : lastAnchor (kept ++ [t]) = nextAnchor (lastAnchor kept) t := by
  cases hmarker : t.isOpeningBalance with
  | true => simp [lastAnchor, nextAnchor, hmarker]
  | false =>
    cases hstated : t.balance with
    | none => simp [lastAnchor, nextAnchor, hmarker, hstated]
    | some x => simp [lastAnchor, nextAnchor, hmarker, hstated]

theorem deduplicateFrom_snoc :
    deduplicateFrom toString seen (before ++ [t]) = deduplicateFrom toString seen before ++
      if !t.isOpeningBalance && seen.contains (dedupKey toString t) then []
      else if isKept toString before t then [t] else [] := by
  induction before generalizing seen with
  | nil =>
    cases hmarker : t.isOpeningBalance <;> simp [deduplicateFrom, isKept, hmarker]
  | cons u before ih =>
    cases humarker : u.isOpeningBalance with
    | true => simp [deduplicateFrom, humarker, ih, isKept]
    | false =>
      by_cases hseen : dedupKey toString u ∈ seen <;>
        by_cases hkey : dedupKey toString t = dedupKey toString u
      · cases hmarker : t.isOpeningBalance <;>
          simp [deduplicateFrom, humarker, hseen, ih, isKept, hkey, hmarker]
      · simp [deduplicateFrom, humarker, hseen, ih, isKept, Ne.symm hkey]
      · cases hmarker : t.isOpeningBalance <;>
          simp [deduplicateFrom, humarker, hseen, ih, isKept, hkey, hmarker]
      · simp [deduplicateFrom, humarker, hseen, ih, isKept, hkey, Ne.symm hkey]

/-- Before the first row there is only the opening balance. -/
theorem carriedBalance_nil : carriedBalance opening [] = opening := by
  cases opening <;> rfl

theorem lastChecked_nil : lastChecked opening [] = opening := by
  cases opening <;> rfl

theorem deduplicateTxns_snoc : deduplicateTxns toString (before ++ [t]) =
    deduplicateTxns toString before ++ if isKept toString before t then [t] else [] := by
  rw [deduplicateTxns, deduplicateFrom_snoc]
  simp [deduplicateTxns]

/-! ## What each pass does to a row -/

theorem correctRow_keeps {diff : F64} : hasAmt (correctRow diff t) = hasAmt t ∧
    (correctRow diff t).balance = t.balance ∧ (correctRow diff t).prevBalance = t.prevBalance := by
  unfold correctRow
  split
  · next hdebit hcredit => split <;> simp [hasAmt, hdebit, hcredit]
  · next hdebit hcredit => split <;> simp [hasAmt, hdebit, hcredit]
  · exact ⟨rfl, rfl, rfl⟩

theorem directRow_keeps (anchor : Option F64) (t : Transaction) :
    hasAmt (directRow anchor t) = hasAmt t ∧
    (directRow anchor t).balance = t.balance ∧
      (directRow anchor t).prevBalance = t.prevBalance := by
  unfold directRow
  split
  · exact ⟨rfl, rfl, rfl⟩
  · split
    · exact correctRow_keeps
    · exact ⟨rfl, rfl, rfl⟩

theorem correctFrom_cons :
    correctFrom anchor (t :: txns) = directRow anchor t :: correctFrom (nextAnchor anchor t) txns := by
  cases hmarker : t.isOpeningBalance with
  | true => simp [correctFrom, directRow, nextAnchor, hmarker]
  | false =>
    cases hstated : t.balance with
    | none => simp [correctFrom, directRow, nextAnchor, hmarker, hstated]
    | some x => cases anchor <;> simp [correctFrom, directRow, nextAnchor, hmarker, hstated]

/-- The row with its flag. -/
def checkRow (prev : Option F64) (t : Transaction) : Transaction :=
  if hasAmt t && t.balance.isSome then
    { t with balanceOk := some (decide (∀ checked ∈ prev, ∀ actual ∈ t.balance,
        isMismatch checked actual t = false)) }
  else t

theorem validateBalances_cons :
    validateBalances prev (t :: txns) = checkRow prev t :: validateBalances (nextChecked prev t) txns := by
  cases hamt : hasAmt t with
  | false => simp [validateBalances, checkRow, nextChecked, hamt]
  | true =>
    cases hstated : t.balance with
    | none => simp [validateBalances, checkRow, nextChecked, hamt, hstated]
    | some x => cases prev <;> simp [validateBalances, checkRow, nextChecked, hamt, hstated]

/-- The row as the passes leave it. -/
def finishRow (toString : F64 → String) (opening : Option F64) (before : List Transaction)
    (t : Transaction) : Transaction :=
  let kept := deduplicateTxns toString before
  checkRow (lastChecked opening kept) (directRow (lastAnchor kept)
    { t with prevBalance := (carriedBalance opening before).map F64.round2 })

theorem nextChecked_directRow : nextChecked prev (directRow anchor t) = nextChecked prev t := by
  obtain ⟨hamt, hbalance, -⟩ := directRow_keeps anchor t
  rw [nextChecked, hamt, hbalance, nextChecked]

/-- The keys of a list of rows. -/
def HasKey (toString : F64 → String) (before : List Transaction) (key : String) : Prop :=
  ∃ u ∈ before, u.isOpeningBalance = false ∧ dedupKey toString u = key

theorem isKept_iff : isKept toString before t = true ↔
    t.isOpeningBalance = true ∨ ¬ HasKey toString before (dedupKey toString t) := by
  simp [isKept, HasKey]

/-- **What each row becomes is decided by the rows before it.** -/
theorem forall_finished_iff (opening : Option F64) (txns : List Transaction)
    (P : Transaction → Prop) (hseen : ∀ key, key ∈ seen ↔ HasKey toString before key) :
    (∀ u ∈ validateBalances (lastChecked opening (deduplicateTxns toString before))
        (correctFrom (lastAnchor (deduplicateTxns toString before))
          (deduplicateFrom toString seen (stampPrevBalances (carriedBalance opening before) txns))),
      P u) ↔
    EveryStep (fun before t => before ++ [t])
      (fun before t => isKept toString before t = true → P (finishRow toString opening before t))
      before txns := by
  induction txns generalizing before seen with
  | nil => simp [EveryStep, stampPrevBalances, deduplicateFrom, correctFrom, validateBalances]
  | cons t txns ih =>
    have hkey : ∀ key, HasKey toString (before ++ [t]) key ↔
        HasKey toString before key ∨ (t.isOpeningBalance = false ∧ dedupKey toString t = key) := by
      intro key
      simp [HasKey, or_and_right, exists_or]
    rw [stampPrevBalances, ← carriedBalance_snoc, EveryStep]
    set stamped : Transaction :=
      { t with prevBalance := (carriedBalance opening before).map F64.round2 } with hstamped
    by_cases hkept : isKept toString before t = true
    · -- the row goes on, and the passes have seen one row more
      have hdedup : deduplicateTxns toString (before ++ [t]) =
          deduplicateTxns toString before ++ [t] := by
        rw [deduplicateTxns_snoc, if_pos hkept]
      obtain ⟨seen', hrow, hseen'⟩ : ∃ seen', (∀ rest,
          deduplicateFrom toString seen (stamped :: rest) =
            stamped :: deduplicateFrom toString seen' rest) ∧
          ∀ key, key ∈ seen' ↔ HasKey toString (before ++ [t]) key := by
        rw [isKept_iff] at hkept
        cases hmarker : t.isOpeningBalance with
        | true =>
          refine ⟨seen, fun rest => by simp [deduplicateFrom, hstamped, hmarker], fun key => ?_⟩
          rw [hseen, hkey]
          simp [hmarker]
        | false =>
          have hnew : dedupKey toString t ∉ seen := by
            rw [hseen]
            simpa [hmarker] using hkept
          refine ⟨dedupKey toString t :: seen, fun rest => ?_, fun key => ?_⟩
          · have hsame : dedupKey toString stamped = dedupKey toString t := rfl
            simp [deduplicateFrom, hsame, hnew, show stamped.isOpeningBalance = false from hmarker]
          · rw [List.mem_cons, hseen, hkey]
            simp [hmarker, or_comm, eq_comm]
      have hrest := ih hseen'
      rw [hdedup, lastChecked_snoc, lastAnchor_snoc] at hrest
      rw [hrow, correctFrom_cons, validateBalances_cons, List.forall_mem_cons,
        nextChecked_directRow, ← hrest]
      simp only [hkept, true_implies]
      rfl
    · -- a repetition is dropped
      have hdedup : deduplicateTxns toString (before ++ [t]) = deduplicateTxns toString before := by
        rw [deduplicateTxns_snoc, if_neg hkept, List.append_nil]
      rw [isKept_iff, not_or, not_not, Bool.not_eq_true] at hkept
      obtain ⟨hmarker, hold⟩ := hkept
      have hrow : ∀ rest, deduplicateFrom toString seen (stamped :: rest) =
          deduplicateFrom toString seen rest := by
        intro rest
        have hsame : dedupKey toString stamped = dedupKey toString t := rfl
        simp [deduplicateFrom, hsame, (hseen _).mpr hold,
          show stamped.isOpeningBalance = false from hmarker]
      have hseen' : ∀ key, key ∈ seen ↔ HasKey toString (before ++ [t]) key := by
        intro key
        rw [hseen, hkey]
        refine ⟨Or.inl, ?_⟩
        rintro (h | ⟨-, rfl⟩)
        · exact h
        · exact hold
      have hrest := ih hseen'
      rw [hdedup] at hrest
      rw [hrow, hrest]
      simp [isKept_iff, hmarker, hold]

/-- The sides do not depend on the balance shown before the row. -/
theorem correctRow_stamped (t : Transaction) (shown : Option F64) (diff : F64) :
    correctRow diff { t with prevBalance := shown } =
      { correctRow diff t with prevBalance := shown } := by
  cases hdebit : t.debit <;> cases hcredit : t.credit <;> simp only [correctRow, hdebit, hcredit]
  all_goals split <;> simp [hdebit, hcredit]

theorem directRow_stamped {shown : Option F64} :
    directRow anchor { t with prevBalance := shown } =
      { directRow anchor t with prevBalance := shown } := by
  cases hmarker : t.isOpeningBalance with
  | true => simp [directRow, hmarker]
  | false =>
    cases hstated : t.balance with
    | none => simp [directRow, hmarker, hstated]
    | some bal =>
      cases anchor with
      | none => simp [directRow, hmarker, hstated]
      | some pb =>
        have hrow := correctRow_stamped t shown (F64.round2 (F64.sub bal pb))
        simpa [directRow, hmarker, hstated] using hrow

theorem rowAgrees_checkRow_iff : RowAgrees (checkRow prev t) ↔
    ∀ shown ∈ t.prevBalance, ∀ actual ∈ t.balance, hasAmt t = true →
      ((∀ checked ∈ prev, isMismatch checked actual t = false) ↔
        isExplained shown actual t = true) := by
  by_cases hscope : (hasAmt t && t.balance.isSome) = true
  · rw [checkRow, if_pos hscope]
    refine forall₂_congr fun shown _ => forall₂_congr fun actual hactual =>
      imp_congr_right fun _ => ?_
    have hstated : t.balance = some actual := hactual
    refine iff_congr ((Option.some_inj.trans decide_eq_true_iff).trans ?_) Iff.rfl
    simp [hstated]
  · rw [checkRow, if_neg hscope]
    refine forall₂_congr fun shown _ => forall₂_congr fun actual hactual =>
      forall_congr' fun hamt => ?_
    have hstated : t.balance = some actual := hactual
    simp [hamt, hstated] at hscope

theorem rowAgrees_finishRow_iff :
    RowAgrees (finishRow toString opening before t) ↔ SameVerdict toString opening before t := by
  obtain ⟨hamt, hbalance, -⟩ := directRow_keeps (lastAnchor (deduplicateTxns toString before)) t
  simp only [finishRow, directRow_stamped, SameVerdict, rowAgrees_checkRow_iff]
  generalize directRow (lastAnchor (deduplicateTxns toString before)) t = directed at hamt hbalance ⊢
  rw [← hamt, ← hbalance]
  constructor
  · intro h carried hcarried
    exact h _ (Option.mem_map_of_mem _ hcarried)
  · intro h shown hshown
    obtain ⟨carried, hcarried, rfl⟩ := Option.map_eq_some_iff.mp hshown
    exact h carried hcarried

end

/-- The marker that is put before the rows has no amounts. -/
theorem forall_prepended_iff {hash : Transaction → String} {opening : Option F64}
    {bankName accountNo : String} {txns : List Transaction} :
    (∀ t ∈ prependOpeningBalanceRow hash opening bankName accountNo txns, RowAgrees t) ↔
      ∀ t ∈ txns, RowAgrees t := by
  cases txns with
  | nil => rfl
  | cons first txns =>
    simp only [prependOpeningBalanceRow]
    split
    · rfl
    · rw [List.forall_mem_cons]
      refine and_iff_right ?_
      intro prev hprev
      cases hprev

/-- The end of the sheet, row by row. -/
theorem finishSheet_agrees_iff {toString : F64 → String} {hash : Transaction → String}
    {openingBalance : Option F64} {raw : List Transaction} :
    (∀ t ∈ (finishSheet toString hash openingBalance raw).1, RowAgrees t) ↔
      EveryStep (fun before t => before ++ [t])
        (fun before t => isKept toString before t = true →
          SameVerdict toString (openingBalance.or (deriveOpening raw)) before t) [] raw := by
  cases raw with
  | nil =>
    simp [finishSheet, computePrevBalances, deduplicateTxns, deduplicateFrom,
      correctDebitCreditByBalance, correctFrom, validateBalances, prependOpeningBalanceRow, EveryStep]
  | cons first rest =>
    set opening := openingBalance.or (deriveOpening (first :: rest)) with hopening
    have hseen : ∀ key, key ∈ [] ↔ HasKey toString [] key := by simp [HasKey]
    have hpasses := forall_finished_iff opening (first :: rest) RowAgrees hseen
    simp only [rowAgrees_finishRow_iff] at hpasses
    rw [← hpasses, finishSheet, forall_prepended_iff, carriedBalance_nil]
    simp only [computePrevBalances, List.isEmpty_cons, deduplicateTxns, deduplicateFrom,
      lastChecked_nil]
    rfl

/--
**The balance shown before every row explains its flag exactly when, for every row that is no
repetition, the balance carried to it and the last one checked give the same verdict.**
-/
theorem balance_passes_agree_iff (toString : F64 → String) (hash : Transaction → String)
    (openingBalance : Option F64) (raw : List Transaction) :
    (∀ t ∈ (finishSheet toString hash openingBalance raw).1, RowAgrees t) ↔
      ∀ before t after, raw = before ++ t :: after → isKept toString before t = true →
        SameVerdict toString (openingBalance.or (deriveOpening raw)) before t := by
  rw [finishSheet_agrees_iff, everyStep_iff]
  simp only [run_snoc, List.nil_append]

/-! ## A sample -/

/-- Deposits of 1000, 500 and 200 rupees. The second states no balance. -/
def threeDeposits : List Transaction :=
  [{ Transaction.new "t_1_0" with credit := some (.finite 1000), balance := some (.finite 1000) },
    { Transaction.new "t_2_1" with credit := some (.finite 500) },
    { Transaction.new "t_3_2" with credit := some (.finite 200), balance := some (.finite 1700) }]

/-- The balance shown before the last row is 1500, and it is checked against 1000. -/
theorem last_deposit_flagged : ¬ ∀ (toString : F64 → String) (hash : Transaction → String)
    (openingBalance : Option F64) (raw : List Transaction),
    ∀ t ∈ (finishSheet toString hash openingBalance raw).1, RowAgrees t := by
  intro h
  have hrows := finishSheet_agrees_iff.mp
    (h (fun x => toString x.toRat) (fun _ => "") none threeDeposits)
  have hlast := (everyStep_iff.mp hrows) threeDeposits.dropLast _ [] rfl (by decide +kernel)
  have hverdict := hlast (.finite 1500) (by decide +kernel) (.finite 1700) rfl rfl
  exact absurd hverdict (by decide +kernel)

end Desktop.Parser
