import BankStatementProcessor.Desktop.Properties.BalanceCheck
import BankStatementProcessor.Infra.DisplayText
import BankStatementProcessor.Infra.Lexical

/-!
# Removing repeated rows

The key of a row is one text, with bars between the date, the narration and the amounts. The
date ends at the first bar and the amounts, which have none, stand behind the last three, so the
key tells the rows apart whatever the narration is.
-/

namespace Desktop.Parser

open Infra

/-- What two rows have to share to be the same one. -/
def dedupFields (t : Transaction) : String × String × Option F64 × Option F64 × Option F64 :=
  (t.date, t.narration, t.debit, t.credit, t.balance)

/-- The amounts of a row are doubles. -/
structure HasDoubles (t : Transaction) : Prop where
  debit : ∀ x ∈ t.debit, F64.IsExact x
  credit : ∀ x ∈ t.credit, F64.IsExact x
  balance : ∀ x ∈ t.balance, F64.IsExact x

section

variable {s t : Transaction} {txns : List Transaction}

/-! ## The key -/

/-- An amount in a key. -/
def keyAmount (x : Option F64) : String := (x.map F64.display).getD ""

theorem bar_not_mem_keyAmount (x : Option F64) : '|' ∉ (keyAmount x).toList := by
  cases x with
  | none => decide
  | some x => exact F64.bar_not_mem_display x

theorem keyAmount_inj {x y : Option F64} (hx : ∀ a ∈ x, F64.IsExact a)
    (hy : ∀ a ∈ y, F64.IsExact a) (h : keyAmount x = keyAmount y) : x = y := by
  cases x with
  | none =>
    cases y with
    | none => rfl
    | some b => exact absurd (congrArg String.toList h).symm (F64.display_ne_empty b)
  | some a =>
    cases y with
    | none => exact absurd (congrArg String.toList h) (F64.display_ne_empty a)
    | some b => rw [F64.display_inj (hx a rfl) (hy b rfl) h]

theorem toList_dedupKey (t : Transaction) : (dedupKey F64.display t).toList =
    t.date.toList ++ '|' :: (((t.narration.toList ++ '|' :: (keyAmount t.debit).toList) ++
      '|' :: (keyAmount t.credit).toList) ++ '|' :: (keyAmount t.balance).toList) := by
  simp [dedupKey, keyAmount, ToString.toString]

theorem dedupKey_inj (hs : '|' ∉ s.date.toList) (ht : '|' ∉ t.date.toList)
    (hs' : HasDoubles s) (ht' : HasDoubles t) :
    dedupKey F64.display s = dedupKey F64.display t ↔ dedupFields s = dedupFields t := by
  constructor
  · intro h
    have hlist := congrArg String.toList h
    rw [toList_dedupKey, toList_dedupKey, append_cons_inj_of_notMem_left hs ht,
      append_cons_inj_of_notMem_right (bar_not_mem_keyAmount _) (bar_not_mem_keyAmount _),
      append_cons_inj_of_notMem_right (bar_not_mem_keyAmount _) (bar_not_mem_keyAmount _),
      append_cons_inj_of_notMem_right (bar_not_mem_keyAmount _) (bar_not_mem_keyAmount _),
      String.toList_inj, String.toList_inj, String.toList_inj, String.toList_inj,
      String.toList_inj] at hlist
    obtain ⟨hdate, ⟨⟨hnarration, hdebit⟩, hcredit⟩, hbalance⟩ := hlist
    rw [dedupFields, dedupFields, hdate, hnarration,
      keyAmount_inj hs'.debit ht'.debit hdebit, keyAmount_inj hs'.credit ht'.credit hcredit,
      keyAmount_inj hs'.balance ht'.balance hbalance]
  · intro h
    simp only [dedupFields, Prod.mk.injEq] at h
    obtain ⟨hdate, hnarration, hdebit, hcredit, hbalance⟩ := h
    rw [dedupKey, dedupKey, hdate, hnarration, hdebit, hcredit, hbalance]

/-! ## What is kept -/

/-- An opening balance, or the first of the rows with its fields. -/
def isFirst (txns : List Transaction) (row : Transaction × ℕ) : Bool :=
  row.1.isOpeningBalance ||
    !(txns.take row.2).any fun s => !s.isOpeningBalance && dedupFields s == dedupFields row.1

/-- A row is kept by its key exactly when it is the first with its fields. -/
theorem isFirst_eq_isKept {before : List Transaction}
    (hdates : ∀ s ∈ before ++ [t], '|' ∉ s.date.toList)
    (hdoubles : ∀ s ∈ before ++ [t], HasDoubles s) :
    isFirst (before ++ [t]) (t, before.length) = isKept F64.display before t := by
  have hsame : ∀ s ∈ before, (!s.isOpeningBalance && dedupFields s == dedupFields t) =
      (!s.isOpeningBalance && dedupKey F64.display s == dedupKey F64.display t) := by
    intro s hs
    have hmem := List.mem_append_left [t] hs
    have hlast : t ∈ before ++ [t] := List.mem_append_right _ (List.mem_singleton_self t)
    have hiff := dedupKey_inj (hdates s hmem) (hdates t hlast) (hdoubles s hmem) (hdoubles t hlast)
    have hbeq : (dedupFields s == dedupFields t) =
        (dedupKey F64.display s == dedupKey F64.display t) := by
      rw [Bool.eq_iff_iff, beq_iff_eq, beq_iff_eq]
      exact hiff.symm
    rw [hbeq]
  rw [isFirst, isKept, List.take_left]
  congr 2
  rw [Bool.eq_iff_iff, List.any_eq_true, List.any_eq_true]
  constructor
  · rintro ⟨s, hs, heq⟩
    exact ⟨s, hs, hsame s hs ▸ heq⟩
  · rintro ⟨s, hs, heq⟩
    exact ⟨s, hs, (hsame s hs).symm ▸ heq⟩

/-- **Of the rows with the same date, narration and amounts the first is kept, and every opening
balance, in the order they stand in.** -/
theorem deduplicate_keeps_first (hdates : ∀ t ∈ txns, '|' ∉ t.date.toList)
    (hdoubles : ∀ t ∈ txns, HasDoubles t) :
    deduplicateTxns F64.display txns = (txns.zipIdx.filter (isFirst txns)).map Prod.fst := by
  induction txns using List.reverseRecOn with
  | nil => rfl
  | append_singleton before t ih =>
    rw [deduplicateTxns_snoc, ih (fun s hs => hdates s (List.mem_append_left _ hs))
      (fun s hs => hdoubles s (List.mem_append_left _ hs)), List.zipIdx_append,
      List.filter_append, List.map_append]
    congr 1
    · congr 1
      refine List.filter_congr fun row hrow => ?_
      have hlt : row.2 < before.length := List.snd_lt_of_mem_zipIdx hrow
      rw [isFirst, isFirst, List.take_append_of_le_length hlt.le]
    · rw [List.zipIdx_singleton, zero_add, List.filter_singleton,
        isFirst_eq_isKept hdates hdoubles]
      cases isKept F64.display before t <;> rfl

end

/-- A row with a bar in its narration. -/
def barredRow (id narration : String) (debit : F64) : Transaction :=
  { Transaction.new id with date := "01/04/2025", narration, debit := some debit }

theorem hasDoubles_barredRow {id narration : String} {debit : F64} (h : F64.IsExact debit) :
    HasDoubles (barredRow id narration debit) where
  debit := by
    intro x hx
    rw [← Option.some.inj hx]
    exact h
  credit := by simp [barredRow, Transaction.new]
  balance := by simp [barredRow, Transaction.new]

/-- The second row is the first one again, the third has another amount. -/
def barredRows : List Transaction :=
  [barredRow "a" "NEFT|100" (.finite 100), barredRow "b" "NEFT|100" (.finite 100),
    barredRow "c" "NEFT" (.finite 100)]

theorem barredRows_deduplicated :
    deduplicateTxns F64.display barredRows =
      (barredRows.zipIdx.filter (isFirst barredRows)).map Prod.fst := by
  refine deduplicate_keeps_first (by decide +kernel) fun t ht => ?_
  have hexact : F64.IsExact (.finite 100) := by
    rw [F64.IsExact]
    decide +kernel
  simp only [barredRows, List.mem_cons, List.not_mem_nil, or_false] at ht
  rcases ht with rfl | rfl | rfl <;> exact hasDoubles_barredRow hexact

end Desktop.Parser
