import BankStatementProcessor.Desktop.Analytics
import Mathlib.Data.List.ModifyLast

/-!
# Rows

What the loops over the rows of a sheet and of a page share: the two sides of a row, and the
last transaction, to which later rows may add.
-/

namespace Desktop.Parser

open Infra

/-! ## Sides -/

/-- The debit and the credit of a row. -/
abbrev Sides := Option F64 × Option F64

/-- The sides of a combined column, where a negative amount is a debit. -/
def signedSides (minus : Bool) : Option F64 → Sides
  | none => (none, none)
  | some v =>
    if F64.lt v (.finite 0) || minus then (some (F64.abs v), none) else (none, some v)

/-- A negative amount alone in its row stands for its absolute value. -/
def absAlone : Sides → Sides
  | (some a, none) => (some (if F64.lt a (.finite 0) then F64.abs a else a), none)
  | (none, some a) => (none, some (if F64.lt a (.finite 0) then F64.abs a else a))
  | sides => sides

/-- An amount alone on the debit side is moved to the other one. -/
def toCredit (moves : Bool) : Sides → Sides
  | (some a, none) => if moves then (none, some a) else (some a, none)
  | sides => sides

/-- An amount alone on the credit side is moved to the other one. -/
def toDebit (moves : Bool) : Sides → Sides
  | (none, some a) => if moves then (some a, none) else (none, some a)
  | sides => sides

/-- On either side. -/
def OnSide (sides : Sides) (x : F64) : Prop := x ∈ sides.1 ∨ x ∈ sides.2

section

variable {sides : Sides} {moves : Bool} {x a : F64}

@[simp] theorem onSide_toCredit : OnSide (toCredit moves sides) x ↔ OnSide sides x := by
  unfold toCredit
  split
  · split
    · exact or_comm
    · rfl
  · rfl

@[simp] theorem onSide_toDebit : OnSide (toDebit moves sides) x ↔ OnSide sides x := by
  unfold toDebit
  split
  · split
    · exact or_comm
    · rfl
  · rfl

theorem isSome_signedSides {minus : Bool} {v : Option F64} :
    ((signedSides minus v).1.isSome || (signedSides minus v).2.isSome) = v.isSome := by
  unfold signedSides
  split
  · rfl
  · split <;> rfl

theorem exists_onSide_signedSides {minus : Bool} {v : Option F64} :
    (∃ x, OnSide (signedSides minus v) x ∧ F64.abs x = F64.abs a) ↔
      ∃ b ∈ v, F64.abs b = F64.abs a := by
  unfold signedSides
  split
  · simp [OnSide]
  · split <;> simp [OnSide, F64.abs_idem]

/-- The absolute values stay. -/
theorem exists_onSide_absAlone :
    (∃ x, OnSide (absAlone sides) x ∧ F64.abs x = F64.abs a) ↔
      ∃ x, OnSide sides x ∧ F64.abs x = F64.abs a := by
  have hsame : ∀ b, F64.abs (if F64.lt b (.finite 0) then F64.abs b else b) = F64.abs b := by
    intro b
    split
    · exact F64.abs_idem b
    · rfl
  unfold absAlone
  split <;> simp [OnSide, hsame]

end

/-! ## Transactions -/

/-- What later rows leave of a transaction: its day and its sides. -/
def essence (t : Transaction) : String × ℤ × Sides := (t.date, t.dateTs, t.debit, t.credit)

/-- The transaction is of that amount, on either side. -/
def HasAmount (t : Transaction) (a : F64) : Prop :=
  ∃ x, OnSide (t.debit, t.credit) x ∧ F64.abs x = F64.abs a

/-- The narration of the last transaction goes on. -/
def continueLast (narration : List Char) (txns : List Transaction) : List Transaction :=
  txns.modifyLast fun t =>
    { t with narration := t.narration ++ " " ++ String.ofList narration }

theorem essence_modifyLast {f : Transaction → Transaction} (h : ∀ t, essence (f t) = essence t)
    (txns : List Transaction) : (txns.modifyLast f).map essence = txns.map essence := by
  rcases List.eq_nil_or_concat txns with rfl | ⟨init, t, rfl⟩
  · rfl
  · rw [List.concat_eq_append, List.modifyLast_concat]
    simp [h]

theorem essence_continueLast {narration : List Char} {txns : List Transaction} :
    (continueLast narration txns).map essence = txns.map essence := by
  refine essence_modifyLast ?_ txns
  intro t
  rfl

end Desktop.Parser
