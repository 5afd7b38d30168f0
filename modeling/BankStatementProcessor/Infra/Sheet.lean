import BankStatementProcessor.Infra.Display
import Mathlib.Data.List.Forall2

/-!
# Worksheets

What code that works on workbooks takes from the library that writes them and the one that reads
them: the cells that are written, and the text of each cell when the sheet is read.
-/

namespace Infra

inductive SheetCell where
  | blank
  | text (s : String)
  | number (x : F64)
deriving DecidableEq, Repr

namespace Sheet

/-- The limits of the format. -/
def maxStringLen : ℕ := 32767
def rowMax : ℕ := 1048576
def columnMax : ℕ := 16384

def CellFits : SheetCell → Prop
  | .text s => s.length ≤ maxStringLen
  | _ => True

instance : DecidablePred CellFits
  | .blank => .isTrue trivial
  | .text s => inferInstanceAs (Decidable (s.length ≤ maxStringLen))
  | .number _ => .isTrue trivial

/-- A sheet that can be written. -/
def Fits (rows : List (List SheetCell)) : Prop :=
  rows.length ≤ rowMax ∧ ∀ row ∈ rows, row.length ≤ columnMax ∧ ∀ cell ∈ row, CellFits cell

instance : DecidablePred Fits :=
  fun rows => inferInstanceAs (Decidable (rows.length ≤ rowMax ∧
    ∀ row ∈ rows, row.length ≤ columnMax ∧ ∀ cell ∈ row, CellFits cell))

/-- The cell is in use. An empty text is not written. -/
def isUsed : SheetCell → Bool
  | .blank => false
  | .text s => !s.isEmpty
  | .number _ => true

/-- A header, and under it rows of its length that are not blank. What is read of a sheet begins
at the first row and column in use, and ends at the last. -/
def IsTable : List (List SheetCell) → Prop
  | [] => False
  | header :: rows => header ≠ [] ∧ (∀ cell ∈ header, isUsed cell = true) ∧
      ∀ row ∈ rows, row.length = header.length ∧ ∃ cell ∈ row, isUsed cell = true

/-- The text of a cell. A number that is not finite is written as an error. -/
def ShownAs : SheetCell → String → Prop
  | .blank, shown => shown = ""
  | .text s, shown => shown = s
  | .number x, shown => x.isFinite = true → shown = x.display

end Sheet

/-- The two libraries, for the sheet with one name. -/
structure XlsxLibrary (File : Type) where
  save : List (List SheetCell) → Option File
  worksheetRange : File → List (List String)

structure XlsxLibrary.Lawful {File : Type} (lib : XlsxLibrary File) : Prop where
  saves : ∀ rows, (lib.save rows).isSome ↔ Sheet.Fits rows
  reads : ∀ rows file, lib.save rows = some file → Sheet.IsTable rows →
    List.Forall₂ (List.Forall₂ Sheet.ShownAs) rows (lib.worksheetRange file)

namespace Sheet

/-- A file that is the sheet itself. -/
def plainText : SheetCell → String
  | .blank => ""
  | .text s => s
  | .number x => x.display

def plain : XlsxLibrary (List (List SheetCell)) where
  save rows := if Fits rows then some rows else none
  worksheetRange rows := rows.map (List.map plainText)

theorem shownAs_plainText (cell : SheetCell) : ShownAs cell (plainText cell) := by
  cases cell with
  | blank => rfl
  | text s => rfl
  | number x => exact fun _ => rfl

theorem lawful_plain : plain.Lawful where
  saves := by
    intro rows
    show (if Fits rows then some rows else none).isSome ↔ _
    split <;> simp [*]
  reads := by
    intro rows file hsave _
    obtain rfl : rows = file := by
      have hfits : (if Fits rows then some rows else none) = some file := hsave
      split at hfits
      · exact Option.some.inj hfits
      · cases hfits
    refine List.forall₂_map_right_iff.mpr (List.forall₂_same.mpr fun row _ => ?_)
    exact List.forall₂_map_right_iff.mpr (List.forall₂_same.mpr fun cell _ => shownAs_plainText cell)

end Sheet

end Infra
