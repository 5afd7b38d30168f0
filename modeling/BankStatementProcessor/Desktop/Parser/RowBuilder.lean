import BankStatementProcessor.Desktop.Parser.PdfParser

/-!
# Rows of text

The items of a page, or of all pages one below the other, are put into rows by their height.
-/

namespace Desktop.Parser

open Infra

/-- A text run with the place of its top left corner. -/
structure RawPdfItem where
  text : String
  x : F64
  y : F64
  w : F64
deriving DecidableEq, Repr

/-- The height is dropped. No row reader asks for the width. -/
def RawPdfItem.intoPdfItem (item : RawPdfItem) : PdfItem := ⟨item.x, item.text⟩

/-- `partial_cmp(..).unwrap_or(Equal)` -/
def cmpF64 (x y : F64) : Ordering :=
  if x.lt y then .lt else if y.lt x then .gt else .eq

def RawPdfItem.notAfter (a b : RawPdfItem) : Bool :=
  ((cmpF64 a.y b.y).then (cmpF64 a.x b.x)).isLE

def sortByX (row : List PdfItem) : List PdfItem :=
  row.mergeSort fun a b => (cmpF64 a.x b.x).isLE

structure RowBuilder where
  rows : List (List PdfItem)
  curY : F64
  curRow : List PdfItem
deriving DecidableEq, Repr

def RowBuilder.flush (b : RowBuilder) : List (List PdfItem) :=
  if b.curRow.isEmpty then b.rows else b.rows ++ [sortByX b.curRow]

/-- `fl` rounds the difference of two heights. -/
def RowBuilder.push (fl : F64 → F64) (yTolerance : F64) (b : RowBuilder) (item : RawPdfItem) :
    RowBuilder :=
  if (fl (item.y.sub b.curY)).abs.le yTolerance then
    { b with curRow := b.curRow ++ [item.intoPdfItem] }
  else ⟨b.flush, item.y, [item.intoPdfItem]⟩

def clusterIntoRows (fl : F64 → F64) (items : List RawPdfItem) (yTolerance : F64) :
    List (List PdfItem) :=
  match items.mergeSort RawPdfItem.notAfter with
  | [] => []
  | first :: rest =>
    ((first :: rest).foldl (RowBuilder.push fl yTolerance) ⟨[], first.y, []⟩).flush

end Desktop.Parser
