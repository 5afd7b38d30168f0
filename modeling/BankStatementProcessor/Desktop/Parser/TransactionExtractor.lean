import BankStatementProcessor.Desktop.Parser.RowBuilder

/-!
# Rows of scanned tables

`classify_row` sorts the words of one row into the narration and three columns of amounts. The
extractors that call it, which find the table and read the amounts, are not modelled.
-/

namespace Desktop.Parser

open Infra

/-- `strip_ocr_junk`. -/
def stripOcrJunk (s : List Char) : List Char :=
  s.filter fun c => !([ '\x7d', '|', '\x7b', '[', ']', '$'].contains c)

/-- `is_amount_shaped`. -/
def isAmountShaped (text : List Char) : Bool :=
  let cleaned := stripOcrJunk text
  !cleaned.isEmpty && cleaned.all fun c => c.isDigit || c == ',' || c == '.'

/-- `dangling`. -/
def dangling (frags : List String) : Bool :=
  match frags.getLast? with
  | some f => (stripOcrJunk f.toList).getLast? == some '.'
  | none => false

/-- The columns of amounts: withdrawals, deposits and balances. -/
inductive AmountColumn where
  | col0
  | col1
  | balance
deriving DecidableEq, Repr

/-- What the rows of a block have given so far. -/
structure Fragments where
  narrationParts : List String
  frags : AmountColumn → List String

def Fragments.pushTo (block : Fragments) (col : AmountColumn) (text : String) : Fragments :=
  { block with
    frags := fun c => if c = col then block.frags c ++ [text] else block.frags c }

section

variable (isAlphanumeric : Char → Bool) (fl : F64 → F64) (wallX : F64)
  (anchors : AmountColumn → F64)

/-- A word behind the wall. -/
def isBehindWall (it : PdfItem) : Bool := !(it.x.lt wallX || (trim it.text.toList).isEmpty)

def amountItems (row : List PdfItem) : List PdfItem :=
  row.filter fun it => isBehindWall wallX it && isAmountShaped it.text.toList

/-- A word without a letter or a digit is taken for a piece of a ruling line. -/
def narrationWords (row : List PdfItem) : List String :=
  (row.filter fun it => isBehindWall wallX it && !isAmountShaped it.text.toList &&
    (trim it.text.toList).any isAlphanumeric).map PdfItem.text

/-- The column whose anchor is nearest, the first of equals. No coordinate is NaN, so all distances
compare. -/
def nearestColumn (x : F64) : AmountColumn :=
  let distance (col : AmountColumn) : F64 := (fl (x.sub (anchors col))).abs
  let best := if (distance .col1).lt (distance .col0) then AmountColumn.col1 else .col0
  if (distance .balance).lt (distance best) then .balance else best

/-- The columns whose last fragment waits for its decimals, from left to right. -/
def danglingColumns (block : Fragments) : List AmountColumn :=
  ([.col0, .col1, .balance].filter fun col => dangling (block.frags col)).mergeSort
    fun a b => (cmpF64 (anchors a) (anchors b)).isLE

/-- `classify_row`. -/
def classifyRow (row : List PdfItem) (block : Fragments) : Fragments :=
  let words := narrationWords isAlphanumeric wallX row
  let block := if words.isEmpty then block
    else { block with narrationParts := block.narrationParts ++ [" ".intercalate words] }
  let items := sortByX (amountItems wallX row)
  let waiting := danglingColumns anchors block
  let paired := waiting.length.min items.length
  let block := (waiting.zip items).foldl (fun b p => b.pushTo p.1 p.2.text) block
  (items.drop paired).foldl (fun b it => b.pushTo (nearestColumn fl anchors it.x) it.text) block

end

end Desktop.Parser
