import BankStatementProcessor.Desktop.Parser.Rows
import BankStatementProcessor.Desktop.Transaction

/-!
# Statements read from a picture

The second pass of `parse_ocr_text`. The rows that the first pass has collected are gone through
in the order of time, and the change of the balance says on which side each amount stands.
Arithmetic is rounded by `fl`.
-/

namespace Desktop.Parser

open Infra

/-- The amounts of a row but the last one, which is the balance, and its markers. -/
structure AmtInfo where
  txnAmts : List F64
  drMarker : Bool
  crMarker : Bool
deriving DecidableEq, Repr

/-- The double written `0.02`. -/
def twoPercent : F64 := .finite (mkRat 5764607523034235 288230376151711744)

section

variable (fl : F64 → F64)

/-- `min_by`, which keeps the first of equals. The amounts are finite, so all compare. -/
def minBy (key : F64 → F64) (x : F64) (xs : List F64) : F64 :=
  xs.foldl (fun best y => if F64.lt (key y) (key best) then y else best) x

/-- How far an amount is from the change of the balance. -/
def distance (diff amt : F64) : F64 := F64.abs (fl (F64.sub (F64.abs diff) amt))

/-- The amount that explains the change of the balance best, or the first or the last one where
none explains it. -/
def chosenAmount (diff a : F64) (rest : List F64) : F64 :=
  let best := minBy (distance fl diff) a rest
  if F64.lt (distance fl diff best) (fl (F64.mul (F64.max best (.finite 1)) twoPercent)) then best
  else if F64.lt diff (.finite 0) then a
  else (a :: rest).getLast (by simp)

/-- The balance rose by about the amount. -/
def wentUp (diff amt : F64) : Bool :=
  F64.lt (F64.abs (fl (F64.sub diff amt))) (fl (F64.mul amt twoPercent))

/-- The balance fell by about the amount. -/
def wentDown (diff amt : F64) : Bool :=
  F64.lt (F64.abs (fl (F64.add diff amt))) (fl (F64.mul amt twoPercent))

def decideSides (prevBalance : Option F64) (balance : F64) (info : AmtInfo) : Sides :=
  match info.txnAmts with
  | [] => (none, none)
  | [amt] =>
    if info.drMarker then (some amt, none)
    else if info.crMarker then (none, some amt)
    else
      match prevBalance with
      | some prev =>
        let diff := fl (F64.sub balance prev)
        if wentUp fl diff amt then (none, some amt)
        else if wentDown fl diff amt then (some amt, none)
        else (none, some amt)
      | none => (none, some amt)
  | a :: rest =>
    match prevBalance with
    | some prev =>
      let diff := fl (F64.sub balance prev)
      let chosen := chosenAmount fl diff a rest
      (if F64.lt diff (.finite 0) then some chosen else none,
        if F64.lt (.finite 0) diff then some chosen else none)
    | none => (none, some a)

/-- `filter(|&v| v > 0.0).map(|v| (v * 100.0).round() / 100.0)` -/
def roundSide (side : Option F64) : Option F64 :=
  (side.filter fun v => F64.lt (.finite 0) v).map fun v =>
    fl ((F64.round (fl (F64.mul v (.finite 100)))).divNat 100)

/-- The balance that a row states. -/
def rowBalance (row : Transaction × AmtInfo) : F64 := row.1.balance.getD (.finite 0)

def decideRow (prevBalance : Option F64) (row : Transaction × AmtInfo) : Transaction :=
  let (debit, credit) := decideSides fl prevBalance (rowBalance row) row.2
  { row.1 with debit := roundSide fl debit, credit := roundSide fl credit }

/-- The rows in the order of time, each with the balance before it. -/
def decideRows : Option F64 → List (Transaction × AmtInfo) → List Transaction
  | _, [] => []
  | prevBalance, row :: rows =>
    decideRow fl prevBalance row :: decideRows (some (rowBalance row)) rows

/-- The newest row is listed first: the first date is later than the last one. -/
def isDescending (txns : List Transaction) : Bool :=
  let dated := (txns.map (·.dateTs)).filter (· ≠ 0)
  match dated.head?, dated.getLast? with
  | some first, some last => first > last
  | _, _ => false

/-- The second pass of `parse_ocr_text`. The order of the rows stays. -/
def secondPass (rows : List (Transaction × AmtInfo)) : List Transaction :=
  if isDescending (rows.map (·.1)) then (decideRows fl none rows.reverse).reverse
  else decideRows fl none rows

end

end Desktop.Parser
