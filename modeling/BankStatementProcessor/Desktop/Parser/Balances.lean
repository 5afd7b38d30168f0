import BankStatementProcessor.Desktop.Transaction

/-!
# The passes over the balances

What `extract_sheet_from_grid` does with the rows it has read: the balance before each row is
worked out, repeated rows are dropped, sides that the balances contradict are exchanged, and
every balance is checked against the one before it.
-/

namespace Desktop.Parser

open Infra

/-- `unwrap_or(0.0)`. -/
def orZero (x : Option F64) : F64 := x.getD (.finite 0)

def hasAmt (t : Transaction) : Bool := t.debit.isSome || t.credit.isSome

/-! ## The balance before each row -/

/-- `round2(balance - debit + credit)`. -/
def expectedBalance (balance : F64) (t : Transaction) : F64 :=
  F64.round2 (F64.add (F64.sub balance (orZero t.debit)) (orZero t.credit))

/-- The opening balance that the first row with a balance and an amount leads back to. -/
def deriveOpening (txns : List Transaction) : Option F64 :=
  txns.findSome? fun t =>
    if hasAmt t then
      t.balance.map fun bal => F64.round2 (F64.sub bal (F64.sub (orZero t.credit) (orZero t.debit)))
    else none

/-- The running balance after a row. -/
def nextRunBal (runBal : Option F64) (t : Transaction) : Option F64 :=
  if hasAmt t then
    match runBal, t.balance with
    | _, some stated => some stated
    | some rb, none => some (expectedBalance rb t)
    | none, none => none
  else t.balance.or runBal

def stampPrevBalances (runBal : Option F64) : List Transaction → List Transaction
  | [] => []
  | t :: txns =>
    { t with prevBalance := runBal.map F64.round2 } :: stampPrevBalances (nextRunBal runBal t) txns

/-- The rows, each with the balance before it, and the opening balance. -/
def computePrevBalances (txns : List Transaction) (openingBalance : Option F64) :
    List Transaction × Option F64 :=
  if txns.isEmpty then (txns, openingBalance)
  else
    let opBal := openingBalance.or (deriveOpening txns)
    (stampPrevBalances opBal txns, opBal)

/-! ## The sides -/

/-- Two percent of the amount, and at least a rupee. -/
def tolerance (amt : F64) : F64 := F64.max (.finite 1) (F64.mul amt (.finite (2 / 100)))

/-- Exchange the sides of a row that the change of the balance `diff` contradicts. -/
def correctRow (diff : F64) (t : Transaction) : Transaction :=
  match t.debit, t.credit with
  | some dr, none =>
    if F64.lt (F64.abs (F64.sub diff dr)) (tolerance dr) then
      { t with credit := some dr, debit := none }
    else t
  | none, some cr =>
    if F64.lt (F64.abs (F64.add diff cr)) (tolerance cr) then
      { t with debit := some cr, credit := none }
    else t
  | _, _ => t

def correctFrom (prevBal : Option F64) : List Transaction → List Transaction
  | [] => []
  | t :: txns =>
    if t.isOpeningBalance then t :: correctFrom t.balance txns
    else
      match t.balance, prevBal with
      | none, _ => t :: correctFrom prevBal txns
      | some bal, none => t :: correctFrom (some bal) txns
      | some bal, some pb =>
        correctRow (F64.round2 (F64.sub bal pb)) t :: correctFrom (some bal) txns

def correctDebitCreditByBalance (txns : List Transaction) : List Transaction :=
  correctFrom none txns

section

/- How a number is written. -/
variable (toString : F64 → String)

def dedupKey (t : Transaction) : String :=
  let amount (x : Option F64) := (x.map toString).getD ""
  s!"{t.date}|{t.narration}|{amount t.debit}|{amount t.credit}|{amount t.balance}"

def deduplicateFrom (seen : List String) : List Transaction → List Transaction
  | [] => []
  | t :: txns =>
    if t.isOpeningBalance then t :: deduplicateFrom seen txns
    else if seen.contains (dedupKey toString t) then deduplicateFrom seen txns
    else t :: deduplicateFrom (dedupKey toString t :: seen) txns

def deduplicateTxns (txns : List Transaction) : List Transaction := deduplicateFrom toString [] txns

end

/-! ## The check -/

/-- More than a rupee away from the balance that was expected. -/
def isMismatch (prevBal actual : F64) (t : Transaction) : Bool :=
  F64.lt (.finite 1) (F64.abs (F64.sub (expectedBalance prevBal t) actual))

def validateBalances (prevBal : Option F64) : List Transaction → List Transaction
  | [] => []
  | t :: txns =>
    if hasAmt t then
      match t.balance, prevBal with
      | none, _ => t :: validateBalances prevBal txns
      | some actual, none => { t with balanceOk := some true } :: validateBalances (some actual) txns
      | some actual, some pb =>
        { t with balanceOk := some (!isMismatch pb actual t) } ::
          validateBalances (some actual) txns
    else t :: validateBalances (prevBal.or t.balance) txns

/-! ## The opening balance row -/

/-- `hash` is `Transaction::hash`. -/
def prependOpeningBalanceRow (hash : Transaction → String) (openingBalance : Option F64)
    (bankName accountNo : String) : List Transaction → List Transaction
  | [] => []
  | first :: txns =>
    let derived :=
      if hasAmt first then
        first.balance.map fun bal =>
          F64.round2 (F64.sub bal (F64.sub (orZero first.credit) (orZero first.debit)))
      else none
    match derived.or openingBalance with
    | none => first :: txns
    | some ob =>
      { Transaction.new s!"opening_balance_{hash first}" with
        narration := "Opening Balance"
        balance := some ob
        bankName := bankName
        accountNo := accountNo
        isOpeningBalance := true } :: first :: txns

/-- The end of `extract_sheet_from_grid`. -/
def finishSheet (toString : F64 → String) (hash : Transaction → String)
    (opBalance : Option F64) (txns : List Transaction) : List Transaction × Option F64 :=
  let (stamped, opBalance) := computePrevBalances txns opBalance
  let corrected := correctDebitCreditByBalance (deduplicateTxns toString stamped)
  (prependOpeningBalanceRow hash opBalance "" "" (validateBalances opBalance corrected), opBalance)

end Desktop.Parser
