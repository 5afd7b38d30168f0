import BankStatementProcessor.Desktop.Export.Tally
import BankStatementProcessor.Desktop.Filters

/-!
# The dates of an export

The dialog takes two dates as text, which are checked and converted before `in_range` compares
them, as text, with those of the transactions.
-/

namespace Desktop.Export

open Infra

/-- Three numbers, a year of four bytes, a month and a day. -/
def isPlausibleDdmmyyyy (s : List Char) : Bool :=
  match s.splitOn '/' with
  | [d, m, y] =>
    len y = 4 && (parseU32 d).any (fun dd => 1 ≤ dd && dd ≤ 31) &&
      (parseU32 m).any (fun mm => 1 ≤ mm && mm ≤ 12) && (parseI32 y).isSome
  | _ => false

/-- The text of a bound that is converted. An empty one is none. -/
def isoBound (raw : List Char) : String :=
  if raw.isEmpty then "" else toIsoDate (String.ofList raw)

def validateAndConvertDateRange (fromRaw toRaw : String) : Except String (String × String) :=
  let dateFrom := trim fromRaw.toList
  let dateTo := trim toRaw.toList
  if !dateFrom.isEmpty && !isPlausibleDdmmyyyy dateFrom then
    .error "Invalid From Date — use DD/MM/YYYY"
  else if !dateTo.isEmpty && !isPlausibleDdmmyyyy dateTo then
    .error "Invalid To Date — use DD/MM/YYYY"
  else if !(isoBound dateFrom).isEmpty && !(isoBound dateTo).isEmpty &&
      isoBound dateTo < isoBound dateFrom then
    .error "From Date must be on or before To Date"
  else .ok (isoBound dateFrom, isoBound dateTo)

/-- A converted bound as the options of an export hold it. -/
def asBound (iso : String) : Option String := if iso.isEmpty then none else some iso

end Desktop.Export
