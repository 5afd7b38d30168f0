import BankStatementProcessor.Desktop.Parser.DateParser

/-!
# Dates as other texts

`display_to_ts` and `tally_date`.
-/

namespace Desktop.Parser

open Infra

/-- The time of a day of a year of either sign, or 0. The calendar repeats itself every 400
years, which have 146097 days, and the library has the years from -262143 to 262142. -/
def ymdTimestamp (yy : ℤ) (mm dd : ℕ) : ℤ :=
  if yy < -262143 ∨ 262142 < yy then 0
  else
    let cycles := if yy < 1 then (-yy) / 400 + 1 else 0
    match NaiveDate.fromYmdOpt (yy + 400 * cycles).toNat mm dd with
    | some date => date.timestampMillis - cycles * 146097 * 86400000
    | none => 0

/-- `splitn(3, '/')` -/
def splitThree (s : List Char) : List (List Char) :=
  match s.splitOn '/' with
  | dd :: mm :: rest => if rest.isEmpty then [dd, mm] else [dd, mm, ['/'].intercalate rest]
  | parts => parts

def displayToTs (s : String) : ℤ :=
  match splitThree s.toList with
  | [dd, mm, yy] =>
    match parseU32 dd, parseU32 mm, parseI32 yy with
    | some dd, some mm, some yy => ymdTimestamp yy mm dd
    | _, _, _ => 0
  | _ => 0

/-- `{:0>2}` -/
def padTwo (cs : List Char) : List Char := List.replicate (2 - cs.length) '0' ++ cs

/-- What has not the form of a date is left as it is. -/
def tallyDate (dateStr : String) : String :=
  if dateStr.isEmpty then ""
  else
    match dateStr.toList.splitOnP (fun c => c == '/' || c == '-') with
    | [a, b, c] =>
      if len c = 4 then String.ofList (c ++ padTwo b ++ padTwo a)
      else if len a = 4 then String.ofList (a ++ padTwo b ++ padTwo c)
      else dateStr
    | _ => dateStr

end Desktop.Parser
