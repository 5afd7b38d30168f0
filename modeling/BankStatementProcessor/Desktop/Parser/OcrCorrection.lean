import BankStatementProcessor.Desktop.Analytics
import BankStatementProcessor.Infra.Unicode
import BankStatementProcessor.Infra.Words

/-!
# Correction of scanned text

`correct_text` goes over every line twice. Letters that are taken for digits become digits, and
words that nearly are a term of the dictionary become that term.
-/

namespace Desktop.Parser.OcrCorrection

open Infra

/-- `BANK_TERMS`. -/
def bankTerms : List String :=
  ["NEFT", "RTGS", "IMPS", "UPI", "NACH", "ACH", "ECS", "BBPS", "CREDIT", "DEBIT", "TRANSFER",
   "BALANCE", "INTEREST", "CHARGES", "DEPOSIT", "WITHDRAWAL", "CHEQUE", "CLEARING", "NARRATION",
   "SALARY", "PAYMENT", "RECEIPT", "VOUCHER", "AIRTEL", "BSNL", "RELIANCE", "VODAFONE", "MSEDCL",
   "BESCOM", "ELECTRICITY", "AMAZON", "FLIPKART", "SWIGGY", "ZOMATO", "HDFC", "ICICI", "AXIS",
   "KOTAK", "SBI", "REFUND", "REVERSAL", "BOUNCE", "RETURN", "SUSPENSE", "CONTRA", "JOURNAL"]

/-! ## Digits -/

/-- `SEP_RE`, one character of it. -/
def isTokenSep (c : Char) : Bool :=
  isWhitespace c || [ '/', '-', '.', ',', '|', ':'].contains c

/-- The letters that stand for digits. -/
def lookAlikes : List Char := [ 'O', 'o', 'I', 'l', 'S', 'Z', 'B', 'G', 'q', 'Q', 'A', 'g']

/-- `is_plausibly_numeric`. -/
def isPlausiblyNumeric (tok : List Char) : Bool :=
  !tok.isEmpty && len tok ≤ 20 && tok.all fun c => c.isDigit || lookAlikes.contains c

/-- `CHAR_MAP`. -/
def repairChar (c : Char) : Char :=
  if c = 'O' || c = 'o' then '0'
  else if c = 'I' || c = 'l' then '1'
  else if c = 'S' then '5'
  else if c = 'Z' || c = 'z' then '2'
  else if c = 'B' then '8'
  else if c = 'G' then '6'
  else if c = 'q' || c = 'Q' then '9'
  else if c = 'A' then '4'
  else if c = 'g' then '9'
  else c

/-- `repair_token`. -/
def repairToken (tok : List Char) : List Char :=
  if isPlausiblyNumeric tok then tok.map repairChar else tok

/-- `tok` is what has been read since the last separator. -/
def repairFrom (tok : List Char) : List Char → List Char
  | [] => repairToken tok
  | c :: s => if isTokenSep c then repairToken tok ++ c :: repairFrom [] s
    else repairFrom (tok ++ [c]) s

/-- `repair_string`. -/
def repairString (s : List Char) : List Char := repairFrom [] s

/-! ## Terms -/

/-- The row `dp[i]` from the row before. The words are read from their ends. -/
def editRow (a : Char) (i : ℕ) (above : List Char → ℕ) : List Char → ℕ
  | [] => i
  | b :: bs =>
    if a = b then above bs
    else 1 + min (min (above (b :: bs)) (editRow a i above bs)) (above bs)

/-- `dp[i][j]` of the prefixes of the two words. -/
def editDistance : List Char → List Char → ℕ
  | [] => List.length
  | a :: as => editRow a (as.length + 1) (editDistance as)

/-- `levenshtein`. -/
def levenshtein (a b : List Char) : ℕ := editDistance a.reverse b.reverse

/-- How far a term may be from a word of this length. -/
def maxDist (len : ℕ) : ℕ := if len ≤ 5 then 1 else if len ≤ 8 then 2 else 3

/-- The lengths are close enough for the distance to be asked for. -/
def isCloseLength (len : ℕ) (term : String) : Bool :=
  ((term.toList.length : ℤ) - len).natAbs ≤ maxDist len

/-- The nearest term so far, with its distance. -/
def nearerTerm (up : List Char) (len : ℕ) (best : Option (ℕ × String)) (term : String) :
    Option (ℕ × String) :=
  if !isCloseLength len term then best
  else
    let d := levenshtein up term.toList
    if (best.elim true fun b => d < b.1) && d ≤ maxDist len then some (d, term) else best

/-- `fuzzy_correct_term`. -/
def fuzzyCorrectTerm (u : Unicode) (word : List Char) : List Char :=
  let up := u.toUppercase word
  if bankTerms.any (·.toList = up) then up
  else if !(4 ≤ word.length && word.length ≤ 15) then word
  else (bankTerms.foldl (nearerTerm up word.length) none).elim word fun best => best.2.toList

/-- `ALPHA_WORD_RE`. -/
def isAlphaWord (w : List Char) : Bool := 4 ≤ w.length && w.all Char.isAlpha

/-! ## Lines -/

/-- A word of the repaired line. -/
def correctTerm (u : Unicode) (w : List Char) : List Char :=
  if !isAlphaWord w then w
  else
    let fixed := fuzzyCorrectTerm u w
    if fixed != u.toUppercase w && fixed != w then fixed else w

/-- `correct_line`. -/
def correctLine (u : Unicode) (line : List Char) : List Char :=
  if (trim line).isEmpty then line
  else [' '].intercalate ((words isWhitespace (repairString line)).map (correctTerm u))

/-- `str::lines`. The last line counts if it is not empty, and keeps its carriage return. -/
def textLines (s : List Char) : List (List Char) :=
  let pieces := s.splitOn '\n'
  let ended := pieces.dropLast.map fun l => if l.getLast? = some '\r' then l.dropLast else l
  ended ++ (pieces.getLast?.filter (!·.isEmpty)).toList

/-- One pass of `correct_text`. -/
def correctPass (u : Unicode) (text : List Char) : List Char :=
  ['\n'].intercalate ((textLines text).map (correctLine u))

/-- `correct_text`. -/
def correctText (u : Unicode) (text : List Char) (passes : ℕ) : List Char :=
  (correctPass u)^[passes] text

end Desktop.Parser.OcrCorrection
