import BankStatementProcessor.Desktop.Classifier
import BankStatementProcessor.Desktop.Loading
import BankStatementProcessor.Infra.HashOrder
import BankStatementProcessor.Infra.Marking

/-!
# Duplicates

`detect_duplicates` flags a row for one of three reasons: an earlier row has the same hash, or
the same reference and amount, or a narration like its own on the same day. Each reason has a pass
of its own, and the later passes skip what is flagged.
-/

namespace Desktop.Duplicates

open Infra

/-- Opening balances and rows that were added by hand are never duplicates. -/
def isExempt (t : Transaction) : Bool := t.isOpeningBalance || t.status == .manual

/-- The flag and the tag `DUP`. -/
def flag (t : Transaction) : Transaction := { addTag "DUP" t with dupFlag := true }

/-! ## The same hash -/

def hashKey (t : Transaction) : Option String := if isExempt t then none else some t.hash

def flagSameHash (txns : List Transaction) : List Transaction := markRepeats hashKey flag [] txns

/-! ## The same reference and amount -/

def looksLikeReferenceNumber (r : List Char) : Bool := 4 ≤ r.countP Char.isDigit

/-- `t.debit.or(t.credit).unwrap_or(0.0)` -/
def amount (t : Transaction) : F64 := (t.debit.or t.credit).getD (.finite 0)

def referenceKey (t : Transaction) : Option String :=
  if isExempt t || t.dupFlag then none
  else
    let r := trim t.reference.toList
    let amt := amount t
    if !r.isEmpty && (F64.finite 0).lt amt && looksLikeReferenceNumber r then
      some (String.ofList (r ++ '|' :: (amt.fixed 2).toList))
    else none

def flagSameReference (txns : List Transaction) : List Transaction :=
  markRepeats referenceKey flag [] txns

/-! ## A narration like it -/

section

variable (u : Unicode) (isNumeric : Char → Bool) (fl : F64 → F64)

/-- `c.is_alphanumeric()` -/
def isAlphanumeric (c : Char) : Bool := u.isAlphabetic c || isNumeric c

/-- The words that count, each once. A long run of digits counts as any long word does. -/
def tokens (s : String) : List (List Char) :=
  let words := (u.toUppercase s.toList).splitOnP fun c => !isAlphanumeric u isNumeric c
  ((words.map trim).filter fun tok =>
    4 ≤ len tok || (6 ≤ len tok && tok.all Char.isDigit)).dedup

/-- The share of the words that are common. -/
def narrSimilarity (a b : String) : F64 :=
  let ta := tokens u isNumeric a
  let tb := tokens u isNumeric b
  if ta.isEmpty || tb.isEmpty then .finite 0
  else
    let common := ta.countP tb.contains
    fl (.finite (common / max ta.length tb.length))

/-- The amount above 0 of the row, and whether it is a debit. -/
def movement (t : Transaction) : Option (F64 × Bool) :=
  match t.debit, t.credit with
  | some d, credit =>
    if (F64.finite 0).lt d then some (d, true)
    else
      match credit with
      | some c => if (F64.finite 0).lt c then some (c, false) else none
      | none => none
  | none, some c => if (F64.finite 0).lt c then some (c, false) else none
  | none, none => none

/-- The date, the amount and the direction. -/
def bucketKey (t : Transaction) : Option (String × String × Bool) :=
  if isExempt t || t.dupFlag then none
  else (movement t).map fun (amt, isDebit) => (t.date, amt.fixed 2, isDebit)

/-- The places of the rows of each bucket, in the order in which the buckets are made. -/
def buckets (txns : List Transaction) : List (List ℕ) :=
  let keys := txns.map bucketKey
  keys.reduceOption.dedup.map fun key =>
    (List.range txns.length).filter fun i => keys[i]? = some (some key)

def isSimilar (t t' : Transaction) : Bool :=
  (F64.finite (1 / 2)).le (narrSimilarity u isNumeric fl t.narration t'.narration)

/-- The buckets are visited in the order in which the hash table lists them. -/
def flagSimilar (o : HashOrder (List ℕ)) (txns : List Transaction) : List Transaction :=
  (o.order (buckets txns)).foldl (fun txns idxs =>
    if idxs.length < 2 then txns
    else markGroup (isSimilar u isNumeric fl) Transaction.dupFlag flag idxs txns) txns

def detectDuplicates (o : HashOrder (List ℕ)) (txns : List Transaction) : List Transaction :=
  flagSimilar u isNumeric fl o (flagSameReference (flagSameHash txns))

end

end Desktop.Duplicates
