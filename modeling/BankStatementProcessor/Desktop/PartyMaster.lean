import BankStatementProcessor.Desktop.NarrationCleaner
import BankStatementProcessor.Infra.HashOrder
import Mathlib.Data.Char
import Mathlib.Data.List.Lex
import Mathlib.Data.List.Sort

/-!
# Names of parties

`normalize_vendors` gives the spellings of one party one name. It goes through the names in the
order of a hash set, and through what it has made of them in that of a hash map.
-/

namespace Desktop

open Infra

/-! ## Tokens -/

/-- `is_category_head`. -/
def isCategoryHead (u : Unicode) (s : List Char) : Bool :=
  ["expense", "income", "payable", "receivable", "charges", "fee", "salary", "rent", "interest",
   "purchase", "tax", "cash", "contra", "provision", "allowance", "sundry debtors",
   "sundry creditors"].any (contains (u.toLowercase s))

/-- The words of a name in upper case. -/
def nameTokens (u : Unicode) (name : List Char) : List (List Char) :=
  (words isWhitespace name).map u.toUppercase

/-- `signature`. -/
def signature (u : Unicode) (normalized : List Char) : List Char :=
  ['|'].intercalate ((nameTokens u normalized).insertionSort (· ≤ ·))

/-- `MIN_PARTIAL_PREFIX_LEN`. -/
def minPartialPrefixLen : ℕ := 4

/-- Each token in turn takes the first one left that it begins. -/
def takePrefixes : List (List Char) → List (List Char) → Bool
  | [], _ => true
  | st :: sts, longTokens =>
    if st.length < minPartialPrefixLen then false
    else
      match longTokens.findIdx? (st.isPrefixOf ·) with
      | some pos => takePrefixes sts (longTokens.eraseIdx pos)
      | none => false

/-- `is_partial_name_of`. -/
def isPartialNameOf (u : Unicode) (short long : List Char) : Bool :=
  let shortTokens := nameTokens u short
  let longTokens := nameTokens u long
  if shortTokens.isEmpty || longTokens.length ≤ shortTokens.length then false
  else takePrefixes shortTokens longTokens

/-! ## The names of a list -/

/-- The names of a transaction that are read: its vendor, and its head if that is not a category. -/
def vendorName (t : Transaction) : Option (List Char) :=
  let v := trim t.vendor.toList
  if v.isEmpty then none else some v

def headName (u : Unicode) (t : Transaction) : Option (List Char) :=
  let h := trim t.accountHead.toList
  if 2 ≤ len h && !isCategoryHead u h then some h else none

/-- The names of all, each as often as it stands there. -/
def partyNames (u : Unicode) (txns : List Transaction) : List (List Char) :=
  (txns.filter fun t => !t.isOpeningBalance).flatMap fun t =>
    (vendorName t).toList ++ (headName u t).toList

/-- A name under its signature. The first one made for a signature stays. -/
def addSignature (u : Unicode) (sigMap : List (List Char × List Char)) (raw : List Char) :
    List (List Char × List Char) :=
  if len raw < 2 then sigMap
  else
    let canonical := normalizeLedgerName u raw
    let sig := signature u canonical
    if sigMap.any (·.1 = sig) then sigMap else sigMap ++ [(sig, canonical)]

/-- Pass 1: `sig_map`, of the names in the order given. -/
def sigMapOf (u : Unicode) (raws : List (List Char)) : List (List Char × List Char) :=
  raws.foldl (addSignature u) []

/-- How many names have a signature. -/
def sigWeight (u : Unicode) (txns : List Transaction) (sig : List Char) : ℕ :=
  (partyNames u txns).countP fun n => signature u (normalizeLedgerName u n) = sig

/-! ## Partial names -/

/-- The longer name that more of the list points to, and of two such the one that is first in the
alphabet. -/
def isBetter (weight : List Char → ℕ) (long best : List Char × List Char) : Bool :=
  weight best.1 < weight long.1 || (weight long.1 == weight best.1 && long.2 < best.2)

/-- The best of the names that a name is a part of. -/
def bestLong (u : Unicode) (weight : List Char → ℕ) (sigs : List (List Char × List Char))
    (short : List Char × List Char) : Option (List Char × List Char) :=
  sigs.foldl (fun best long =>
    if short.1 = long.1 || !isPartialNameOf u short.2 long.2 then best
    else
      match best with
      | none => some long
      | some b => if isBetter weight long b then some long else some b) none

/-- Pass 1.5: `partial_remap`, as a function of the signature. -/
def partialRemap (u : Unicode) (weight : List Char → ℕ) (sigs : List (List Char × List Char))
    (sig : List Char) : Option (List Char) :=
  (sigs.find? (·.1 = sig)).bind fun short => (bestLong u weight sigs short).map (·.2)

/-! ## Renaming -/

/-- What the passes have made: the names under their signatures and where short names lead. -/
structure NameTable where
  sigMap : List (List Char × List Char)
  remap : List Char → Option (List Char)

/-- What a name is replaced by. -/
def NameTable.resolved (u : Unicode) (table : NameTable) (name : List Char) : Option (List Char) :=
  let sig := signature u (normalizeLedgerName u name)
  table.remap sig <|> (table.sigMap.find? (·.1 = sig)).map (·.2)

def nameTable (u : Unicode) (names : HashOrder (List Char))
    (entries : HashOrder (List Char × List Char)) (txns : List Transaction) : NameTable :=
  let sigMap := sigMapOf u (names.order (partyNames u txns).dedup)
  { sigMap, remap := partialRemap u (sigWeight u txns) (entries.order sigMap) }

/-- Pass 2 for one transaction. -/
def renameParty (u : Unicode) (table : NameTable) (t : Transaction) : Transaction :=
  if t.isOpeningBalance then t
  else
    { t with
      vendor := (((vendorName t).bind (table.resolved u)).map String.ofList).getD t.vendor
      accountHead :=
        (((headName u t).bind (table.resolved u)).map String.ofList).getD t.accountHead }

/-- `normalize_vendors`: the transactions, and how many vendors were changed. -/
def normalizeVendors (u : Unicode) (names : HashOrder (List Char))
    (entries : HashOrder (List Char × List Char)) (txns : List Transaction) :
    List Transaction × ℕ :=
  let table := nameTable u names entries txns
  (txns.map (renameParty u table),
    txns.countP fun t => (renameParty u table t).vendor != t.vendor)

end Desktop
