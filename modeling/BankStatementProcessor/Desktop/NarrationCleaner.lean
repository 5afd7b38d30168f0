import BankStatementProcessor.Desktop.Analytics
import BankStatementProcessor.Infra.Unicode
import BankStatementProcessor.Infra.Words
import Mathlib.Data.List.DropRight

/-!
# Names of ledgers

`normalize_ledger_name` looks a name up in a table of vendors, and brings every other name into one
form. The cleaning of narrations, which the same file holds, is not modelled.
-/

namespace Desktop

open Infra

/-! ## Tables -/

/-- `VENDOR_DICT`. -/
def vendorDict : List (String × String) :=
  [("AMAZON SELLER", "Amazon Seller"), ("AMAZON", "Amazon"), ("FLIPKART", "Flipkart"),
   ("SWIGGY INSTAMART", "Swiggy"), ("SWIGGY", "Swiggy"), ("ZOMATO", "Zomato"), ("AIRTEL", "Airtel"),
   ("RELIANCE JIO", "Reliance Jio"), ("JIO", "Reliance Jio"), ("VODAFONE", "Vodafone"),
   ("BSNL", "BSNL"), ("MSEDCL", "MSEDCL"), ("BESCOM", "BESCOM"), ("LIC", "LIC of India"),
   ("ICICI PRU", "ICICI Prudential"), ("HDFC LIFE", "HDFC Life"),
   ("MAX LIFE", "Max Life Insurance"), ("STAR HEALTH", "Star Health Insurance"),
   ("FACEBOOK", "Meta (Facebook)"), ("GOOGLE", "Google"), ("NETFLIX", "Netflix"),
   ("HOTSTAR", "Disney+ Hotstar"), ("SPOTIFY", "Spotify"), ("MICROSOFT", "Microsoft"),
   ("APPLE", "Apple"), ("UBER", "Uber"), ("OLA", "Ola"), ("RAPIDO", "Rapido"), ("IRCTC", "IRCTC"),
   ("MAKEMYTRIP", "MakeMyTrip"), ("GOIBIBO", "Goibibo"), ("MYNTRA", "Myntra"), ("NYKAA", "Nykaa"),
   ("BIGBASKET", "BigBasket"), ("BLINKIT", "Blinkit"), ("ZEPTO", "Zepto"), ("PAYTM", "Paytm"),
   ("PHONEPE", "PhonePe"), ("RAZORPAY", "Razorpay"), ("CASHFREE", "Cashfree"),
   ("GPAY", "Google Pay"), ("GPY", "Google Pay"), ("BPCL", "BPCL"), ("HPCL", "HPCL"),
   ("INDIAN OIL", "Indian Oil"), ("TATA", "Tata"), ("ELECTRICITY", "Electricity Board"),
   ("DUNZO", "Dunzo"), ("JUSPAY", "Juspay")]

/-- `LEDGER_SUFFIX_NOISE`. -/
def ledgerSuffixNoise : List String :=
  ["LTD", "LIMITED", "PVT", "PRIVATE", "INC", "CORP", "CORPORATION", "LLC", "LLP", "INDIA",
   "INDIAN", "SERVICES", "SERVICE", "SOLUTIONS", "SOLUTION", "TECHNOLOGIES", "TECHNOLOGY", "TECH",
   "SYSTEMS", "SYSTEM", "ENTERPRISES", "ENTERPRISE", "GROUP", "HOLDINGS", "HOLDING", "PAY",
   "PAYMENT", "PAYMENTS", "SELLER", "SELLERS", "MARKETPLACE", "RETAIL", "STORE", "SHOP", "ONLINE",
   "DIGITAL", "MOBILE", "INSTAMART", "EXPRESS", "NOW", "QUICK"]

/-- `LEDGER_BIZ_WORDS`. -/
def ledgerBizWords : List String :=
  ["TRADERS", "TRADING", "TRADE", "INDUSTRIES", "INDUSTRY", "MANUFACTURING", "DISTRIBUTORS",
   "DISTRIBUTOR", "EXPORTERS", "EXPORTER", "IMPORTERS", "IMPORTER", "AGENCY", "AGENCIES",
   "CONTRACTORS", "CONTRACTOR", "DEVELOPERS", "DEVELOPER", "BUILDERS", "BUILDER", "CONSTRUCTIONS",
   "CONSTRUCTION", "ASSOCIATES", "ASSOCIATE", "PARTNERS", "PARTNER", "BROTHERS", "BROS", "CO",
   "COMPANY", "WORKS", "CONSULTANTS", "CONSULTANCY", "MART", "CENTRE", "CENTER", "HOUSE", "DEALERS",
   "DEALER", "SUPPLIERS", "SUPPLIER", "HOSPITAL", "CLINIC", "SCHOOL", "COLLEGE", "INSTITUTE",
   "FOUNDATION", "TRUST", "BANK"]

/-! ## Title case -/

/-- `lower_words`. -/
def lowerWords : List String := ["of", "in", "at", "for", "and", "or", "by", "to", "the", "a", "an"]

/-- The word at a place. A short abbreviation stays as it is. -/
def titleWord (u : Unicode) (i : ℕ) (w : List Char) : List Char :=
  let wl := u.toLowercase w
  let isLower := lowerWords.any fun l => l.toList = wl
  if len w ≤ 4 && w.all Char.isUpper && !isLower then w
  else if isLower && 0 < i then wl
  else
    match w with
    | [] => []
    | c :: cs => u.toUppercase [c] ++ u.toLowercase cs

/-- `to_title_case`. -/
def toTitleCase (u : Unicode) (s : List Char) : List Char :=
  [' '].intercalate ((words isWhitespace s).mapIdx (titleWord u))

/-! ## Ledger names -/

/-- A hyphen with a blank beside it. -/
def isLocationHyphen (s : List Char) (i : ℕ) : Bool :=
  s[i]? == some '-' && ((0 < i && s[i - 1]? == some ' ') || s[i + 1]? == some ' ')

/-- `strip_location_suffix`. -/
def stripLocationSuffix (s : List Char) : List Char :=
  match (List.range s.length).find? (isLocationHyphen s) with
  | some i => (s.take i).rdropWhile isWhitespace
  | none => s

/-- The name in upper case, without its location and without dots. -/
def nameUp (u : Unicode) (raw : List Char) : List Char :=
  trim (u.toUppercase ((stripLocationSuffix raw).filter (· != '.')))

/-- The vendor that the table knows under a name. -/
def dictVendor (name : List Char) : Option String :=
  (vendorDict.find? fun v => v.1.toList = name || (v.1.toList ++ [' ']).isPrefixOf name).map (·.2)

def isSuffixNoise (w : List Char) : Bool := ledgerSuffixNoise.any fun n => n.toList = w

def isBizWord (w : List Char) : Bool := ledgerBizWords.any fun b => b.toList = w

/-- Noise words are taken off the end. The first word stays. -/
def stripNoise : List (List Char) → List (List Char)
  | [] => []
  | w :: ws => w :: ws.rdropWhile isSuffixNoise

/-- Rule A: what follows is cut where one of the first two words is said again. -/
def collapseRepeated (ws : List (List Char)) : List (List Char) :=
  ws.take 2 ++ (ws.drop 2).takeWhile fun w => !(ws.take 2).contains w

/-- Rule B: a name that is not that of a business has two words. -/
def capPersonal (ws : List (List Char)) : List (List Char) :=
  if 3 ≤ ws.length && !ws.any isBizWord then ws.take 2 else ws

/-- Rule C: the two words of a personal name stand in one order. -/
def orderPersonal : List (List Char) → List (List Char)
  | [a, b] => if !isBizWord a && !isBizWord b && a < b then [b, a] else [a, b]
  | ws => ws

/-- The words of a name that the table does not know. -/
def ledgerWords (name : List Char) : List (List Char) :=
  orderPersonal (capPersonal (collapseRepeated (stripNoise (words isWhitespace name))))

/-- `normalize_ledger_name`. -/
def normalizeLedgerName (u : Unicode) (raw : List Char) : List Char :=
  if raw.isEmpty then raw
  else
    match dictVendor (nameUp u raw) with
    | some canonical => canonical.toList
    | none =>
      let stripped := [' '].intercalate (ledgerWords (nameUp u raw))
      match dictVendor stripped with
      | some canonical => canonical.toList
      | none => toTitleCase u stripped

example : normalizeLedgerName .ascii "A.B.C. Traders- Mumbai".toList = "ABC Traders".toList := by
  decide +kernel

example : normalizeLedgerName .ascii "GAURAV VIDWANS".toList = "Vidwans Gaurav".toList := by
  decide +kernel

end Desktop
