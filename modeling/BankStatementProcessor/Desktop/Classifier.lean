import BankStatementProcessor.Desktop.Analytics
import BankStatementProcessor.Infra.Regex

/-!
# The classifier

`classify_one` tries the stored rules, then a table of keywords, and at last the direction of
the money. The name of the party, the GST analysis and the search for duplicates come from
other parts of the application; nothing below depends on what they answer.
-/

namespace Desktop

open Infra

structure ClassificationRule where
  id : ℕ
  /-- 0 for a rule of every client. -/
  clientId : ℕ
  pattern : String
  vendor : String
  accountHead : String
  txnType : String
deriving DecidableEq, Repr

/-- What `gst_engine::analyse` finds, as far as the classifier reads it. -/
structure GstAnalysis where
  gstRate : Option F64
  gstType : Option String
  gstAmount : Option F64
  expenseLedger : Option String
deriving DecidableEq, Repr

/-- What the classifier asks of other parts. -/
structure ClassifierParts where
  unicode : Unicode
  extractPartyName : String → String
  detectGst : String → String → Option String
  /-- `gst_engine::analyse` of narration, reference, vendor, debit and credit. -/
  analyse : String → String → String → Option F64 → Option F64 → Option GstAnalysis
  /-- The indices that `detect_duplicates` flags. -/
  isDuplicate : List Transaction → ℕ → Bool

/-! ## The keywords -/

/-- The vendor an arm of the table names. -/
inductive KwVendor where
  | fixed (vendor : String)
  | bankLedger
  /-- The first of the choices with a keyword in the text. -/
  | firstOf (choices : List (List String × String)) (default : String)
deriving DecidableEq, Repr

structure KwArm where
  vendor : KwVendor
  head : String
  txnType : VoucherType
  keywords : List String
deriving DecidableEq, Repr

/-- One of the keywords occurs in the text. -/
def containsAny (upper : List Char) (keywords : List String) : Bool :=
  keywords.any (contains upper)

/-- The arms of `kw_match` that have a fixed voucher type, in their order. -/
def kwArms : List KwArm :=
  [{ vendor := .fixed "Self"
     head := "Cash"
     txnType := .contra
     keywords := [
       "ATM WDL", "ATM-WDL", "ATM CASH", "ATM/", "CASH WITHDRAWAL", "CASH WDL", "CASH DEP"] },
   { vendor := .bankLedger
     head := "Interest Income"
     txnType := .receipt
     keywords := [
       "INTEREST CREDITED", "INT.CR", "INTEREST CR", "INT CR", "INTEREST CREDIT", "FD INTEREST",
       "FD MATURITY", "RD MATURITY", "INTEREST ON FD"] },
   { vendor := .bankLedger
     head := "Bank Charges"
     txnType := .payment
     keywords := [
       "INTEREST CHARGED", "INT.DEB", "INTEREST DR", "INTEREST DEBIT", "BANK CHARGES",
       "SERVICE CHARGE", "SMS CHARGES", "ANNUAL FEE", "LEDGER FOLIO", "CHGS RECOVERED",
       "MIN BAL CHGS", "PROCESSING FEE", "ACCOUNT MAINTENANCE", "DEBIT CARD FEE",
       "CREDIT CARD FEE", "LOCKER CHARGES"] },
   { vendor := .fixed "Government (GST)"
     head := "GST Payable"
     txnType := .payment
     keywords := [
       "GST PAYMENT", "GST PMT", "IGST PMT", "CGST PMT", "SGST PMT", "NSDL GST", "GST CHALLAN"] },
   { vendor := .fixed "Income Tax Dept"
     head := "Income Tax Payable"
     txnType := .payment
     keywords := [
       "INCOME TAX", "ADVANCE TAX", "SELF ASSESSMENT TAX", "TDS PAYMENT", "TDS PMT", "CHALLAN 280",
       "ITNS 280", "TRACES TDS", "TAX DEDUCTED"] },
   { vendor := .fixed "Staff"
     head := "Salaries"
     txnType := .payment
     keywords := [
       "SALARY", "SAL/", "SAL-", "SALARY CREDIT", "PAYROLL", "WAGES"] },
   { vendor := .fixed "Landlord"
     head := "Rent"
     txnType := .payment
     keywords := [
       "RENT", "RENTAL", "LEASE PAYMENT", "RENT PAYMENT"] },
   { vendor := .fixed "Fuel Station"
     head := "Fuel Expense"
     txnType := .payment
     keywords := [
       "PETROL", "DIESEL", "FUEL", "BPCL", "HPCL", "IOCL", "INDIAN OIL", "BHARAT PETRO",
       "SHELL INDIA", "HP PUMP", "RELIANCE PETRO"] },
   { vendor := .firstOf
       [(["AIRTEL"], "Airtel"), (["JIO"], "Jio"), (["BSNL"], "BSNL"),
        (["VODAFONE", "VI/"], "Vodafone")]
       "Telecom"
     head := "Telephone Expense"
     txnType := .payment
     keywords := [
       "AIRTEL", "VODAFONE", "VODAFON", "VI/", "JIO", "BSNL", "MTNL", "TATASKY", "DISH TV",
       "BROADBAND", "JIOFIBER", "TATA SKY"] },
   { vendor := .fixed "Electricity Board"
     head := "Electricity Charges"
     txnType := .payment
     keywords := [
       "MSEDCL", "BESCOM", "BSES", "TNEB", "WBSEDCL", "TORRENT POWER", "TPDDL", "TANGEDCO",
       "ELECTRICITY", "ELECTRIC BILL", "POWER BILL"] },
   { vendor := .fixed "Insurance Co"
     head := "Insurance Premium"
     txnType := .payment
     keywords := [
       "LIC PREMIUM", "LIC/", "HDFC LIFE", "MAX LIFE", "ICICI PRU", "STAR HEALTH", "NIVA BUPA",
       "NEW INDIA ASSURANCE", "UNITED INDIA", "ORIENTAL INS", "INSURANCE PREMIUM", "INS PREM"] },
   { vendor := .firstOf
       [(["SWIGGY"], "Swiggy"), (["ZOMATO"], "Zomato")]
       "Food Delivery"
     head := "Food Expense"
     txnType := .payment
     keywords := [
       "SWIGGY", "ZOMATO", "UBER EATS", "DUNZO"] },
   { vendor := .fixed "Food / Dining"
     head := "Food Expense"
     txnType := .payment
     keywords := [
       "BREAD", "BAKERY", "BISCUIT", "CANTEEN", "TIFFIN", "LUNCH", "DINNER", "BREAKFAST", "SNACKS",
       "CHAI", "TEA STALL", "FOOD", "RESTAURANT", "HOTEL DINING", "MESS", "DHABA", "CAFE",
       "HALDIRAM", "DOMINOS", "PIZZA HUT", "MCDONALDS", "KFC", "SUBWAY", "BURGER KING",
       "STARBUCKS", "CHAAYOS", "COFFEE", "SHEVPURI", "SHEV PURI"] },
   { vendor := .fixed "Grocery / Kirana"
     head := "Grocery Expense"
     txnType := .payment
     keywords := [
       "BIGBASKET", "BIG BAZAAR", "DMART", "D-MART", "RELIANCE FRESH", "RELIANCE SMART",
       "MORE MEGASTORE", "STAR BAZAAR", "JIOMART", "GROFERS", "BLINKIT", "ZEPTO", "INSTAMART",
       "MILKBASKET", "GROCERY", "KIRANA", "SABZI", "VEGETABLE", "FRUITS", "DAIRY", "MILK",
       "PANEER", "GHEE", "OIL", "RICE", "WHEAT", "ATTA", "PULSES", "MASALA", "SPICES", "PROVISION",
       "BHAJI", "PAPAD", "DAHI"] },
   { vendor := .fixed "Personal Care"
     head := "Personal Care Expense"
     txnType := .payment
     keywords := [
       "PARLOUR", "PARLOR", "SALON", "HAIRCOLOUR", "HAIR COLOUR", "HAIRCUT", "BEAUTY"] },
   { vendor := .fixed "Courier Service"
     head := "Courier & Postage Expense"
     txnType := .payment
     keywords := [
       "COURIER", "SPEEDPOST", "SPEED POST", "DTDC", "BLUEDART", "BLUE DART", "FEDEX", "DELHIVERY",
       "POSTAGE"] },
   { vendor := .fixed "Stationery Shop"
     head := "Printing & Stationery Expense"
     txnType := .payment
     keywords := [
       "PHOTOCOPY", "XEROX", "STATIONERY", "PRINTOUT", "PRINTING"] },
   { vendor := .fixed "Medical"
     head := "Medical Expense"
     txnType := .payment
     keywords := [
       "MEDPLUS", "APOLLO PHARMACY", "NETMEDS", "TATA 1MG", "1MG", "PHARMEASY", "HEALTHKART",
       "PRACTO", "LYBRATE"] },
   { vendor := .firstOf
       [(["AMAZON"], "Amazon"), (["FLIPKART"], "Flipkart"), (["MYNTRA"], "Myntra"),
        (["MEESHO"], "Meesho")]
       "Online Shopping"
     head := "Office Expense"
     txnType := .payment
     keywords := [
       "AMAZON", "FLIPKART", "MYNTRA", "MEESHO", "SNAPDEAL", "NYKAA", "AJIO", "SHOPCLUES"] },
   { vendor := .firstOf
       [(["GOOGLE"], "Google"), (["MICROSOFT"], "Microsoft"), (["ZOOM"], "Zoom"),
        (["AWS"], "Amazon AWS")]
       "Software"
     head := "Software Expense"
     txnType := .payment
     keywords := [
       "GOOGLE", "MICROSOFT", "ZOOM", "DROPBOX", "CANVA", "ADOBE", "SLACK", "NOTION", "GODADDY",
       "BLUEHOST", "HOSTINGER", "GSUITE", "WORKSPACE", "OFFICE 365", "AWS", "AZURE", "NETLIFY",
       "VERCEL"] },
   { vendor := .firstOf
       [(["UBER"], "Uber"), (["OLA"], "Ola")]
       "Transport"
     head := "Travelling Expense"
     txnType := .payment
     keywords := [
       "UBER", "OLA CAB", "OLA/", "RAPIDO", "MERU"] },
   { vendor := .fixed "Travel"
     head := "Travelling Expense"
     txnType := .payment
     keywords := [
       "IRCTC", "RAILWAY", "INDIGO", "AIR INDIA", "MAKEMYTRIP", "YATRA", "CLEARTRIP", "GOIBIBO",
       "VISTARA", "SPICEJET", "AKASA"] },
   { vendor := .fixed ""
     head := "Professional Fees"
     txnType := .payment
     keywords := [
       "PROFESSIONAL FEES", "CONSULTING", "CA FEES", "AUDIT FEES", "LEGAL FEES", "ADVOCATE FEE",
       "CHARTERED ACCOUNTANT"] },
   { vendor := .fixed "Bank/NBFC"
     head := "Loan Account"
     txnType := .payment
     keywords := [
       "EMI", "LOAN EMI", "HOME LOAN EMI", "CAR LOAN", "PERSONAL LOAN", "BAJAJ FINSERV",
       "HDFC LOAN", "ICICI LOAN", "SBI LOAN"] },
   { vendor := .fixed "Investment"
     head := "Investments"
     txnType := .payment
     keywords := [
       "MUTUAL FUND", "SIP", "ZERODHA", "GROWW", "UPSTOX", "ANGEL BROKING", "ICICIDIRECT",
       "HDFC SEC", "KOTAK SEC", "MOTILAL", "NUVAMA", "PAYTM MONEY"] },
   { vendor := .fixed "Investment"
     head := "Dividend Income"
     txnType := .receipt
     keywords := [
       "DIVIDEND", "DIVIDEND CREDIT"] },
   { vendor := .fixed "Advertisement"
     head := "Advertisement Expense"
     txnType := .payment
     keywords := [
       "GOOGLE ADS", "FACEBOOK ADS", "META ADS", "INSTAGRAM ADS", "YOUTUBE ADS",
       "DIGITAL MARKETING"] }]

/-- The keywords of the last arm, which follows the direction of the money. -/
def networkKeywords : List String :=
  ["NEFT", "INFT", "RTGS", "IMPS", "UPI", "NACH", "ECS", "ACH", "BBPS"]

structure KwResult where
  vendor : String
  head : String
  txnType : VoucherType
deriving DecidableEq, Repr

def KwVendor.name (upper : List Char) (bankLedger : String) : KwVendor → String
  | .fixed vendor => vendor
  | .bankLedger => bankLedger
  | .firstOf choices default =>
    ((choices.find? fun choice => containsAny upper choice.1).map Prod.snd).getD default

/-- The first arm of the table with a keyword in the text. -/
def firstArm (upper : List Char) : Option KwArm :=
  kwArms.find? fun arm => containsAny upper arm.keywords

/-- Only a credit. -/
def Transaction.isCreditOnly (t : Transaction) : Bool := t.credit.isSome && t.debit.isNone

/-- Only a debit. -/
def Transaction.isDebitOnly (t : Transaction) : Bool := t.debit.isSome && t.credit.isNone

def combinedNarrationAndReference (t : Transaction) : String :=
  if t.reference.isEmpty then t.narration else s!"{t.narration} {t.reference}"

section

variable (parts : ClassifierParts)

/-- `to_uppercase` of the text that is matched. -/
def upperText (t : Transaction) : List Char :=
  parts.unicode.toUppercase (combinedNarrationAndReference t).toList

def kwMatch (upper : List Char) (t : Transaction) (bankLedger : String) : Option KwResult :=
  match firstArm upper with
  | some arm => some { vendor := arm.vendor.name upper bankLedger, head := arm.head,
                       txnType := arm.txnType }
  | none =>
    if containsAny upper networkKeywords then
      let party := parts.extractPartyName (combinedNarrationAndReference t)
      if t.isCreditOnly then
        some { vendor := party, head := if party.isEmpty then "Sundry Debtors" else party,
               txnType := .receipt }
      else
        some { vendor := party, head := if party.isEmpty then "Sundry Creditors" else party,
               txnType := .payment }
    else none

/-! ## The direction -/

/-- `\bATM\b|CASH\s*(DEP|WDL|WITHDRAWAL)|\bSELF\s*TRANSFER\b` -/
def atmRegex : Regex :=
  .alts [.seqs [.boundary, .lit "ATM", .boundary],
    .seqs [.lit "CASH", .spaces, .alts [.lit "DEP", .lit "WDL", .lit "WITHDRAWAL"]],
    .seqs [.boundary, .lit "SELF", .spaces, .lit "TRANSFER", .boundary]]

def inferVoucherType (t : Transaction) (upper : List Char) : VoucherType :=
  if atmRegex.isMatch parts.unicode upper then .contra
  else if t.isCreditOnly then .receipt
  else if t.isDebitOnly then .payment
  else .unknown

/-! ## One transaction -/

/-- The first rule whose pattern occurs in the text. -/
def applyRules (upper : List Char) (rules : List ClassificationRule) :
    Option ClassificationRule :=
  rules.find? fun r => !r.pattern.isEmpty &&
    decide (parts.unicode.toUppercase r.pattern.toList <:+: upper)

/-- The doubles written `0.6`, `0.9` and `0.45`. -/
def globalRuleConfidence : F64 := .finite (mkRat 5404319552844595 9007199254740992)
def clientRuleConfidence : F64 := .finite (mkRat 8106479329266893 9007199254740992)
def keywordConfidence : F64 := .finite (mkRat 8106479329266893 18014398509481984)

/-- The voucher type a rule names; an unknown name is none. -/
def ruleVoucherType (r : ClassificationRule) (current : VoucherType) : VoucherType :=
  if r.txnType = "Payment" then .payment
  else if r.txnType = "Receipt" then .receipt
  else if r.txnType = "Contra" then .contra
  else current

def applyRule (r : ClassificationRule) (t : Transaction) : Transaction :=
  { t with
    vendor := if r.vendor.isEmpty then t.vendor else r.vendor
    accountHead := if r.accountHead.isEmpty then t.accountHead else r.accountHead
    txnType := ruleVoucherType r t.txnType
    confidence := if r.clientId = 0 then globalRuleConfidence else clientRuleConfidence
    status := .classified
    classificationSource := "rule" }

/-- Rules, then keywords, then the name of the party alone. -/
def classifyText (t : Transaction) (bankLedger : String) (rules : List ClassificationRule) :
    Transaction :=
  let upper := upperText parts t
  match applyRules parts upper rules with
  | some rule => applyRule rule t
  | none =>
    match kwMatch parts upper t bankLedger with
    | some kw =>
      { t with
        vendor := kw.vendor
        accountHead := kw.head
        txnType := kw.txnType
        confidence := keywordConfidence
        status := .classified
        classificationSource := "keyword" }
    | none =>
      let party := parts.extractPartyName (combinedNarrationAndReference t)
      { t with
        vendor := if party.isEmpty then t.vendor else party
        status := .unreviewed
        confidence := .finite 0
        classificationSource := "" }

/-- Push a tag that is not there yet. -/
def addTag (tag : String) (t : Transaction) : Transaction :=
  { t with tags := if t.tags.contains tag then t.tags else t.tags ++ [tag] }

theorem contains_addTag (tag : String) (t : Transaction) :
    (addTag tag t).tags.contains tag = true := by
  unfold addTag
  dsimp only
  split
  · assumption
  · simp

theorem addTag_of_contains {tag : String} (h : t.tags.contains tag = true) : addTag tag t = t := by
  rw [addTag, if_pos h]

/-- What the GST analysis adds. -/
def applyGst (gstAutoLedgers : Bool) (gst : GstAnalysis) (t : Transaction) : Transaction :=
  { addTag "GST" t with
    accountHead :=
      if gstAutoLedgers && t.accountHead.isEmpty then gst.expenseLedger.getD t.accountHead
      else t.accountHead
    gstRate := gst.gstRate
    gstAmount := gst.gstAmount
    gstType := gst.gstType }

/-- The voucher type of a transaction that has none yet. -/
def inferMissing (upper : List Char) (t : Transaction) : Transaction :=
  if t.txnType = .unknown then { t with txnType := inferVoucherType parts t upper } else t

def classifyOne (bankLedger : String) (rules : List ClassificationRule)
    (gstEnabled gstAutoLedgers : Bool) (t : Transaction) : Transaction :=
  let typed := inferMissing parts (upperText parts t) (classifyText parts t bankLedger rules)
  let tagged := match parts.detectGst typed.narration typed.reference with
    | some tag => addTag tag typed
    | none => typed
  if gstEnabled then
    match parts.analyse tagged.narration tagged.reference tagged.vendor tagged.debit
        tagged.credit with
    | some gst => applyGst gstAutoLedgers gst tagged
    | none => tagged
  else tagged

end

/-! ## All transactions -/

/-- Rows that the user or the model has classified, and those set aside. -/
def isLockedFromAutoClassify (t : Transaction) : Bool :=
  t.status == .manual || t.status == .suspense ||
    t.classificationSource == "user" || t.classificationSource == "ai" ||
    (t.status == .classified && F64.le (.finite 1) t.confidence)

/-- The rows that are classified. -/
def isEligible (t : Transaction) : Bool := !t.isOpeningBalance && !isLockedFromAutoClassify t

/-- Two rows differ in what counts as a change. -/
def isChanged (before after : Transaction) : Bool :=
  after.status != before.status || after.vendor != before.vendor ||
    after.accountHead != before.accountHead || !(F64.eqv after.confidence before.confidence)

section

variable (parts : ClassifierParts) (bankLedger : String) (rules : List ClassificationRule)
  (runDedup gstEnabled gstAutoLedgers : Bool)

def classifyRow (t : Transaction) : Transaction :=
  if isEligible t then classifyOne parts bankLedger rules gstEnabled gstAutoLedgers t else t

/-- `detect_duplicates`. -/
def detectDuplicates (txns : List Transaction) : List Transaction :=
  txns.zipIdx.map fun (t, i) =>
    if parts.isDuplicate txns i then { addTag "DUP" t with dupFlag := true } else t

/-- The number of rows that changed, and the rows. -/
def classifyAll (txns : List Transaction) : ℕ × List Transaction :=
  let rows := txns.map (classifyRow parts bankLedger rules gstEnabled gstAutoLedgers)
  ((txns.zip rows).countP fun (before, after) => isEligible before && isChanged before after,
    if runDedup then detectDuplicates parts rows else rows)

end

end Desktop
