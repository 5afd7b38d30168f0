import BankStatementProcessor.Desktop.Export.TallyXml
import BankStatementProcessor.Infra.HashOrder
import BankStatementProcessor.Infra.Rounding
import BankStatementProcessor.Infra.Unicode

/-!
# Tally groups

`classify` scores the name of an account head by a table of keywords. The scores are held in a hash
map, and the order it lists them in is a parameter. At the end stand the three places that show the
group of a transaction.
-/

namespace Desktop

open Infra Desktop.Export

/-! ## Keywords -/

structure KwGroup where
  kws : List String
  group : TallyGroup
  weight : ℕ
deriving DecidableEq, Repr

/-- `KEYWORD_MAP`. -/
def keywordMap : List KwGroup :=
  [{ kws := ["sales", "sale", "revenue", "turnover", "gross receipt"]
     group := .salesAccounts
     weight := 10 },
   { kws := ["service income", "service revenue", "consulting income", "fees income",
       "income from service"]
     group := .directIncome
     weight := 10 },
   { kws := ["commission income", "brokerage income", "agency income", "referral income"]
     group := .indirectIncome
     weight := 10 },
   { kws := ["interest income", "interest received", "bank interest", "fd interest",
       "interest on loan"]
     group := .indirectIncome
     weight := 10 },
   { kws := ["rental income", "rent income", "lease income", "sublease income"]
     group := .indirectIncome
     weight := 10 },
   { kws := ["dividend income", "dividend received"]
     group := .indirectIncome
     weight := 10 },
   { kws := ["misc income", "miscellaneous income", "other income", "sundry income"]
     group := .indirectIncome
     weight := 8 },
   { kws := ["grant income", "subsidy income", "export incentive"]
     group := .indirectIncome
     weight := 8 },
   { kws := ["purchase", "purchases", "raw material", "stock purchase", "goods purchase", "import"]
     group := .purchaseAccounts
     weight := 10 },
   { kws := ["salary", "salaries", "wage", "wages", "payroll", "stipend", "remuneration"]
     group := .indirectExpenses
     weight := 10 },
   { kws := ["rent", "office rent", "shop rent", "godown rent", "rental expense", "lease expense"]
     group := .indirectExpenses
     weight := 10 },
   { kws := ["telephone", "mobile", "phone bill", "landline", "sim"]
     group := .indirectExpenses
     weight := 9 },
   { kws := ["internet", "broadband", "data plan", "wifi", "leased line", "connectivity"]
     group := .indirectExpenses
     weight := 9 },
   { kws := ["electricity", "power bill", "utility bill", "msedcl", "bescom", "tneb"]
     group := .indirectExpenses
     weight := 9 },
   { kws := ["bank charge", "bank fee", "bank commission", "processing fee", "annual fee",
       "service charge", "maintenance charge", "sms charge", "ecs charge"]
     group := .indirectExpenses
     weight := 9 },
   { kws := ["professional fee", "consultancy", "audit fee", "legal fee", "advocate fee", "ca fee",
       "cs fee", "notary", "registration fee"]
     group := .indirectExpenses
     weight := 9 },
   { kws := ["insurance", "premium", "mediclaim", "policy", "life insurance", "vehicle insurance"]
     group := .indirectExpenses
     weight := 9 },
   { kws := ["travel", "travelling", "tour", "conveyance", "cab", "taxi", "ola", "uber", "irctc",
       "airline", "train ticket", "flight"]
     group := .indirectExpenses
     weight := 9 },
   { kws := ["advertisement", "advertising", "marketing", "promotion", "digital ad", "facebook ad",
       "google ad", "hoarding", "banner"]
     group := .indirectExpenses
     weight := 9 },
   { kws := ["printing", "stationery", "office supply", "paper", "ink", "toner"]
     group := .indirectExpenses
     weight := 8 },
   { kws := ["repair", "maintenance", "amc", "annual maintenance", "service contract",
       "housekeeping", "pest control"]
     group := .indirectExpenses
     weight := 8 },
   { kws := ["fuel", "petrol", "diesel", "cng", "hp fuel", "bpcl", "hpcl"]
     group := .indirectExpenses
     weight := 8 },
   { kws := ["food", "meal", "canteen", "lunch", "dinner", "tea", "refreshment", "snack"]
     group := .indirectExpenses
     weight := 8 },
   { kws := ["medical", "medicine", "pharmacy", "hospital", "doctor", "clinic", "health"]
     group := .indirectExpenses
     weight := 8 },
   { kws := ["grocery", "vegetable", "kirana", "supermarket", "bigbasket", "blinkit"]
     group := .indirectExpenses
     weight := 7 },
   { kws := ["software", "subscription", "saas", "app", "license", "domain", "hosting", "aws",
       "azure", "google cloud", "github", "notion"]
     group := .indirectExpenses
     weight := 8 },
   { kws := ["vehicle", "car expense", "two wheeler", "bike service", "vehicle maintenance"]
     group := .indirectExpenses
     weight := 8 },
   { kws := ["courier", "freight", "logistics", "shipping", "delivery charge", "cargo"]
     group := .indirectExpenses
     weight := 8 },
   { kws := ["staff welfare", "employee welfare", "birthday", "outing", "team lunch"]
     group := .indirectExpenses
     weight := 7 },
   { kws := ["security", "guard", "watchman", "cctv", "security service"]
     group := .indirectExpenses
     weight := 7 },
   { kws := ["cleaning", "sweeping", "housekeeping", "janitorial"]
     group := .indirectExpenses
     weight := 7 },
   { kws := ["miscellaneous", "misc expense", "sundry expense", "petty", "petty cash"]
     group := .indirectExpenses
     weight := 6 },
   { kws := ["office expense", "office cost", "admin expense", "administrative"]
     group := .indirectExpenses
     weight := 7 },
   { kws := ["production", "manufacturing", "factory", "job work", "conversion", "packing material"]
     group := .directExpenses
     weight := 10 },
   { kws := ["labour", "direct labour", "contract labour", "labour charge"]
     group := .directExpenses
     weight := 9 },
   { kws := ["gst payable", "cgst payable", "sgst payable", "igst payable", "gst liability"]
     group := .dutiesTaxes
     weight := 10 },
   { kws := ["tds payable", "tds deducted", "tax deducted", "income tax payable", "advance tax"]
     group := .dutiesTaxes
     weight := 10 },
   { kws := ["professional tax", "pt payable", "esic", "provident fund", "pf payable", "epf"]
     group := .dutiesTaxes
     weight := 9 },
   { kws := ["customs duty", "import duty", "excise", "cess"]
     group := .dutiesTaxes
     weight := 9 },
   { kws := ["creditor", "supplier", "vendor payable", "accounts payable", "trade payable"]
     group := .sundryCreditors
     weight := 10 },
   { kws := ["debtor", "customer receivable", "accounts receivable", "trade receivable"]
     group := .sundryDebtors
     weight := 10 },
   { kws := ["cash", "petty cash", "cash in hand"]
     group := .cashInHand
     weight := 10 },
   { kws := ["bank account", "current account", "savings account", "hdfc", "icici", "sbi", "axis"]
     group := .bankAccounts
     weight := 8 },
   { kws := ["computer", "laptop", "desktop", "server", "printer", "scanner", "hardware"]
     group := .fixedAssets
     weight := 9 },
   { kws := ["furniture", "office furniture", "chair", "table", "cabinet", "rack"]
     group := .fixedAssets
     weight := 9 },
   { kws := ["machinery", "equipment", "plant", "motor", "generator"]
     group := .fixedAssets
     weight := 9 },
   { kws := ["vehicle", "car", "bike", "truck", "van", "bus", "four wheeler"]
     group := .fixedAssets
     weight := 9 },
   { kws := ["building", "land", "property", "office building", "warehouse"]
     group := .fixedAssets
     weight := 9 },
   { kws := ["intangible", "patent", "trademark", "copyright", "goodwill"]
     group := .fixedAssets
     weight := 8 },
   { kws := ["investment", "mutual fund", "share", "equity", "bonds", "debenture", "nsc", "ppf",
       "fd"]
     group := .investments
     weight := 9 },
   { kws := ["advance", "loan given", "loan to staff", "advance to employee", "security deposit",
       "refundable deposit"]
     group := .loansAdvances
     weight := 9 },
   { kws := ["deposit", "security deposit", "earnest money", "margin money"]
     group := .deposits
     weight := 8 },
   { kws := ["loan", "term loan", "working capital loan", "overdraft", "od limit", "cc limit",
       "borrowing", "credit facility", "emi", "mortgage"]
     group := .loans
     weight := 9 },
   { kws := ["capital", "owner capital", "proprietor capital", "partner capital", "share capital"]
     group := .capitalAccount
     weight := 10 },
   { kws := ["reserve", "surplus", "retained earning", "profit reserve", "general reserve"]
     group := .reserves
     weight := 10 }]

/-! ## Scores -/

/-- `*scores.entry(group).or_insert(0) += points`. -/
def addScore (scores : List (TallyGroup × ℕ)) (group : TallyGroup) (points : ℕ) :
    List (TallyGroup × ℕ) :=
  if scores.any (·.1 = group) then
    scores.map fun s => if s.1 = group then (s.1, s.2 + points) else s
  else scores ++ [(group, points)]

/-- The groups and points that a name earns, in the order of the table. -/
def headPoints (u : Unicode) (headName : List Char) : List (TallyGroup × ℕ) :=
  let nl := u.toLowercase (trim headName)
  keywordMap.flatMap fun entry =>
    (entry.kws.filter (contains nl)).map fun k => (entry.group, entry.weight + len k.toList / 5)

/-- `score_head`: the entries of the map, as they are made. -/
def scoreHead (u : Unicode) (headName : List Char) : List (TallyGroup × ℕ) :=
  (headPoints u headName).foldl (fun scores p => addScore scores p.1 p.2) []

/-- The share of the best score in the two best ones. -/
def groupConfidence (vals : List ℕ) : F64 :=
  match vals with
  | a :: b :: _ => (F64.toDouble (.finite (a / (a + b)))).min (F64.toDouble (.finite (99 / 100)))
  | _ => F64.toDouble (.finite (9 / 10))

/-- `MIN_CONFIDENCE`. -/
def minConfidence : F64 := F64.toDouble (.finite (3 / 10))

/-- The group by the side and the amount only. -/
def fallbackGroup (isCredit : Bool) (amount : F64) : TallyGroup :=
  if (F64.finite 10000).le amount && !isCredit then .sundryCreditors
  else if (F64.finite 10000).le amount && isCredit then .sundryDebtors
  else if !isCredit && amount.lt (.finite 5000) then .indirectExpenses
  else if isCredit then .indirectIncome
  else .indirectExpenses

/-- `tally_group_engine::classify`. It does not read the narration. -/
def classifyGroup (u : Unicode) (h : HashOrder (TallyGroup × ℕ)) (accountHead : List Char)
    (isCredit : Bool) (amount : F64) (overrides : Option (List Char → Option String)) : String :=
  match overrides.bind fun ovr => ovr (u.toLowercase (trim accountHead)) with
  | some group => group
  | none =>
    let scores := scoreHead u accountHead
    match maxByKey Prod.snd (h.order scores) with
    | some best =>
      let vals := (scores.map Prod.snd).mergeSort fun a b => b ≤ a
      if minConfidence.le (groupConfidence vals) then best.1.name
      else (fallbackGroup isCredit amount).name
    | none => (fallbackGroup isCredit amount).name

/-- `party_group`. -/
def partyGroup (accountHead vendor : List Char) (isReceipt : Bool) : Option TallyGroup :=
  if (trim accountHead).isEmpty && !(trim vendor).isEmpty then
    some (if isReceipt then .sundryDebtors else .sundryCreditors)
  else none

/-! ## What is shown -/

/-- `t.credit.unwrap_or(0.0) + t.debit.unwrap_or(0.0)`. -/
def groupAmount (t : Transaction) : F64 :=
  F64.toDouble ((t.credit.getD (.finite 0)).add (t.debit.getD (.finite 0)))

/-- The group of a row, by `classify`. -/
def keywordGroup (u : Unicode) (h : HashOrder (TallyGroup × ℕ)) (t : Transaction) : String :=
  classifyGroup u h t.accountHead.toList t.credit.isSome (groupAmount t) none

/-- The expense head of `build_txn_rows`, by `classify_batch`. -/
def buildTxnRowGroup (u : Unicode) (h : HashOrder (TallyGroup × ℕ)) (t : Transaction) : String :=
  keywordGroup u h t

/-- The expense head of `apply_parse_result`. A party is told by the side of its amount. -/
def parseResultGroup (u : Unicode) (h : HashOrder (TallyGroup × ℕ)) (t : Transaction) : String :=
  match partyGroup t.accountHead.toList t.vendor.toList t.credit.isSome with
  | some g => g.name
  | none => keywordGroup u h t

/-- `analytics::expense_head_label`. A party is told by the type of its voucher. -/
def expenseHeadLabel (u : Unicode) (h : HashOrder (TallyGroup × ℕ)) (t : Transaction) : String :=
  match partyGroup t.accountHead.toList t.vendor.toList (t.txnType == .receipt) with
  | some g => g.name
  | none => keywordGroup u h t

end Desktop
