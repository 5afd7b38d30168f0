import BankStatementProcessor.Desktop.Parser.DateParser
import BankStatementProcessor.Infra.Greedy

/-!
# Reconciliation with the books

Bank transactions are matched against the vouchers of a Tally export: every pair gets a score,
the pairs are sorted by it, and each side is claimed by its best pair still free.

The result of an operation on doubles is the exact one rounded by `fl`; nothing below depends
on how it rounds.
-/

namespace Desktop

open Infra Parser

inductive MatchStatus where
  | matched
  | likely
  | possible
  | unmatched
deriving DecidableEq, Repr

/-- A row of the export, as far as the scores read it. -/
structure Voucher where
  date : String
  amount : F64
  narration : String
  voucherNo : String
deriving DecidableEq, Repr

structure BankEntry where
  date : String
  amount : F64
  narration : String
  reference : String
deriving DecidableEq, Repr

/-- `dateFuzzyDays` is a signed 64-bit integer. -/
structure ReconConfig where
  dateFuzzyDays : ℤ
  amountFuzzyPct : F64
  narrSimilarityMin : F64
  autoAcceptAbove : F64
  flagBelowConfidence : F64
deriving DecidableEq, Repr

/-- The doubles written `0.55`, `0.90` and `0.40` are the three thresholds of their own. -/
def ReconConfig.new (dateFuzzyDays : ℤ) (amountFuzzyPct : F64) : ReconConfig where
  dateFuzzyDays := dateFuzzyDays
  amountFuzzyPct := amountFuzzyPct
  narrSimilarityMin := .finite (mkRat 4953959590107546 9007199254740992)
  autoAcceptAbove := .finite (mkRat 8106479329266893 9007199254740992)
  flagBelowConfidence := .finite (mkRat 3602879701896397 9007199254740992)

/-- The two tolerances as `Settings::load` reads them from the table of settings. -/
def Settings.reconConfig (fl : F64 → F64) (get : String → String) : ReconConfig :=
  .new ((parseI32 (get "recon_days").toList).getD 3)
    (((F64.parse (get "recon_pct").toList).map fl).getD (.finite (1 / 2)))

structure MatchPair where
  bankIdx : ℕ
  voucherIdx : ℕ
  score : F64
  status : MatchStatus
deriving DecidableEq, Repr

structure ReconReport where
  pairs : List MatchPair
  unmatchedBank : List ℕ
  unmatchedVouchers : List ℕ
deriving DecidableEq, Repr

/-! ## The score of a pair -/

section

variable (u : Unicode) (fl : F64 → F64)

/-- The words of 4 and more letters and digits, each once. -/
def tokenize (s : String) : List (List Char) :=
  let spaced := (u.toUppercase s.toList).map fun c => if isAscii c && c.isAlphanum then c else ' '
  ((spaced.splitOn ' ').filter (fun word => 4 ≤ word.length)).dedup

/-- The share of the words that the two have in common. -/
def narrSimilarity (a b : String) : F64 :=
  let sa := tokenize u a
  let sb := tokenize u b
  if sa.isEmpty || sb.isEmpty then .finite 0
  else
    let intersection := (sa.filter sb.contains).length
    fl (.divNat (.finite intersection) (sa.length + sb.length - intersection))

def amountMatch (a b fuzzPct : F64) : Bool :=
  let a := a.abs
  let b := b.abs
  if a.eqv (.finite 0) && b.eqv (.finite 0) then true
  else if a.eqv (.finite 0) || b.eqv (.finite 0) then false
  else
    let tolerance := fl ((a.max b).mul (fl (fuzzPct.divNat 100)))
    (fl (a.sub b)).abs.le tolerance

def daysDiff (a b : String) : Option F64 :=
  let pa := normalizeTransactionDate u a.toList
  let pb := normalizeTransactionDate u b.toList
  if !pa.valid || !pb.valid then none
  else some (fl ((fl (.finite |pa.ts - pb.ts|)).divNat 86400000))

/-- The doubles written `0.05`, `0.10`, `0.15`, `0.20`, `0.30`, `0.40` and `0.80`. -/
def twentieth : F64 := .finite (mkRat 3602879701896397 72057594037927936)
def tenth : F64 := .finite (mkRat 3602879701896397 36028797018963968)
def threeTwentieths : F64 := .finite (mkRat 5404319552844595 36028797018963968)
def fifth : F64 := .finite (mkRat 3602879701896397 18014398509481984)
def threeTenths : F64 := .finite (mkRat 5404319552844595 18014398509481984)
def twoFifths : F64 := .finite (mkRat 3602879701896397 9007199254740992)
def fourFifths : F64 := .finite (mkRat 3602879701896397 4503599627370496)

/-- What the amounts add to the score. -/
def amountScore (bank : BankEntry) (voucher : Voucher) (cfg : ReconConfig) : F64 :=
  if amountMatch fl bank.amount voucher.amount (.finite 0) then twoFifths
  else if amountMatch fl bank.amount voucher.amount cfg.amountFuzzyPct then threeTenths
  else tenth

/-- What the days between the dates add; too many reject the pair. The product wraps around. -/
def dateScore (days : F64) (cfg : ReconConfig) : Option F64 :=
  if days.eqv (.finite 0) then some twoFifths
  else if days.le (.finite 1) then some threeTenths
  else if days.le (fl (.finite cfg.dateFuzzyDays)) then some fifth
  else if days.le (fl (.finite (Int.bmod (cfg.dateFuzzyDays * 2) (2 ^ 64)))) then some twentieth
  else none

/-- What the narrations add. -/
def narrationScore (bank : BankEntry) (voucher : Voucher) (cfg : ReconConfig) : F64 :=
  let narr := narrSimilarity u fl bank.narration voucher.narration
  if fourFifths.le narr then fifth
  else if cfg.narrSimilarityMin.le narr then fl (narr.mul threeTwentieths)
  else .finite 0

/-- What the reference and the number of the voucher add. -/
def referenceScore (bank : BankEntry) (voucher : Voucher) : F64 :=
  let bref := trim bank.reference.toList
  let vref := trim voucher.voucherNo.toList
  if !bref.isEmpty && !vref.isEmpty && bref == vref then fifth else .finite 0

def scoreMatch (bank : BankEntry) (voucher : Voucher) (cfg : ReconConfig) : F64 :=
  if !amountMatch fl bank.amount voucher.amount (fl (cfg.amountFuzzyPct.mul (.finite 2))) then
    .finite 0
  else
    match (daysDiff u fl bank.date voucher.date).bind (dateScore fl · cfg) with
    | none => .finite 0
    | some date =>
      let score := fl ((amountScore fl bank voucher cfg).add date)
      let score := fl (score.add (narrationScore u fl bank voucher cfg))
      let score := fl (score.add (referenceScore bank voucher))
      fl ((fl ((score.min (.finite 1)).mul (.finite 100))).round.divNat 100)

def statusFromScore (score : F64) (cfg : ReconConfig) : MatchStatus :=
  if cfg.autoAcceptAbove.le score then .matched
  else if cfg.flagBelowConfidence.le score then .likely
  else if F64.lt (.finite 0) score then .possible
  else .unmatched

/-! ## The assignment -/

/-- A pair with a score above 0. -/
structure Candidate where
  bankIdx : ℕ
  voucherIdx : ℕ
  score : F64
  positive : F64.lt (.finite 0) score = true

def candidate? (bi vi : ℕ) (score : F64) : Option Candidate :=
  if h : F64.lt (.finite 0) score = true then some ⟨bi, vi, score, h⟩ else none

/-- The candidates in the order of the two loops. -/
def candidates (bank : List BankEntry) (vouchers : List Voucher) (cfg : ReconConfig) :
    List Candidate :=
  bank.zipIdx.flatMap fun (b, bi) =>
    vouchers.zipIdx.filterMap fun (v, vi) => candidate? bi vi (scoreMatch u fl b v cfg)

/-- The order of the stable sort, the best score first. -/
def Candidate.before (c d : Candidate) : Bool := !(c.score.lt d.score)

def Candidate.toPair (cfg : ReconConfig) (c : Candidate) : MatchPair where
  bankIdx := c.bankIdx
  voucherIdx := c.voucherIdx
  score := c.score
  status := statusFromScore c.score cfg

def reconcile (bank : List BankEntry) (vouchers : List Voucher) (cfg : ReconConfig) :
    ReconReport :=
  let sorted := (candidates u fl bank vouchers cfg).mergeSort Candidate.before
  let final := Assignment.greedy Candidate.bankIdx Candidate.voucherIdx sorted
  { pairs := final.taken.map (Candidate.toPair cfg)
    unmatchedBank := (List.range bank.length).filter (fun i => !final.usedLeft i)
    unmatchedVouchers := (List.range vouchers.length).filter (fun i => !final.usedRight i) }

end

end Desktop
