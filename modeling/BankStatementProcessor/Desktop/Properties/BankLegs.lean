import BankStatementProcessor.Desktop.Export.Accounting
import BankStatementProcessor.Infra.DoubleEntry
import Mathlib.Algebra.Order.Ring.Rat

/-!
# What the exports move on the bank ledger

`bank_legs_iff` — when a file debits the bank by what was deposited and credits it by what was
withdrawn.
-/

namespace Desktop.Export

open Infra

/-! ## The legs of a file -/

inductive Exporter where
  | tally
  | zoho
  | quickBooks
  | odoo
  | genericCsv
deriving DecidableEq, Repr

def LedgerEntry.leg (e : LedgerEntry) : Leg String ℚ :=
  if e.isDeemedPositive then { ledger := e.ledgerName, debit := e.amount.toRat, credit := 0 }
  else { ledger := e.ledgerName, debit := 0, credit := e.amount.toRat }

def Voucher.legs (v : Voucher) : List (Leg String ℚ) := v.entries.map LedgerEntry.leg

def ZohoRow.leg (r : ZohoRow) : Leg String ℚ :=
  { ledger := r.account, debit := r.debit.toRat, credit := r.credit.toRat }

def QuickBooksRow.leg (r : QuickBooksRow) : Leg String ℚ :=
  { ledger := r.accountName, debit := r.debit.toRat, credit := r.credit.toRat }

def OdooRow.leg (r : OdooRow) : Leg String ℚ :=
  { ledger := r.account, debit := r.debit.toRat, credit := r.credit.toRat }

def GenericRow.legs (r : GenericRow) : List (Leg String ℚ) :=
  posting r.debitLedger r.creditLedger r.amount.toRat

/-- The bank ledger of a transaction. Only Tally falls back on the name of the bank. -/
def bankLedgerOf (e : Exporter) (opts : AccountingOpts) (t : Transaction) : String :=
  match e with
  | .tally => bankLedgerName t opts.bankLedger
  | _ => opts.bankLedger

/-- The transactions an exporter writes. -/
def selected (e : Exporter) (txns : List Transaction) (opts : AccountingOpts) :
    List Transaction :=
  match e with
  | .tally => tallySelected txns opts.toTallyOpts
  | _ => filterTxns txns opts

/-- The legs an exporter writes for the transaction it writes as number `i`. -/
def legsOf (e : Exporter) (opts : AccountingOpts) (t : Transaction) (i : ℕ) :
    List (Leg String ℚ) :=
  match e with
  | .tally => (txnVoucher t opts.toTallyOpts).legs
  | .zoho => (zohoRows opts t i).map ZohoRow.leg
  | .quickBooks => (quickBooksRows opts t i).map QuickBooksRow.leg
  | .odoo => (odooRows opts t).map OdooRow.leg
  | .genericCsv => (genericRow opts t).legs

/-- All legs of the file of an exporter. -/
def fileLegs (e : Exporter) (txns : List Transaction) (opts : AccountingOpts) :
    List (Leg String ℚ) :=
  match e with
  | .tally => (tallyVouchers txns opts.toTallyOpts).flatMap Voucher.legs
  | .zoho => (genZoho txns opts).map ZohoRow.leg
  | .quickBooks => (genQuickbooks txns opts).map QuickBooksRow.leg
  | .odoo => (genOdoo txns opts).map OdooRow.leg
  | .genericCsv => (genGenericCsv txns opts).flatMap GenericRow.legs

/-! ## What is claimed -/

/-- What the transaction moves on the account. -/
def movement (t : Transaction) : ℚ := (t.credit.map F64.toRat).getD 0 - (t.debit.map F64.toRat).getD 0

/-- A withdrawal or a deposit of exact paise, and of a type that does not contradict it. -/
def OneSided (t : Transaction) : Prop :=
  ∃ paise : ℕ, 0 < paise ∧
    ((t.debit = some (.finite (paise / 100)) ∧ t.credit = none ∧
        (t.txnType = .unknown ∨ t.txnType = .contra ∨ t.txnType = .payment)) ∨
      (t.credit = some (.finite (paise / 100)) ∧ t.debit = none ∧
        (t.txnType = .unknown ∨ t.txnType = .contra ∨ t.txnType = .receipt)))

/-- Each transaction moves on its bank ledger what it moved on the account, and the legs of the
file on a bank ledger that all share net to the credits less the debits. -/
structure MovesBankRight (e : Exporter) (opts : AccountingOpts) (txns : List Transaction) :
    Prop where
  each : ∀ p ∈ (selected e txns opts).zipIdx,
    net (bankLedgerOf e opts p.1) (legsOf e opts p.1 p.2) = movement p.1
  total : ∀ bank, (∀ t ∈ selected e txns opts, bankLedgerOf e opts t = bank) →
    net bank (fileLegs e txns opts) = ((selected e txns opts).map movement).sum

/-- A contra voucher has the bank on the side of the transaction. Tally debits the bank of
every contra voucher, and the other ledger of it is called Cash; the other files credit the
bank of every one. -/
def ContraFits (e : Exporter) (opts : AccountingOpts) (t : Transaction) : Prop :=
  match e with
  | .tally => voucherType t = "Contra" →
      t.credit.isSome ∧ bankLedgerName t opts.bankLedger ≠ "Cash"
  | _ => t.txnType = .contra → t.debit.isSome

/-! ## One transaction -/

/-- The ledgers that the accounting files debit and credit. -/
def accountingSides (opts : AccountingOpts) (t : Transaction) : String × String :=
  if vt t = "Receipt" then (opts.bankLedger, postingLedger t)
  else (postingLedger t, opts.bankLedger)

def legSides (e : Exporter) (opts : AccountingOpts) (t : Transaction) : String × String :=
  match e with
  | .tally => voucherSides t opts.toTallyOpts
  | _ => accountingSides opts t

section

variable {e : Exporter} {opts : AccountingOpts} {t : Transaction} {txns : List Transaction}

/-- The amount is moved from one ledger to another, whichever line is written first. -/
theorem net_legsOf (l : String) (i : ℕ) : net l (legsOf e opts t i) =
    net l (posting (legSides e opts t).1 (legSides e opts t).2 (amt t).toRat) := by
  have hdouble : net l [{ ledger := opts.bankLedger, debit := (doubleEntry t).bankDr.toRat,
                          credit := (doubleEntry t).bankCr.toRat },
                        { ledger := postingLedger t, debit := (doubleEntry t).postingDr.toRat,
                          credit := (doubleEntry t).postingCr.toRat }] =
      net l (posting (accountingSides opts t).1 (accountingSides opts t).2 (amt t).toRat) := by
    unfold doubleEntry accountingSides posting
    split
    · rfl
    · simp only [net_cons, net_nil, F64.toRat_finite]
      abel
  cases e with
  | tally => rfl
  | zoho => exact hdouble
  | quickBooks => exact hdouble
  | odoo => exact hdouble
  | genericCsv => rfl

/-- A withdrawal is a contra voucher or a payment, in Tally. -/
theorem voucherType_of_debit (hcredit : t.credit = none)
    (htype : t.txnType = .unknown ∨ t.txnType = .contra ∨ t.txnType = .payment) :
    voucherType t = "Contra" ∨ voucherType t = "Payment" := by
  unfold voucherType
  rcases htype with h | h | h <;> rw [h]
  · dsimp only
    split_ifs with hcash hreceipt
    · exact Or.inl rfl
    · simp [hcredit] at hreceipt
    · exact Or.inr rfl
  · exact Or.inl rfl
  · exact Or.inr rfl

/-- A deposit is a contra voucher or a receipt. -/
theorem voucherType_of_credit {a : F64} (hcredit : t.credit = some a) (hdebit : t.debit = none)
    (htype : t.txnType = .unknown ∨ t.txnType = .contra ∨ t.txnType = .receipt) :
    voucherType t = "Contra" ∨ voucherType t = "Receipt" := by
  unfold voucherType
  rcases htype with h | h | h <;> rw [h]
  · dsimp only
    split_ifs with hcash hreceipt
    · exact Or.inl rfl
    · exact Or.inr rfl
    · simp [hcredit, hdebit] at hreceipt
  · exact Or.inl rfl
  · exact Or.inr rfl

/-- In the other files a withdrawal is never a receipt. -/
theorem vt_of_debit (hcredit : t.credit = none)
    (htype : t.txnType = .unknown ∨ t.txnType = .contra ∨ t.txnType = .payment) :
    vt t ≠ "Receipt" := by
  rcases htype with h | h | h <;> simp [vt, h, hcredit]

/-- A deposit is one unless it is a contra voucher. -/
theorem vt_of_credit {a : F64} (hcredit : t.credit = some a)
    (htype : t.txnType = .unknown ∨ t.txnType = .contra ∨ t.txnType = .receipt) :
    vt t = "Receipt" ↔ t.txnType ≠ .contra := by
  rcases htype with h | h | h <;> simp [vt, h, hcredit]

theorem movement_of_debit {a : ℚ} (hdebit : t.debit = some (.finite a)) (hcredit : t.credit = none) :
    movement t = -a ∧ (amt t).toRat = a := by
  simp [movement, amt, hdebit, hcredit]

theorem movement_of_credit {a : ℚ} (hcredit : t.credit = some (.finite a)) (hdebit : t.debit = none) :
    movement t = a ∧ (amt t).toRat = a := by
  simp [movement, amt, hdebit, hcredit]

/-- A receipt debits the bank, everything else credits it. -/
theorem net_accountingSides (hposted : postingLedger t ≠ opts.bankLedger) (a : ℚ) :
    net opts.bankLedger (posting (accountingSides opts t).1 (accountingSides opts t).2 a) =
      if vt t = "Receipt" then a else -a := by
  unfold accountingSides
  split
  · exact net_posting_debit hposted
  · exact net_posting_credit hposted

/-- The bank of a contra voucher is debited, unless it is the cash ledger itself. -/
theorem net_voucherSides_contra (hvt : voucherType t = "Contra") (topts : TallyOpts) (a : ℚ) :
    net (bankLedgerName t topts.bankLedger)
        (posting (voucherSides t topts).1 (voucherSides t topts).2 a) =
      if bankLedgerName t topts.bankLedger = "Cash" then 0 else a := by
  have hsides : voucherSides t topts = (bankLedgerName t topts.bankLedger, "Cash") := by
    simp only [voucherSides, hvt]
  rw [hsides]
  split
  · next hcash => rw [hcash, net_posting_self]
  · next hcash => exact net_posting_debit (Ne.symm hcash)

theorem net_voucherSides_payment (hvt : voucherType t = "Payment") (topts : TallyOpts) (a : ℚ)
    (hposted : postingLedger t ≠ bankLedgerName t topts.bankLedger) :
    net (bankLedgerName t topts.bankLedger)
      (posting (voucherSides t topts).1 (voucherSides t topts).2 a) = -a := by
  have hsides : voucherSides t topts =
      (postingLedger t, bankLedgerName t topts.bankLedger) := by
    simp [voucherSides, hvt]
  rw [hsides, net_posting_credit hposted]

theorem net_voucherSides_receipt (hvt : voucherType t = "Receipt") (topts : TallyOpts) (a : ℚ)
    (hposted : postingLedger t ≠ bankLedgerName t topts.bankLedger) :
    net (bankLedgerName t topts.bankLedger)
      (posting (voucherSides t topts).1 (voucherSides t topts).2 a) = a := by
  have hsides : voucherSides t topts =
      (bankLedgerName t topts.bankLedger, postingLedger t) := by
    simp only [voucherSides, hvt]
  rw [hsides, net_posting_debit hposted]

/-- In the accounting files a deposit that is a contra voucher goes the wrong way. -/
theorem net_accounting_iff (hsided : OneSided t) (hposted : postingLedger t ≠ opts.bankLedger) :
    net opts.bankLedger
        (posting (accountingSides opts t).1 (accountingSides opts t).2 (amt t).toRat) =
      movement t ↔ (t.txnType = .contra → t.debit.isSome) := by
  rw [net_accountingSides hposted]
  obtain ⟨paise, hpos, ⟨hdebit, hcredit, htype⟩ | ⟨hcredit, hdebit, htype⟩⟩ := hsided
  · obtain ⟨hmovement, ha⟩ := movement_of_debit hdebit hcredit
    rw [if_neg (vt_of_debit hcredit htype), hmovement, ha]
    simp [hdebit]
  · have hamount : (0 : ℚ) < paise / 100 := by positivity
    obtain ⟨hmovement, ha⟩ := movement_of_credit hcredit hdebit
    rw [hmovement, ha, hdebit]
    by_cases hcontra : t.txnType = .contra
    · rw [if_neg (mt (vt_of_credit hcredit htype).mp (not_not_intro hcontra))]
      refine iff_of_false (by linarith) fun h => ?_
      cases h hcontra
    · rw [if_pos ((vt_of_credit hcredit htype).mpr hcontra)]
      exact iff_of_true rfl fun h => absurd h hcontra

/-- In Tally a withdrawal that is a contra voucher does, and a contra voucher of the cash ledger
moves nothing. -/
theorem net_tally_iff (hsided : OneSided t) (topts : TallyOpts)
    (hposted : postingLedger t ≠ bankLedgerName t topts.bankLedger) :
    net (bankLedgerName t topts.bankLedger)
        (posting (voucherSides t topts).1 (voucherSides t topts).2 (amt t).toRat) = movement t ↔
      (voucherType t = "Contra" →
        t.credit.isSome ∧ bankLedgerName t topts.bankLedger ≠ "Cash") := by
  obtain ⟨paise, hpos, ⟨hdebit, hcredit, htype⟩ | ⟨hcredit, hdebit, htype⟩⟩ := hsided
  · have hamount : (0 : ℚ) < paise / 100 := by positivity
    obtain ⟨hmovement, ha⟩ := movement_of_debit hdebit hcredit
    rw [hmovement, ha, hcredit]
    rcases voucherType_of_debit hcredit htype with hvt | hvt
    · rw [net_voucherSides_contra hvt]
      refine iff_of_false ?_ fun h => by simpa using (h hvt).1
      split <;> linarith
    · rw [net_voucherSides_payment hvt _ _ hposted]
      exact iff_of_true rfl fun h => by simp [hvt] at h
  · have hamount : (0 : ℚ) < paise / 100 := by positivity
    obtain ⟨hmovement, ha⟩ := movement_of_credit hcredit hdebit
    rw [hmovement, ha, hcredit]
    rcases voucherType_of_credit hcredit hdebit htype with hvt | hvt
    · rw [net_voucherSides_contra hvt]
      by_cases hcash : bankLedgerName t topts.bankLedger = "Cash"
      · rw [if_pos hcash]
        exact iff_of_false hamount.ne fun h => (h hvt).2 hcash
      · rw [if_neg hcash]
        exact iff_of_true rfl fun _ => ⟨rfl, hcash⟩
    · rw [net_voucherSides_receipt hvt _ _ hposted]
      exact iff_of_true rfl fun h => by simp [hvt] at h

/-- **A transaction moves the bank the right way unless a contra voucher does not fit it.** -/
theorem net_legsOf_iff (hsided : OneSided t) (hposted : postingLedger t ≠ bankLedgerOf e opts t)
    (i : ℕ) :
    net (bankLedgerOf e opts t) (legsOf e opts t i) = movement t ↔ ContraFits e opts t := by
  rw [net_legsOf]
  cases e with
  | tally => exact net_tally_iff hsided opts.toTallyOpts hposted
  | zoho => exact net_accounting_iff hsided hposted
  | quickBooks => exact net_accounting_iff hsided hposted
  | odoo => exact net_accounting_iff hsided hposted
  | genericCsv => exact net_accounting_iff hsided hposted

/-! ## The file -/

/-- A file is written transaction by transaction. -/
theorem fileLegs_eq : fileLegs e txns opts =
    (selected e txns opts).zipIdx.flatMap fun p => legsOf e opts p.1 p.2 := by
  -- the number of a transaction does not show in its legs
  have hindexed : ∀ (f : Transaction → ℕ → List (Leg String ℚ)) (ts : List Transaction),
      (∀ t i, f t i = f t 0) →
        (ts.flatMap fun t => f t 0) = ts.zipIdx.flatMap fun p => f p.1 p.2 := by
    intro f ts hf
    conv_lhs => rw [← List.zipIdx_map_fst 0 ts]
    rw [List.flatMap_map]
    exact List.flatMap_congr fun p _ => (hf p.1 p.2).symm
  cases e with
  | tally =>
    refine Eq.trans ?_ (hindexed (legsOf .tally opts) _ fun _ _ => rfl)
    simp only [fileLegs, tallyVouchers, List.flatMap_map]
    rfl
  | zoho =>
    simp only [fileLegs, genZoho, List.map_flatMap]
    rfl
  | quickBooks =>
    simp only [fileLegs, genQuickbooks, List.map_flatMap]
    rfl
  | odoo =>
    refine Eq.trans ?_ (hindexed (legsOf .odoo opts) _ fun _ _ => rfl)
    simp only [fileLegs, genOdoo, List.map_flatMap]
    rfl
  | genericCsv =>
    refine Eq.trans ?_ (hindexed (legsOf .genericCsv opts) _ fun _ _ => rfl)
    simp only [fileLegs, genGenericCsv, List.flatMap_map]
    rfl

end

/--
**A file moves the bank the right way exactly when every contra voucher in it fits its
transaction.**
-/
theorem bank_legs_iff (e : Exporter) (opts : AccountingOpts) (txns : List Transaction)
    (hsided : ∀ t ∈ txns, OneSided t)
    (hposted : ∀ t ∈ txns, postingLedger t ≠ bankLedgerOf e opts t) :
    MovesBankRight e opts txns ↔ ∀ t ∈ selected e txns opts, ContraFits e opts t := by
  have hmem : ∀ t ∈ selected e txns opts, t ∈ txns := by
    intro t ht
    cases e <;> exact List.mem_of_mem_filter ht
  have hone : ∀ t ∈ selected e txns opts, ∀ i,
      net (bankLedgerOf e opts t) (legsOf e opts t i) = movement t ↔ ContraFits e opts t :=
    fun t ht i => net_legsOf_iff (hsided t (hmem t ht)) (hposted t (hmem t ht)) i
  constructor
  · intro h t ht
    have hindexed : t ∈ (selected e txns opts).zipIdx.map Prod.fst := by
      rwa [List.zipIdx_map_fst]
    obtain ⟨⟨_, i⟩, hi, rfl⟩ := List.mem_map.mp hindexed
    exact (hone _ ht i).mp (h.each _ hi)
  · intro h
    have heach : ∀ p ∈ (selected e txns opts).zipIdx,
        net (bankLedgerOf e opts p.1) (legsOf e opts p.1 p.2) = movement p.1 := by
      intro p hp
      have ht := List.fst_mem_of_mem_zipIdx hp
      exact (hone p.1 ht p.2).mpr (h p.1 ht)
    refine ⟨heach, fun bank hbank => ?_⟩
    rw [fileLegs_eq, net_flatMap]
    have hmap : (selected e txns opts).map movement =
        (selected e txns opts).zipIdx.map fun p => movement p.1 := by
      conv_lhs => rw [← List.zipIdx_map_fst 0 (selected e txns opts)]
      rw [List.map_map]
      rfl
    rw [hmap]
    refine congrArg List.sum (List.map_congr_left fun p hp => ?_)
    rw [← heach p hp, hbank p.1 (List.fst_mem_of_mem_zipIdx hp)]

/-! ## A sample -/

/-- A withdrawal of 500 rupees. -/
def withdrawal (narration : String) : Transaction :=
  { Transaction.new "t_1_0" with
    date := "05/01/2026"
    narration := narration
    debit := some (.finite (50000 / 100)) }

def sampleOpts : AccountingOpts where
  company := "Acme Co"
  currency := ""
  bankLedger := "HDFC Bank"
  dateFrom := none
  dateTo := none
  includeOb := false
  includeGst := false
  includeLedgers := false
  includeNarrations := true
  onlyClassified := false
  skipLowConf := false
  skipDuplicates := false

theorem oneSided_withdrawal (narration : String) : OneSided (withdrawal narration) :=
  ⟨50000, by decide, Or.inl ⟨by simp [withdrawal], rfl, Or.inl rfl⟩⟩

theorem selected_withdrawal (narration : String) :
    selected .tally [withdrawal narration] sampleOpts = [withdrawal narration] := rfl

/-- A rent that is paid credits the bank. -/
theorem rent_moves_bank_right : MovesBankRight .tally sampleOpts [withdrawal "RENT JAN"] := by
  refine (bank_legs_iff .tally sampleOpts [withdrawal "RENT JAN"]
    (List.forall_mem_singleton.mpr (oneSided_withdrawal _))
    (List.forall_mem_singleton.mpr (by decide))).mpr ?_
  rw [selected_withdrawal]
  refine List.forall_mem_singleton.mpr fun hcontra => ?_
  revert hcontra
  decide

/-- Cash drawn at a machine debits it. -/
theorem atm_withdrawal_debits_bank : ¬ ∀ (e : Exporter) (opts : AccountingOpts)
    (txns : List Transaction), (∀ t ∈ txns, OneSided t) →
      (∀ t ∈ txns, postingLedger t ≠ bankLedgerOf e opts t) → MovesBankRight e opts txns := by
  intro h
  have hatm := (h .tally sampleOpts [withdrawal "ATM WDL MG ROAD"]
    (List.forall_mem_singleton.mpr (oneSided_withdrawal _))
    (List.forall_mem_singleton.mpr (by decide))).each
  rw [selected_withdrawal] at hatm
  have hfits := (net_legsOf_iff (oneSided_withdrawal _) (by decide) 0).mp
    (hatm (withdrawal "ATM WDL MG ROAD", 0) List.mem_cons_self)
  exact absurd (hfits (by decide)).1 (by decide)

end Desktop.Export
