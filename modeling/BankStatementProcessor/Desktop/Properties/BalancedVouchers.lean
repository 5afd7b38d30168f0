import BankStatementProcessor.Desktop.Export.TallyXml
import BankStatementProcessor.Infra.DisplayText

/-!
# Every voucher balances

The amount of a debit is written with a minus before it. Before an amount below zero, as the
opening balance of an overdraft is, that makes two of them.
-/

namespace Desktop.Export

open Infra

/-! ## Amounts as text -/

/-- The paise of a signed decimal: perhaps a minus, digits, a point and two digits. -/
def readPaise (s : List Char) : Option ℤ :=
  let negative := s.head? = some '-'
  match (if negative then s.tail else s).span Char.isDigit with
  | (whole, '.' :: fraction) =>
    if whole ≠ [] ∧ fraction.length = 2 ∧ fraction.all Char.isDigit = true then
      let paise : ℤ := 100 * F64.digitsValue whole + F64.digitsValue fraction
      some (if negative then -paise else paise)
    else none
  | _ => none

example : readPaise "-1234.05".toList = some (-123405) := by decide +kernel
example : readPaise "--500.00".toList = none := by decide +kernel

/-- Each amount is a signed decimal, and they sum to zero. -/
def Balanced (v : Voucher) : Prop :=
  ∃ amounts : List ℤ, v.entries.map (fun e => readPaise e.amountText.toList) = amounts.map some ∧
    amounts.sum = 0

/-- An amount that is a number and not below zero. -/
def IsAmount (a : F64) : Prop := a.isFinite = true ∧ (F64.finite 0).le a = true

section

variable {a : F64} {v : Voucher}

theorem readPaise_minus {whole fraction : List Char} (hne : whole ≠ [])
    (hlen : fraction.length = 2) (hwhole : ∀ c ∈ whole, c.isDigit = true)
    (hfraction : ∀ c ∈ fraction, c.isDigit = true) :
    readPaise ('-' :: (whole ++ '.' :: fraction)) =
      some (-(100 * F64.digitsValue whole + F64.digitsValue fraction : ℤ)) := by
  rw [readPaise, List.head?_cons, List.tail_cons, if_pos rfl,
    F64.span_digits hwhole (by decide)]
  exact if_pos ⟨hne, hlen, List.all_eq_true.mpr hfraction⟩

theorem readPaise_plain {whole fraction : List Char} (hne : whole ≠ [])
    (hlen : fraction.length = 2) (hwhole : ∀ c ∈ whole, c.isDigit = true)
    (hfraction : ∀ c ∈ fraction, c.isDigit = true) :
    readPaise (whole ++ '.' :: fraction) =
      some (100 * F64.digitsValue whole + F64.digitsValue fraction : ℤ) := by
  have hminus : ¬(whole ++ '.' :: fraction).head? = some '-' := by
    obtain ⟨c, cs, rfl⟩ := List.exists_cons_of_ne_nil hne
    intro hhead
    have hdigit := hwhole c List.mem_cons_self
    rw [Option.some.inj hhead] at hdigit
    exact absurd hdigit (by decide)
  rw [readPaise]
  simp only [if_neg hminus]
  rw [F64.span_digits hwhole (by decide)]
  exact if_pos ⟨hne, hlen, List.all_eq_true.mpr hfraction⟩

/-- An amount that is not below zero is read, and with a minus before it its negative is. -/
theorem readPaise_of_isAmount (h : IsAmount a) : ∃ n : ℤ,
    readPaise (F64.fixed 2 a).toList = some n ∧
      readPaise ("-" ++ F64.fixed 2 a).toList = some (-n) := by
  obtain ⟨hfinite, hle⟩ := h
  cases a with
  | nan => cases hfinite
  | infinite negative => cases hfinite
  | finite q =>
    have hnonneg : 0 ≤ q := F64.le_finite.mp hle
    obtain ⟨whole, fraction, htext, hne, hlen, hwhole, hfraction, -⟩ :=
      F64.decimal_parts (F64.roundTiesEven (|q| * 10 ^ 2)).toNat (k := 2) (by norm_num)
    have hfixed : (F64.fixed 2 (.finite q)).toList = whole ++ '.' :: fraction := by
      rw [F64.fixed, if_neg (not_lt.mpr hnonneg)]
      simpa using htext
    refine ⟨100 * F64.digitsValue whole + F64.digitsValue fraction, ?_, ?_⟩
    · rw [hfixed]
      exact readPaise_plain hne hlen hwhole hfraction
    · rw [String.toList_append, hfixed]
      exact readPaise_minus hne hlen hwhole hfraction

/-- Any other amount makes no decimal with a minus before it. -/
theorem readPaise_of_not_isAmount (h : ¬IsAmount a) :
    readPaise ("-" ++ F64.fixed 2 a).toList = none := by
  cases a with
  | nan => decide +kernel
  | infinite negative => cases negative <;> decide +kernel
  | finite q =>
    have hneg : q < 0 := by
      rw [← not_le]
      exact fun hnonneg => h ⟨rfl, F64.le_finite.mpr hnonneg⟩
    have htext : ("-" ++ F64.fixed 2 (.finite q)).toList = '-' :: '-' ::
        (F64.decimal (F64.roundTiesEven (|q| * 10 ^ 2)).toNat (2 : ℕ)).toList := by
      rw [F64.fixed, if_pos hneg]
      simp
    rw [htext]
    rfl

/-- A debit and a credit of one amount. -/
theorem balanced_iff {dr cr : String}
    (h : v.entries = [⟨dr, true, a⟩, ⟨cr, false, a⟩]) : Balanced v ↔ IsAmount a := by
  have htexts : v.entries.map (fun e => readPaise e.amountText.toList) =
      [readPaise ("-" ++ F64.fixed 2 a).toList, readPaise (F64.fixed 2 a).toList] := by
    rw [h]
    rfl
  constructor
  · rintro ⟨amounts, hmap, -⟩
    by_contra hamount
    rw [htexts, readPaise_of_not_isAmount hamount] at hmap
    cases amounts with
    | nil => cases hmap
    | cons n amounts => exact absurd (List.cons.inj hmap).1 nofun
  · intro hamount
    obtain ⟨n, hcredit, hdebit⟩ := readPaise_of_isAmount hamount
    exact ⟨[-n, n], by rw [htexts, hcredit, hdebit]; rfl, by simp⟩

end

/-! ## The document -/

/-- **Every voucher of the document balances just where no amount of a transaction selected, and
no opening balance that is written, is below zero or no number.** -/
theorem vouchers_balanced_iff (txns : List Transaction) (opts : TallyOpts)
    (openingBal : Option F64) :
    (∀ v ∈ vouchers txns opts openingBal, Balanced v) ↔
      (∀ t ∈ tallySelected txns opts, IsAmount (amt t)) ∧
        (opts.includeOb = true → tallySelected txns opts ≠ [] →
          ∀ ob ∈ openingBal, IsAmount ob) := by
  have hvouchers : (∀ v ∈ tallyVouchers txns opts, Balanced v) ↔
      ∀ t ∈ tallySelected txns opts, IsAmount (amt t) := by
    rw [tallyVouchers, List.forall_mem_map]
    exact forall₂_congr fun t _ => balanced_iff rfl
  have hob : (∀ v ∈ obVouchers (tallySelected txns opts) opts openingBal, Balanced v) ↔
      (opts.includeOb = true → tallySelected txns opts ≠ [] → ∀ ob ∈ openingBal, IsAmount ob) := by
    unfold obVouchers
    split
    · next hinclude =>
      split
      · next ob t rest hreal =>
        rw [List.forall_mem_singleton, balanced_iff rfl, hreal]
        simp [hinclude]
      · next hnone =>
        refine iff_of_true (List.forall_mem_nil _) fun _ hne ob hmem => ?_
        obtain ⟨t, rest, hcons⟩ := List.exists_cons_of_ne_nil hne
        exact absurd hcons (hnone ob t rest (Option.mem_def.mp hmem))
    · next hinclude => exact iff_of_true (List.forall_mem_nil _) fun h => absurd h hinclude
  rw [vouchers, List.forall_mem_append, hvouchers, hob, and_comm]

/-- The account of an overdraft. -/
def overdraftOpts : TallyOpts where
  company := "Acme"
  bankLedger := "Bank"
  dateFrom := none
  dateTo := none
  onlyClassified := false
  includeLedgers := false
  includeNarrations := true
  includeOb := true
  skipLowConf := false
  skipDuplicates := false

/-- An opening balance of -500.00 is written with two minuses. -/
theorem overdraft_voucher_unbalanced :
    ¬∀ v ∈ vouchers [{ Transaction.new "txn-1" with
        date := "01/04/2024", debit := some (.finite 100) }] overdraftOpts (some (.finite (-500))),
      Balanced v := by
  intro h
  obtain ⟨amounts, hmap, -⟩ := h (obVoucher "01/04/2024" (.finite (-500)) overdraftOpts)
    (by decide +kernel)
  have htexts : (obVoucher "01/04/2024" (.finite (-500)) overdraftOpts).entries.map
      (fun e => readPaise e.amountText.toList) = [none, some (-50000)] := by decide +kernel
  rw [htexts] at hmap
  cases amounts with
  | nil => cases hmap
  | cons n amounts => exact absurd (List.cons.inj hmap).1 nofun

end Desktop.Export
