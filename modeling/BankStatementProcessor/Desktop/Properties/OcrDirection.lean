import BankStatementProcessor.Desktop.Parser.OcrParser
import BankStatementProcessor.Infra.Hundredths

/-!
# The side of an amount that is read from a picture

Read with the balance before it, every row but the first one gets the side and the amount of its
movement. The rows of one day give no hint in which order they are listed, and are then read
as if the oldest was the first.
-/

namespace Desktop.Parser

open Infra F64

/-! ## Statements -/

/-- A row and what it really is, in paise. -/
structure OcrEntry where
  row : Transaction × AmtInfo
  balance : ℤ
  movement : ℤ
  amounts : List ℤ

/-- From one rupee to ten crore. -/
def IsPlausible (n : ℤ) : Prop := 100 ≤ n ∧ n ≤ 10 ^ 10

instance (n : ℤ) : Decidable (IsPlausible n) := inferInstanceAs (Decidable (_ ∧ _))

namespace OcrEntry

variable (fl : F64 → F64) (e next : OcrEntry)

/-- A row as the first pass collects it. It has no marker, and the true amount is among its
amounts. -/
structure Collected : Prop where
  balance : e.row.1.balance = some (hundredths fl e.balance)
  amounts : e.row.2.txnAmts = e.amounts.map (hundredths fl)
  unmarked : e.row.2.drMarker = false ∧ e.row.2.crMarker = false
  range : ∀ n ∈ e.balance :: e.amounts, IsPlausible n
  mem_amounts : |e.movement| ∈ e.amounts

def trueSides : Sides :=
  if 0 < e.movement then (none, some (hundredths fl |e.movement|))
  else (some (hundredths fl |e.movement|), none)

/-- What the balance of a row differs by from that of the next row. -/
def changeFrom : F64 := fl (F64.sub (hundredths fl e.balance) (hundredths fl next.balance))

/-- The balance after a row happens to explain it as the one before it would. -/
def LooksBackwards : Prop :=
  match e.row.2.txnAmts with
  | [] => False
  | [amt] => e.movement < 0 ↔
      wentUp fl (e.changeFrom fl next) amt = false ∧ wentDown fl (e.changeFrom fl next) amt = true
  | a :: rest => (e.movement < 0 ↔ 0 < next.movement) ∧
      chosenAmount fl (e.changeFrom fl next) a rest = hundredths fl |e.movement|

end OcrEntry

section

variable (fl : F64 → F64)

/-- The entries in the order of time. -/
structure IsStatement (entries : List OcrEntry) : Prop where
  collected : ∀ e ∈ entries, e.Collected fl
  consistent : entries.IsChain fun e e' => e'.balance = e.balance + e'.movement
  dates : ((entries.map (·.row.1.dateTs)).filter (· ≠ 0)).Pairwise (· ≤ ·)

/-- The first date is before the last one. -/
def MovesOn (entries : List OcrEntry) : Prop :=
  let dated := (entries.map (·.row.1.dateTs)).filter (· ≠ 0)
  ∃ first ∈ dated.head?, ∃ last ∈ dated.getLast?, first < last

/-- The last entry has its own amount first and goes in, and every other one is explained by the
balance after it. -/
def ReadsBackwards : List OcrEntry → Prop
  | [] => True
  | [e] => 0 < e.movement ∧ e.amounts.head? = some e.movement
  | e :: next :: entries => e.LooksBackwards fl next ∧ ReadsBackwards (next :: entries)

/-- As they are listed, or from the list back in the order of time. -/
def listed {α : Type} (newestFirst : Bool) (xs : List α) : List α :=
  if newestFirst then xs.reverse else xs

/-- All entries but the first one get their side and amount. -/
def DirectionsRight (newestFirst : Bool) (entries : List OcrEntry) : Prop :=
  List.Forall₂ (fun e (t : Transaction) => (t.debit, t.credit) = e.trueSides fl) entries.tail
    (listed newestFirst (secondPass fl (listed newestFirst (entries.map (·.row))))).tail

end

section

variable {fl : F64 → F64} {e e' next : OcrEntry} {entries : List OcrEntry}

/-! ## One row -/

theorem abs_le_of_isPlausible {n : ℤ} (h : IsPlausible n) : |n| ≤ 10 ^ 10 := by
  obtain ⟨hlower, hupper⟩ := h
  rw [abs_of_nonneg (by omega)]
  exact hupper

theorem isNear_of_isPlausible (hfl : Rounds fl) {n : ℤ} (h : IsPlausible n) :
    IsNear (hundredths fl n) (n / 100) (1 / 10 ^ 7) :=
  hfl.hundredths_isNear (abs_le_of_isPlausible h)

theorem rat_of_isPlausible {n : ℤ} (h : IsPlausible n) : 1 ≤ (n : ℚ) / 100 ∧ (n : ℚ) / 100 ≤ 10 ^ 8 := by
  have hlower : (100 : ℚ) ≤ n := by exact_mod_cast h.1
  have hupper : (n : ℚ) ≤ 10 ^ 10 := by exact_mod_cast h.2
  constructor <;> linarith

/-- The side of a collected amount is rounded to itself. -/
theorem roundSide_hundredths (hfl : Rounds fl) {n : ℤ} (h : IsPlausible n) :
    roundSide fl (some (hundredths fl n)) = some (hundredths fl n) := by
  have hpos : lt (.finite 0) (hundredths fl n) = true := by
    have hone := (rat_of_isPlausible h).1
    exact isNear_zero.lt_of (isNear_of_isPlausible hfl h) (by linarith)
  rw [roundSide, Option.filter_some, hpos, if_pos rfl, Option.map_some,
    hfl.round_hundredths (abs_le_of_isPlausible h)]

/-- The change between two balances. -/
theorem isNear_change (hfl : Rounds fl) {b b' : ℤ} (hb : IsPlausible b) (hb' : IsPlausible b') :
    IsNear (fl (F64.sub (hundredths fl b) (hundredths fl b'))) ((b - b' : ℤ) / 100) (3 / 10 ^ 7) := by
  obtain ⟨hlower, hupper⟩ := rat_of_isPlausible hb
  obtain ⟨hlower', hupper'⟩ := rat_of_isPlausible hb'
  have hdiff : ((b - b' : ℤ) : ℚ) / 100 = b / 100 - b' / 100 := by
    push_cast
    ring
  rw [hdiff]
  have hbound : |(b : ℚ) / 100 - b' / 100| + (1 / 10 ^ 7 + 1 / 10 ^ 7) ≤ 10 ^ 8 := by
    have habs : |(b : ℚ) / 100 - b' / 100| ≤ 10 ^ 8 - 1 := abs_le.mpr (by constructor <;> linarith)
    linarith
  exact ((isNear_of_isPlausible hfl hb).sub hfl (isNear_of_isPlausible hfl hb') hbound (by norm_num)
    (by norm_num)).mono (by norm_num)

/-- Two percent of an amount, up to rounding. -/
theorem isNear_twoPercent (hfl : Rounds fl) {x : F64} {q : ℚ} (hx : IsNear x q (1 / 10 ^ 7))
    (hq : 1 ≤ q ∧ q ≤ 10 ^ 8) : IsNear (fl (F64.mul x twoPercent)) (q / 50) (1 / 10 ^ 6) := by
  obtain ⟨r, rfl, hr⟩ := hx
  obtain ⟨hlow, hhigh⟩ := abs_le.mp hr
  rw [twoPercent, mul_finite]
  have hmk : (mkRat 5764607523034235 288230376151711744 : ℚ) =
      5764607523034235 / 288230376151711744 := by
    rw [Rat.mkRat_eq_div]
    norm_num
  have hproduct : |r * mkRat 5764607523034235 288230376151711744 - q / 50| ≤ 1 / 10 ^ 8 := by
    rw [hmk, abs_le]
    constructor <;> linarith
  have hqabs : |q / 50| + 1 / 10 ^ 8 ≤ 10 ^ 8 := by
    rw [abs_of_nonneg (by linarith)]
    linarith
  exact (hfl.isNear_of hproduct hqabs (by norm_num) (by norm_num)).mono (by norm_num)

/-! ## A row and the balance before it -/

section

variable {diff : F64} {m : ℤ}

/-- The change of a balance by `m` paise. -/
def IsChange (diff : F64) (m : ℤ) : Prop := IsNear diff (m / 100) (3 / 10 ^ 7) ∧ IsPlausible |m|

theorem IsChange.lt_zero_iff (h : IsChange diff m) :
    (lt diff (.finite 0) = true ↔ m < 0) ∧ (lt (.finite 0) diff = true ↔ 0 < m) := by
  obtain ⟨hnear, hrange⟩ := h
  have hone := (rat_of_isPlausible hrange).1
  rcases lt_trichotomy m 0 with hm | rfl | hm
  · have hcast : ((|m| : ℤ) : ℚ) = -m := by rw [abs_of_neg hm]; push_cast; rfl
    rw [hcast] at hone
    refine ⟨iff_of_true (hnear.lt_of isNear_zero (by linarith)) hm, iff_of_false ?_ (by omega)⟩
    rw [isNear_zero.not_lt_of hnear (by linarith)]
    exact Bool.false_ne_true
  · norm_num at hone
  · have hcast : ((|m| : ℤ) : ℚ) = m := by rw [abs_of_pos hm]
    rw [hcast] at hone
    refine ⟨iff_of_false ?_ (by omega), iff_of_true (isNear_zero.lt_of hnear (by linarith)) hm⟩
    rw [hnear.not_lt_of isNear_zero (by linarith)]
    exact Bool.false_ne_true

/-- The balance went up or down by the amount. -/
theorem IsChange.went (hfl : Rounds fl) (h : IsChange diff m) :
    (0 < m → wentUp fl diff (hundredths fl |m|) = true) ∧
      (m < 0 → wentUp fl diff (hundredths fl |m|) = false ∧
        wentDown fl diff (hundredths fl |m|) = true) := by
  obtain ⟨hnear, hrange⟩ := h
  obtain ⟨hone, hmany⟩ := rat_of_isPlausible hrange
  have hamt := isNear_of_isPlausible hfl hrange
  have htolerance := isNear_twoPercent hfl hamt ⟨hone, hmany⟩
  have hsmall : ∀ q : ℚ, q = 0 → |q| + (3 / 10 ^ 7 + 1 / 10 ^ 7) ≤ 10 ^ 9 := by
    rintro q rfl
    norm_num
  constructor
  · intro hm
    have hcast : ((|m| : ℤ) : ℚ) = m := by rw [abs_of_pos hm]
    rw [hcast] at hamt htolerance hone
    have hdiff := (hnear.sub hfl hamt (hsmall _ (sub_self _)) (by norm_num) (by norm_num)).abs
    rw [sub_self, abs_zero] at hdiff
    exact (hdiff.mono (show _ ≤ 1 / 10 ^ 6 by norm_num)).lt_of htolerance (by linarith)
  · intro hm
    have hcast : ((|m| : ℤ) : ℚ) = -m := by rw [abs_of_neg hm]; push_cast; rfl
    rw [hcast] at hamt htolerance hone hmany
    constructor
    · have hneg : (m : ℚ) / 100 - -m / 100 < 0 := by linarith
      have hfar : |(m : ℚ) / 100 - -m / 100| + (3 / 10 ^ 7 + 1 / 10 ^ 7) ≤ 10 ^ 9 := by
        rw [abs_of_neg hneg]
        linarith
      have hdiff := (hnear.sub hfl hamt hfar (by norm_num) (by norm_num)).abs
      rw [abs_of_neg hneg] at hdiff
      exact (hdiff.mono (show _ ≤ 1 / 10 ^ 6 by norm_num)).not_lt_of htolerance (by linarith)
    · have hcancel : (m : ℚ) / 100 + -m / 100 = 0 := by ring
      have hsum := (hnear.add hfl hamt (hsmall _ hcancel) (by norm_num) (by norm_num)).abs
      rw [hcancel, abs_zero] at hsum
      exact (hsum.mono (show _ ≤ 1 / 10 ^ 6 by norm_num)).lt_of htolerance (by linarith)

/-- One amount that is nearer than all others is the one that is found. -/
theorem minBy_eq {key : F64 → F64} {v : F64} {xs : List F64} :
    ∀ x, (x = v ∨ v ∈ xs) → (∀ y ∈ x :: xs, y ≠ v → lt (key v) (key y) = true) →
      minBy key x xs = v := by
  induction xs with
  | nil =>
    rintro x (rfl | hv) -
    · rfl
    · cases hv
  | cons y xs ih =>
    intro x hv hkey
    show minBy key (if lt (key y) (key x) then y else x) xs = v
    refine ih _ ?_ fun z hz hzv => hkey z ?_ hzv
    · by_cases hx : x = v
      · left
        split
        · next hlt =>
          -- nothing is nearer than the right one
          by_contra hyv
          have hvy := hkey y (List.mem_cons_of_mem _ List.mem_cons_self) hyv
          rw [← hx, lt_asymm hlt] at hvy
          cases hvy
        · exact hx
      · rcases List.mem_cons.mp (hv.resolve_left hx) with rfl | hv
        · rw [if_pos (hkey x List.mem_cons_self hx)]
          exact Or.inl rfl
        · exact Or.inr hv
    · rcases List.mem_cons.mp hz with rfl | hz
      · split
        · exact List.mem_cons_of_mem _ List.mem_cons_self
        · exact List.mem_cons_self
      · exact List.mem_cons_of_mem _ (List.mem_cons_of_mem _ hz)

theorem IsChange.distance (hfl : Rounds fl) (h : IsChange diff m) {n : ℤ} (hn : IsPlausible n) :
    IsNear (Parser.distance fl diff (hundredths fl n)) |((|m| - n : ℤ) : ℚ) / 100| (1 / 10 ^ 6) := by
  obtain ⟨hnear, hrange⟩ := h
  obtain ⟨hone, hmany⟩ := rat_of_isPlausible hrange
  obtain ⟨hone', hmany'⟩ := rat_of_isPlausible hn
  have habs : |(m : ℚ) / 100| = ((|m| : ℤ) : ℚ) / 100 := by
    rw [abs_div, abs_of_pos (show (0 : ℚ) < 100 by norm_num), Int.cast_abs]
  have hdiff : ((|m| - n : ℤ) : ℚ) / 100 = |(m : ℚ) / 100| - n / 100 := by
    rw [habs]
    push_cast
    ring
  have hbound : |(|(m : ℚ) / 100| - n / 100)| + (3 / 10 ^ 7 + 1 / 10 ^ 7) ≤ 10 ^ 9 := by
    have hle : |(|(m : ℚ) / 100| - n / 100)| ≤ 10 ^ 8 := by
      rw [habs, abs_le]
      constructor <;> linarith
    linarith
  rw [hdiff]
  exact ((hnear.abs.sub hfl (isNear_of_isPlausible hfl hn) hbound (by norm_num)
    (by norm_num)).abs).mono (by norm_num)

/-- Among other amounts the one that the balance moved by is chosen. -/
theorem IsChange.chosenAmount (hfl : Rounds fl) (h : IsChange diff m) {a : ℤ} {rest : List ℤ}
    (hall : ∀ n ∈ a :: rest, IsPlausible n) (hmem : |m| ∈ a :: rest) :
    Parser.chosenAmount fl diff (hundredths fl a) (rest.map (hundredths fl)) =
      hundredths fl |m| := by
  have hown := h.distance hfl h.2
  rw [sub_self, Int.cast_zero, zero_div, abs_zero] at hown
  obtain ⟨hone, hmany⟩ := rat_of_isPlausible h.2
  have hbest : minBy (Parser.distance fl diff) (hundredths fl a) (rest.map (hundredths fl)) =
      hundredths fl |m| := by
    refine minBy_eq _ ?_ fun y hy hne => ?_
    · rcases List.mem_cons.mp hmem with ha | hmem
      · exact Or.inl (by rw [ha])
      · exact Or.inr (List.mem_map_of_mem hmem)
    · obtain ⟨n, hn, rfl⟩ : ∃ n ∈ a :: rest, hundredths fl n = y := by
        rw [← List.map_cons] at hy
        exact List.mem_map.mp hy
      have hdiffers : |m| - n ≠ 0 := fun hzero => hne (by rw [← sub_eq_zero.mp hzero])
      have hfar : (1 : ℚ) / 100 ≤ |((|m| - n : ℤ) : ℚ) / 100| := by
        have hint : 1 ≤ |(|m| - n)| := Int.one_le_abs hdiffers
        have hcast : (1 : ℚ) ≤ |((|m| - n : ℤ) : ℚ)| := by exact_mod_cast hint
        rw [abs_div, abs_of_pos (show (0 : ℚ) < 100 by norm_num)]
        linarith
      exact hown.lt_of (h.distance hfl (hall n hn)) (by linarith)
  have hmax : IsNear (F64.max (hundredths fl |m|) (.finite 1)) ((|m| : ℤ) / 100) (1 / 10 ^ 7) := by
    obtain ⟨r, hr, hclose⟩ := isNear_of_isPlausible hfl h.2
    refine ⟨r ⊔ 1, by rw [hr, F64.max_finite], ?_⟩
    rcases le_total r 1 with hle | hle
    · rw [max_eq_right hle]
      rw [abs_le] at hclose ⊢
      constructor <;> linarith
    · rw [max_eq_left hle]
      exact hclose
  rw [Parser.chosenAmount]
  simp only [hbest]
  rw [if_pos (hown.lt_of (isNear_twoPercent hfl hmax ⟨hone, hmany⟩) (by linarith))]

end

/-! ## The sides of a row -/

theorem minBy_mem (key : F64 → F64) (xs : List F64) :
    ∀ x, minBy key x xs ∈ x :: xs := by
  induction xs with
  | nil => exact fun x => List.mem_singleton_self x
  | cons y xs ih =>
    intro x
    show minBy key (if lt (key y) (key x) then y else x) xs ∈ x :: y :: xs
    rcases List.mem_cons.mp (ih (if lt (key y) (key x) then y else x)) with hmem | hmem
    · rw [hmem]
      split
      · exact List.mem_cons_of_mem _ List.mem_cons_self
      · exact List.mem_cons_self
    · exact List.mem_cons_of_mem _ (List.mem_cons_of_mem _ hmem)

theorem chosenAmount_mem (fl : F64 → F64) (diff a : F64) (rest : List F64) :
    chosenAmount fl diff a rest ∈ a :: rest := by
  unfold chosenAmount
  simp only
  split
  · exact minBy_mem _ _ _
  · split
    · exact List.mem_cons_self
    · exact List.getLast_mem _

/-- A row has an amount on one side at most. -/
theorem decideSides_cases (fl : F64 → F64) (prevBalance : Option F64) (balance : F64)
    (info : AmtInfo) :
    decideSides fl prevBalance balance info = (none, none) ∨
      ∃ x ∈ info.txnAmts, decideSides fl prevBalance balance info = (some x, none) ∨
        decideSides fl prevBalance balance info = (none, some x) := by
  obtain ⟨amts, dr, cr⟩ := info
  match amts with
  | [] => exact Or.inl rfl
  | [amt] =>
    refine Or.inr ⟨amt, List.mem_singleton_self _, ?_⟩
    simp only [decideSides]
    cases dr
    · cases cr
      · cases prevBalance with
        | none => exact Or.inr rfl
        | some prev =>
          simp only [Bool.false_eq_true, if_false]
          split
          · exact Or.inr rfl
          · split
            · exact Or.inl rfl
            · exact Or.inr rfl
      · exact Or.inr rfl
    · exact Or.inl rfl
  | a :: b :: rest =>
    cases prevBalance with
    | none => exact Or.inr ⟨a, List.mem_cons_self, Or.inr rfl⟩
    | some prev =>
      simp only [decideSides]
      have hmem := chosenAmount_mem fl (fl (F64.sub balance prev)) a (b :: rest)
      cases hdown : lt (fl (F64.sub balance prev)) (.finite 0) with
      | true =>
        rw [lt_asymm hdown]
        exact Or.inr ⟨_, hmem, Or.inl rfl⟩
      | false =>
        cases lt (.finite 0) (fl (F64.sub balance prev)) with
        | true => exact Or.inr ⟨_, hmem, Or.inr rfl⟩
        | false => exact Or.inl rfl

/-- No row gets both sides. -/
theorem not_both_decideRow (fl : F64 → F64) (prevBalance : Option F64)
    (row : Transaction × AmtInfo) :
    (decideRow fl prevBalance row).debit = none ∨ (decideRow fl prevBalance row).credit = none := by
  have hdebit : (decideRow fl prevBalance row).debit =
      roundSide fl (decideSides fl prevBalance (rowBalance row) row.2).1 := rfl
  have hcredit : (decideRow fl prevBalance row).credit =
      roundSide fl (decideSides fl prevBalance (rowBalance row) row.2).2 := rfl
  rw [hdebit, hcredit]
  rcases decideSides_cases fl prevBalance (rowBalance row) row.2 with h | ⟨x, -, h | h⟩
  · rw [h]
    exact Or.inl rfl
  · rw [h]
    exact Or.inr rfl
  · rw [h]
    exact Or.inl rfl

theorem trueSides_of_pos (h : 0 < e.movement) :
    e.trueSides fl = (none, some (hundredths fl |e.movement|)) := if_pos h

theorem trueSides_of_neg (h : e.movement < 0) :
    e.trueSides fl = (some (hundredths fl |e.movement|), none) := if_neg (by omega)

theorem OcrEntry.Collected.movement_range (h : e.Collected fl) : IsPlausible |e.movement| :=
  h.range _ (List.mem_cons_of_mem _ h.mem_amounts)

theorem OcrEntry.Collected.movement_ne_zero (h : e.Collected fl) : e.movement ≠ 0 := by
  intro hzero
  have hlower := h.movement_range.1
  rw [hzero] at hlower
  norm_num at hlower

theorem OcrEntry.Collected.rowBalance (h : e.Collected fl) :
    Parser.rowBalance e.row = hundredths fl e.balance := by
  rw [Parser.rowBalance, h.balance]
  rfl

theorem isChange_of_collected (hfl : Rounds fl) (h : e.Collected fl) (h' : e'.Collected fl)
    {m : ℤ} (hm : IsPlausible |m|) (hb : e.balance - e'.balance = m) :
    IsChange (e.changeFrom fl e') m := by
  refine ⟨?_, hm⟩
  rw [← hb]
  exact isNear_change hfl (h.range _ List.mem_cons_self) (h'.range _ List.mem_cons_self)

/-- The sides before they are rounded. -/
def rawSides (fl : F64 → F64) (prevBalance : Option F64) (e : OcrEntry) : Sides :=
  decideSides fl prevBalance (rowBalance e.row) e.row.2

/-- Every amount on a side is one of the row. -/
theorem mem_of_rawSides {prevBalance : Option F64} {x : F64}
    (h : OnSide (rawSides fl prevBalance e) x) : x ∈ e.row.2.txnAmts := by
  rcases decideSides_cases fl prevBalance (rowBalance e.row) e.row.2 with
    hnone | ⟨y, hy, hdebit | hcredit⟩
  · rw [rawSides, hnone] at h
    rcases h with h | h <;> cases h
  · rw [rawSides, hdebit] at h
    rcases h with h | h <;> cases h
    exact hy
  · rw [rawSides, hcredit] at h
    rcases h with h | h <;> cases h
    exact hy

/-- Rounding leaves the sides of a collected row as they are. -/
theorem sides_decideRow (hfl : Rounds fl) (h : e.Collected fl) (prevBalance : Option F64) :
    ((decideRow fl prevBalance e.row).debit, (decideRow fl prevBalance e.row).credit) =
      rawSides fl prevBalance e := by
  have hside : ∀ side : Option F64, (∀ x ∈ side, x ∈ e.row.2.txnAmts) → roundSide fl side = side := by
    rintro (_ | x) hx
    · rfl
    · have hx := hx x rfl
      rw [h.amounts] at hx
      obtain ⟨n, hn, rfl⟩ := List.mem_map.mp hx
      exact roundSide_hundredths hfl (h.range n (List.mem_cons_of_mem _ hn))
  have hdebit := hside (rawSides fl prevBalance e).1 fun x hx => mem_of_rawSides (Or.inl hx)
  have hcredit := hside (rawSides fl prevBalance e).2 fun x hx => mem_of_rawSides (Or.inr hx)
  exact Prod.ext hdebit hcredit

/-- With the balance before it a row gets its side and its amount. -/
theorem rawSides_forward (hfl : Rounds fl) (h : e.Collected fl) (h' : e'.Collected fl)
    (hb : e'.balance = e.balance + e'.movement) :
    rawSides fl (some (hundredths fl e.balance)) e' = e'.trueSides fl := by
  have hchange := isChange_of_collected hfl h' h h'.movement_range
    (show e'.balance - e.balance = e'.movement by omega)
  have hdiff : fl (F64.sub (rowBalance e'.row) (hundredths fl e.balance)) = e'.changeFrom fl e := by
    rw [h'.rowBalance]
    rfl
  have hmem := h'.mem_amounts
  have hrange := h'.range
  rw [rawSides, decideSides, h'.amounts]
  generalize e'.amounts = amounts at hmem hrange ⊢
  match amounts with
  | [] => cases hmem
  | [n] =>
    rw [← List.mem_singleton.mp hmem]
    obtain ⟨hup, hdown⟩ := hchange.went hfl
    simp only [List.map_cons, List.map_nil, h'.unmarked.1, h'.unmarked.2, Bool.false_eq_true,
      if_false, hdiff]
    rcases lt_or_gt_of_ne h'.movement_ne_zero with hm | hm
    · rw [(hdown hm).1, (hdown hm).2, trueSides_of_neg hm]
      rfl
    · rw [hup hm, trueSides_of_pos hm]
      rfl
  | n :: n' :: rest =>
    have hchosen := hchange.chosenAmount hfl (a := n)
      (fun k hk => hrange k (List.mem_cons_of_mem _ hk)) hmem
    obtain ⟨hneg, hpos⟩ := hchange.lt_zero_iff
    simp only [List.map_cons, hdiff] at hchosen ⊢
    rw [hchosen]
    rcases lt_or_gt_of_ne h'.movement_ne_zero with hm | hm
    · rw [if_pos (hneg.mpr hm), if_neg (fun hlt => (hpos.mp hlt).not_gt hm), trueSides_of_neg hm]
    · rw [if_neg (fun hlt => (hneg.mp hlt).not_gt hm), if_pos (hpos.mpr hm), trueSides_of_pos hm]

/-- Read with the balance after it, a row gets its side and its amount only if that balance explains
it too. -/
theorem rawSides_backward (hfl : Rounds fl) (h : e.Collected fl) (hn : next.Collected fl)
    (hb : next.balance = e.balance + next.movement) :
    rawSides fl (some (hundredths fl next.balance)) e = e.trueSides fl ↔
      e.LooksBackwards fl next := by
  have hrange : IsPlausible |(-next.movement)| := by
    rw [abs_neg]
    exact hn.movement_range
  have hchange := isChange_of_collected hfl h hn hrange
    (show e.balance - next.balance = -next.movement by omega)
  have hdiff : fl (F64.sub (rowBalance e.row) (hundredths fl next.balance)) =
      e.changeFrom fl next := by
    rw [h.rowBalance]
    rfl
  have hmem := h.mem_amounts
  rw [rawSides, decideSides, OcrEntry.LooksBackwards, h.amounts]
  generalize e.amounts = amounts at hmem ⊢
  match amounts with
  | [] => cases hmem
  | [n] =>
    rw [← List.mem_singleton.mp hmem]
    simp only [List.map_cons, List.map_nil, h.unmarked.1, h.unmarked.2, Bool.false_eq_true,
      if_false, hdiff]
    rcases lt_or_gt_of_ne h.movement_ne_zero with hm | hm
    · rw [trueSides_of_neg hm]
      cases wentUp fl (e.changeFrom fl next) (hundredths fl |e.movement|) <;>
        cases wentDown fl (e.changeFrom fl next) (hundredths fl |e.movement|) <;> simp [hm]
    · rw [trueSides_of_pos hm]
      cases wentUp fl (e.changeFrom fl next) (hundredths fl |e.movement|) <;>
        cases wentDown fl (e.changeFrom fl next) (hundredths fl |e.movement|) <;> simp [hm.le]
  | n :: n' :: rest =>
    obtain ⟨hneg, hpos⟩ := hchange.lt_zero_iff
    have hnext := hn.movement_ne_zero
    simp only [List.map_cons, hdiff, hneg, hpos]
    rcases lt_or_gt_of_ne h.movement_ne_zero with hm | hm
    · rw [trueSides_of_neg hm]
      rcases lt_or_gt_of_ne hnext with hnm | hnm
      · simp [hm, hnm, hnm.not_gt, hnm.le]
      · simp [hm, hnm, hnm.not_gt, hnm.le]
    · rw [trueSides_of_pos hm]
      rcases lt_or_gt_of_ne hnext with hnm | hnm
      · simp [hm.le, hnm, hnm.not_gt, hnm.le]
      · simp [hm.le, hnm, hnm.not_gt, hnm.le]

/-- Read without a balance before it, a row goes in with its first amount. -/
theorem rawSides_none (hfl : Rounds fl) (h : e.Collected fl) :
    rawSides fl none e = e.trueSides fl ↔ 0 < e.movement ∧ e.amounts.head? = some e.movement := by
  have hmem := h.mem_amounts
  obtain ⟨n, amounts, hamounts⟩ := List.exists_cons_of_ne_nil (List.ne_nil_of_mem hmem)
  have hraw : rawSides fl none e = (none, some (hundredths fl n)) := by
    rw [rawSides, decideSides, h.amounts, hamounts]
    match amounts with
    | [] =>
      simp only [List.map_cons, List.map_nil, h.unmarked.1, h.unmarked.2, Bool.false_eq_true,
        if_false]
    | n' :: rest => rfl
  rw [hraw, hamounts]
  rcases lt_or_gt_of_ne h.movement_ne_zero with hm | hm
  · rw [trueSides_of_neg hm]
    simp [hm.not_gt]
  · rw [trueSides_of_pos hm]
    have hn := abs_le_of_isPlausible (h.range n (by rw [hamounts]; simp))
    have hinj : hundredths fl n = hundredths fl |e.movement| ↔ n = e.movement := by
      constructor
      · intro heq
        rw [hfl.hundredths_inj hn (abs_le_of_isPlausible h.movement_range) heq, abs_of_pos hm]
      · rintro rfl
        rw [abs_of_pos hm]
    simp [hm, hinj]

/-! ## Runs -/

theorem IsStatement.tail (h : IsStatement fl (e :: entries)) : IsStatement fl entries where
  collected := fun e' he' => h.collected e' (List.mem_cons_of_mem _ he')
  consistent := h.consistent.tail
  dates := h.dates.sublist ((List.sublist_cons_self _ _).map _ |>.filter _)

/-- In the order of time every row comes out right. -/
theorem decideRows_forward (hfl : Rounds fl) (h : IsStatement fl (e :: entries)) :
    List.Forall₂ (fun e (t : Transaction) => (t.debit, t.credit) = e.trueSides fl) entries
      (decideRows fl (some (rowBalance e.row)) (entries.map (·.row))) := by
  induction entries generalizing e with
  | nil => exact .nil
  | cons e' entries ih =>
    have he := h.collected e List.mem_cons_self
    have he' := h.collected e' (List.mem_cons_of_mem _ List.mem_cons_self)
    refine .cons ?_ (ih h.tail)
    rw [he.rowBalance, sides_decideRow hfl he']
    exact rawSides_forward hfl he he' (List.isChain_cons_cons.mp h.consistent).1

theorem decideRows_snoc (rows : List (Transaction × AmtInfo)) (row : Transaction × AmtInfo)
    (prevBalance : Option F64) :
    decideRows fl prevBalance (rows ++ [row]) = decideRows fl prevBalance rows ++
      [decideRow fl ((rows.getLast?.map rowBalance).or prevBalance) row] := by
  induction rows generalizing prevBalance with
  | nil => rfl
  | cons r rows ih =>
    rw [List.cons_append, decideRows, ih, decideRows, List.cons_append]
    congr 3
    rw [List.getLast?_cons]
    cases rows.getLast? <;> rfl

/-- From the end of the list the row before is the one that is later. -/
theorem reverse_decideRows_cons (rows : List (Transaction × AmtInfo))
    (row : Transaction × AmtInfo) :
    (decideRows fl none (row :: rows).reverse).reverse =
      decideRow fl (rows.head?.map rowBalance) row ::
        (decideRows fl none rows.reverse).reverse := by
  rw [List.reverse_cons, decideRows_snoc, List.reverse_append, List.reverse_singleton,
    List.getLast?_reverse, Option.or_none]
  rfl

theorem decideRows_backward (hfl : Rounds fl) (h : IsStatement fl entries) :
    List.Forall₂ (fun e (t : Transaction) => (t.debit, t.credit) = e.trueSides fl) entries
      (decideRows fl none (entries.map (·.row)).reverse).reverse ↔ ReadsBackwards fl entries := by
  induction entries with
  | nil => simp [decideRows, ReadsBackwards]
  | cons e entries ih =>
    have he := h.collected e List.mem_cons_self
    rw [List.map_cons, reverse_decideRows_cons, List.forall₂_cons, ih h.tail,
      sides_decideRow hfl he]
    cases entries with
    | nil =>
      rw [List.map_nil, List.head?_nil, Option.map_none, rawSides_none hfl he]
      simp [ReadsBackwards]
    | cons next entries =>
      have hn := h.collected next (List.mem_cons_of_mem _ List.mem_cons_self)
      rw [List.map_cons, List.head?_cons, Option.map_some, hn.rowBalance,
        rawSides_backward hfl he hn (List.isChain_cons_cons.mp h.consistent).1]
      rfl

/-! ## The order of the rows -/

theorem isDescending_iff {txns : List Transaction} :
    isDescending txns = true ↔
      ∃ first ∈ ((txns.map (·.dateTs)).filter (· ≠ 0)).head?,
        ∃ last ∈ ((txns.map (·.dateTs)).filter (· ≠ 0)).getLast?, last < first := by
  unfold isDescending
  generalize (txns.map (·.dateTs)).filter (· ≠ 0) = dated
  cases hfirst : dated.head? with
  | none => simp [hfirst]
  | some first =>
    cases hlast : dated.getLast? with
    | none => simp [hfirst, hlast]
    | some last => simp [hfirst, hlast]

theorem isDescending_reverse {rows : List OcrEntry} :
    isDescending ((rows.map (·.row)).reverse.map (·.1)) = true ↔ MovesOn rows := by
  rw [isDescending_iff, MovesOn]
  simp only [List.map_reverse, List.map_map, List.filter_reverse, List.head?_reverse,
    List.getLast?_reverse]
  constructor
  · rintro ⟨last, hlast, first, hfirst, hlt⟩
    exact ⟨first, hfirst, last, hlast, hlt⟩
  · rintro ⟨first, hfirst, last, hlast, hlt⟩
    exact ⟨last, hlast, first, hfirst, hlt⟩

/-- Rows that are listed in the order of time are read in it. -/
theorem IsStatement.not_descending (h : IsStatement fl entries) :
    isDescending ((entries.map (·.row)).map (·.1)) = false := by
  refine eq_false_of_ne_true fun hdesc => ?_
  obtain ⟨first, hfirst, last, hlast, hlt⟩ := isDescending_iff.mp hdesc
  have hdates := h.dates
  rw [List.map_map, List.map_map] at hfirst hlast
  change first ∈ ((entries.map (·.row.1.dateTs)).filter (· ≠ 0)).head? at hfirst
  change last ∈ ((entries.map (·.row.1.dateTs)).filter (· ≠ 0)).getLast? at hlast
  generalize (entries.map (·.row.1.dateTs)).filter (· ≠ 0) = dated at hdates hfirst hlast
  cases dated with
  | nil => cases hfirst
  | cons a dated =>
    cases hfirst
    rcases List.mem_cons.mp (List.mem_of_mem_getLast? hlast) with rfl | hmem
    · exact lt_irrefl _ hlt
    · exact (List.rel_of_pairwise_cons hdates hmem).not_gt hlt

/-- **No row gets both sides. Where the rows agree with their balances, each but the first one
gets its side and its amount exactly if the oldest row is listed first, the dates move on or the
rows happen to agree with the balances after them too.** -/
theorem ocrDirection (fl : F64 → F64) (hfl : Rounds fl) :
    (∀ rows, ∀ t ∈ secondPass fl rows, t.debit = none ∨ t.credit = none) ∧
      ∀ entries newestFirst, IsStatement fl entries →
        (DirectionsRight fl newestFirst entries ↔
          newestFirst = false ∨ MovesOn entries ∨ ReadsBackwards fl entries.tail) := by
  constructor
  · have hrows : ∀ rows prevBalance, ∀ t ∈ decideRows fl prevBalance rows,
        t.debit = none ∨ t.credit = none := by
      intro rows
      induction rows with
      | nil =>
        intro prevBalance t ht
        cases ht
      | cons row rows ih =>
        intro prevBalance t ht
        rcases List.mem_cons.mp ht with rfl | ht
        · exact not_both_decideRow fl prevBalance row
        · exact ih _ t ht
    intro rows t ht
    unfold secondPass at ht
    split at ht
    · exact hrows _ none t (List.mem_reverse.mp ht)
    · exact hrows _ none t ht
  · intro entries newestFirst h
    have hforward : List.Forall₂ (fun e (t : Transaction) => (t.debit, t.credit) = e.trueSides fl)
        entries.tail (decideRows fl none (entries.map (·.row))).tail := by
      cases entries with
      | nil => exact .nil
      | cons e entries => exact decideRows_forward hfl h
    cases newestFirst with
    | false =>
      refine iff_of_true ?_ (Or.inl rfl)
      simp only [DirectionsRight, listed, secondPass, h.not_descending, Bool.false_eq_true, if_false]
      exact hforward
    | true =>
      by_cases hmoves : MovesOn entries
      · refine iff_of_true ?_ (Or.inr (Or.inl hmoves))
        simp only [DirectionsRight, listed, secondPass, if_true, isDescending_reverse.mpr hmoves,
          List.reverse_reverse]
        exact hforward
      · have hdesc : isDescending ((entries.map (·.row)).reverse.map (·.1)) = false :=
          eq_false_of_ne_true fun hdesc => hmoves (isDescending_reverse.mp hdesc)
        have hright : DirectionsRight fl true entries ↔ ReadsBackwards fl entries.tail := by
          simp only [DirectionsRight, listed, secondPass, if_true, hdesc, Bool.false_eq_true,
            if_false]
          cases entries with
          | nil => simp [decideRows, ReadsBackwards]
          | cons e entries =>
            rw [List.map_cons, reverse_decideRows_cons, List.tail_cons, List.tail_cons]
            exact decideRows_backward hfl h.tail
        rw [hright]
        simp [hmoves]

/-! ## Two rows of one day -/

section

/-- A row with one amount. -/
def singleRow (dateTs balance amount : ℤ) : Transaction × AmtInfo :=
  ({ Transaction.new "t_ocr" with dateTs, balance := some (hundredths toDouble balance) },
    { txnAmts := [hundredths toDouble amount], drMarker := false, crMarker := false })

/-- 1,000.00 comes in and 200.00 goes out. -/
def salaryAndRent : List OcrEntry :=
  [⟨singleRow 1767571200000 100000 100000, 100000, 100000, [100000]⟩,
    ⟨singleRow 1767571200000 80000 20000, 80000, -20000, [20000]⟩]

theorem isStatement_salaryAndRent : IsStatement toDouble salaryAndRent where
  collected := by
    intro e he
    simp only [salaryAndRent, List.mem_cons, List.not_mem_nil, or_false] at he
    rcases he with rfl | rfl
    · exact ⟨rfl, rfl, ⟨rfl, rfl⟩, by decide, by decide⟩
    · exact ⟨rfl, rfl, ⟨rfl, rfl⟩, by decide, by decide⟩
  consistent := by decide
  dates := by decide

theorem ocrDirection_salaryAndRent :
    (∀ rows, ∀ t ∈ secondPass toDouble rows, t.debit = none ∨ t.credit = none) ∧
      (DirectionsRight toDouble false salaryAndRent ↔
        false = false ∨ MovesOn salaryAndRent ∨ ReadsBackwards toDouble salaryAndRent.tail) :=
  ⟨(ocrDirection toDouble rounds_toDouble).1,
    (ocrDirection toDouble rounds_toDouble).2 salaryAndRent false isStatement_salaryAndRent⟩

/-- Listed with the newest row first, the rent comes in. -/
theorem not_ocrDirection :
    IsStatement toDouble salaryAndRent ∧ ¬ DirectionsRight toDouble true salaryAndRent ∧
      (secondPass toDouble (salaryAndRent.map (·.row)).reverse).map (fun t => (t.debit, t.credit)) =
        [(none, some (hundredths toDouble 20000)), (none, some (hundredths toDouble 100000))] := by
  refine ⟨isStatement_salaryAndRent, fun h => ?_, by decide +kernel⟩
  have hsides : salaryAndRent.tail.map (·.trueSides toDouble) =
      (listed true (secondPass toDouble (listed true (salaryAndRent.map (·.row))))).tail.map
        (fun t => (t.debit, t.credit)) := by
    rw [← List.forall₂_eq_eq_eq, List.forall₂_map_left_iff, List.forall₂_map_right_iff]
    exact h.imp fun e t ht => ht.symm
  revert hsides
  decide +kernel

end

end

end Desktop.Parser
