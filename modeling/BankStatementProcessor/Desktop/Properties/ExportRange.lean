import BankStatementProcessor.Desktop.Export.DateRange
import BankStatementProcessor.Infra.Calendar
import BankStatementProcessor.Infra.Lexical
import BankStatementProcessor.Infra.Utf8

/-!
# The range of an export

The order of converted dates is the order of days where all their numbers are padded. The check
also accepts numbers with a plus or with more zeros, which are not.
-/

namespace Desktop.Export

open Infra

/-! ## Bounds -/

/-- A bound, by its parts and by the numbers they parse to. -/
structure Bound where
  day : List Char
  month : List Char
  year : List Char
  date : DateYmd
deriving DecidableEq, Repr

/-- An empty bound is none. -/
def readBound (raw : String) : Option Bound :=
  match (trim raw.toList).splitOn '/' with
  | [d, m, y] => do
    let dd ← parseU32 d
    let mm ← parseU32 m
    let yyyy ← parseI32 y
    return { day := d, month := m, year := y, date := { yyyy, mm, dd } }
  | _ => none

/-- One or two digits, which the conversion pads to two. -/
def IsShort (part : List Char) : Prop := part.length ≤ 2 ∧ IsDigits part

/-- A lower bound that is compared as its day is: its numbers are padded, or it is spelt such that
it comes before all days of a month, a year or all years, and its day is the first of them. -/
def LowerFits (b : Bound) : Prop :=
  (IsDigits b.year ∧ IsShort b.month ∧ (IsShort b.day ∨ b.date.dd = 1)) ∨
    (IsDigits b.year ∧ b.date.mm = 1 ∧ b.date.dd = 1) ∨
      (¬IsDigits b.year ∧ DateYmd.lt ⟨0, 1, 1⟩ b.date = false)

/-- An upper bound that is compared as its day is: its numbers are padded, or its year lies before
all years of four digits. -/
def UpperFits (b : Bound) : Prop :=
  (IsDigits b.year ∧ IsShort b.month ∧ IsShort b.day) ∨ b.date.yyyy < 0

/-- The first bound is not after the second. -/
def InOrder (lower upper : Option Bound) : Prop :=
  ∀ b ∈ lower, ∀ b' ∈ upper, b'.date.lt b.date = false

/-- Years before all years of four digits are compared the other way round. -/
def BoundsFit (lower upper : Option Bound) : Prop :=
  (∀ b ∈ lower, LowerFits b) ∧ (∀ b ∈ upper, UpperFits b) ∧
    ((∃ b ∈ upper, b.date.yyyy < 0) → InOrder lower upper)

/-! ## Days -/

/-- The numbers of a day. -/
def ymd (date : NaiveDate) : DateYmd := ⟨date.year, date.month, date.day⟩

/-- `DD/MM/YYYY`, padded with zeros. -/
def ddMmYyyy (date : NaiveDate) : String :=
  String.ofList (padded 2 date.day ++ '/' :: (padded 2 date.month ++ '/' :: padded 4 date.year))

def Between (lower upper : Option Bound) (d : DateYmd) : Prop :=
  (∀ b ∈ lower, d.lt b.date = false) ∧ ∀ b ∈ upper, b.date.lt d = false

/-- The range that is accepted is in order, and selects the days between its bounds. -/
def SelectsBetween (lower upper : Option Bound) (fromIso toIso : String) : Prop :=
  InOrder lower upper ∧ ∀ date : NaiveDate, date.year ≤ 9999 →
    (inRange (ddMmYyyy date) (asBound fromIso) (asBound toIso) = true ↔
      Between lower upper (ymd date))

/-- Bounds in order without a day between them, be they compared as days or as text: they lie
behind the last day of one month. -/
def NoDayBetween (lower upper : Option Bound) (fromIso toIso : String) : Prop :=
  InOrder lower upper ∧ ∀ date : NaiveDate, date.year ≤ 9999 → ¬Between lower upper (ymd date) ∧
    ((∃ b, asBound fromIso = some b ∧ toIsoDate (ddMmYyyy date) < b) ∨
      ∃ b, asBound toIso = some b ∧ b < toIsoDate (ddMmYyyy date))

/-! ## What is accepted -/

/-- How a part is written: after a plus, or as digits. -/
inductive IsPart : List Char → ℕ → Prop
  | plus {ds : List Char} {n : ℕ} : ds ≠ [] → IsPart ('+' :: ds) n
  | digits {ds : List Char} : ds ≠ [] → IsDigits ds → IsPart ds (F64.digitsValue ds)

/-- How a year is written: after a sign, or as digits. -/
inductive IsYear : List Char → ℤ → Prop
  | signed {c : Char} {ds : List Char} {n : ℤ} :
    c = '+' ∨ c = '-' → n ≤ 9999 → IsYear (c :: ds) n
  | digits {ds : List Char} : IsDigits ds → IsYear ds (F64.digitsValue ds)

/-- A bound that is accepted. -/
structure IsBound (b : Bound) : Prop where
  length : b.year.length = 4
  year : IsYear b.year b.date.yyyy
  month : IsPart b.month b.date.mm
  day : IsPart b.day b.date.dd
  monthRange : 1 ≤ b.date.mm ∧ b.date.mm ≤ 12
  dayRange : 1 ≤ b.date.dd ∧ b.date.dd ≤ 31

section

variable {cs y : List Char} {n : ℕ} {k : ℤ} {raw fromRaw toRaw fromIso toIso : String}

theorem parseDigits_eq_some (h : parseDigits cs = some n) :
    cs ≠ [] ∧ IsDigits cs ∧ F64.digitsValue cs = n := by
  unfold parseDigits at h
  split at h
  · next hdigits =>
    rw [Bool.and_eq_true, Bool.not_eq_true', List.isEmpty_eq_false_iff, List.all_eq_true]
      at hdigits
    exact ⟨hdigits.1, hdigits.2, Option.some.inj h⟩
  · cases h

theorem isPart_of_parseU32 (h : parseU32 cs = some n) : IsPart cs n := by
  unfold parseU32 at h
  obtain ⟨h, -⟩ := Option.filter_eq_some_iff.mp h
  split at h
  · next hplus =>
    obtain ⟨ds, rfl⟩ := List.head?_eq_some_iff.mp hplus
    exact .plus (parseDigits_eq_some h).1
  · obtain ⟨hne, hdigits, rfl⟩ := parseDigits_eq_some h
    exact .digits hne hdigits

theorem len_eq_utf8Len (cs : List Char) : len cs = utf8Len cs := by
  have hfold : ∀ cs n, List.foldl (fun n c => n + Char.utf8Size c) n cs = n + utf8Len cs := by
    intro cs
    induction cs with
    | nil => exact fun n => rfl
    | cons c cs ih =>
      intro n
      rw [List.foldl_cons, ih, utf8Len, Nat.add_assoc]
  rw [len, hfold, Nat.zero_add]

theorem utf8Size_of_isDigit {c : Char} (h : c.isDigit = true) : c.utf8Size = 1 := by
  obtain ⟨heq, hle⟩ := toNat_of_isDigit h
  rw [Char.utf8Size_eq_one_iff, UInt32.le_iff_toNat_le]
  show c.toNat ≤ 127
  omega

/-- A year of four bytes has four characters. -/
theorem isYear_of_parseI32 (h : parseI32 y = some k) (hlen : len y = 4) :
    y.length = 4 ∧ IsYear y k := by
  have hsigned : ∀ c ds, c = '+' ∨ c = '-' → y = c :: ds → IsDigits ds →
      k.natAbs = F64.digitsValue ds → y.length = 4 ∧ IsYear y k := by
    rintro c ds hc rfl hdigits hvalue
    have hone : ∀ d ∈ c :: ds, d.utf8Size = 1 := by
      intro d hd
      rcases List.mem_cons.mp hd with rfl | hd
      · rcases hc with rfl | rfl <;> rfl
      · exact utf8Size_of_isDigit (hdigits d hd)
    have hfour : (c :: ds).length = 4 := by
      rw [← utf8Len_eq_length hone, ← len_eq_utf8Len, hlen]
    have hlt := digitsValue_lt hdigits
    rw [Nat.succ.inj hfour] at hlt
    exact ⟨hfour, .signed hc (by omega)⟩
  unfold parseI32 at h
  split at h
  · next hminus =>
    obtain ⟨ds, rfl⟩ := List.head?_eq_some_iff.mp hminus
    obtain ⟨m, hm, rfl⟩ := Option.map_eq_some_iff.mp h
    obtain ⟨j, hj, hcast⟩ := Option.bind_eq_some_iff.mp hm
    cases hcast
    obtain ⟨-, hdigits, rfl⟩ := parseDigits_eq_some (Option.filter_eq_some_iff.mp hj).1
    exact hsigned '-' ds (Or.inr rfl) rfl hdigits (by simp)
  · obtain ⟨m, hm, rfl⟩ := Option.map_eq_some_iff.mp h
    obtain ⟨hm, -⟩ := Option.filter_eq_some_iff.mp hm
    split at hm
    · next hplus =>
      obtain ⟨ds, rfl⟩ := List.head?_eq_some_iff.mp hplus
      obtain ⟨-, hdigits, rfl⟩ := parseDigits_eq_some hm
      exact hsigned '+' ds (Or.inl rfl) rfl hdigits (by simp)
    · obtain ⟨-, hdigits, rfl⟩ := parseDigits_eq_some hm
      refine ⟨?_, .digits hdigits⟩
      rw [← utf8Len_eq_length fun c hc => utf8Size_of_isDigit (hdigits c hc), ← len_eq_utf8Len,
        hlen]

/-- The text of a bound that is compared. -/
def Bound.iso (b : Bound) : List Char :=
  b.year ++ '-' :: (zfill2 b.month ++ '-' :: zfill2 b.day)

/-- A bound that is plausible is converted from the parts that are read. -/
theorem exists_bound (h : isPlausibleDdmmyyyy (trim raw.toList) = true) :
    ∃ b, readBound raw = some b ∧ IsBound b ∧
      asBound (isoBound (trim raw.toList)) = some (String.ofList b.iso) := by
  unfold isPlausibleDdmmyyyy at h
  split at h
  · next d m y hsplit =>
    simp only [Bool.and_eq_true, beq_iff_eq, Option.any_eq_true, decide_eq_true_eq] at h
    obtain ⟨⟨⟨hlen, dd, hdd, hday⟩, mm, hmm, hmonth⟩, hyear⟩ := h
    obtain ⟨yyyy, hyyyy⟩ := Option.isSome_iff_exists.mp hyear
    obtain ⟨hfour, hyear⟩ := isYear_of_parseI32 hyyyy hlen
    refine ⟨{ day := d, month := m, year := y, date := { yyyy, mm, dd } }, ?_,
      ⟨hfour, hyear, isPart_of_parseU32 hmm, isPart_of_parseU32 hdd, hmonth, hday⟩, ?_⟩
    · simp [readBound, hsplit, hdd, hmm, hyyyy]
    · have hne : (trim raw.toList).isEmpty = false := by
        rw [List.isEmpty_eq_false_iff]
        intro hnil
        rw [hnil] at hsplit
        cases hsplit
      have hparts : dateParts (String.ofList (trim raw.toList)) = some (zfill2 d, zfill2 m, y) := by
        rw [dateParts, String.toList_ofList, hsplit]
        exact if_pos hlen
      have hiso : isoBound (trim raw.toList) =
          String.ofList (y ++ '-' :: zfill2 m ++ '-' :: zfill2 d) := by
        rw [isoBound, hne, if_neg Bool.false_ne_true, toIsoDate, hparts]
      have hfull : (String.ofList (y ++ '-' :: zfill2 m ++ '-' :: zfill2 d)).isEmpty = false := by
        rw [← Bool.not_eq_true, String.isEmpty_iff]
        intro hempty
        have hchars := congrArg String.toList hempty
        simp at hchars
      rw [asBound, hiso, hfull, if_neg Bool.false_ne_true, Bound.iso]
      simp
  · cases h

/-- What is accepted: each side is left empty or plausible, and the texts are in order. -/
theorem validate_ok (h : validateAndConvertDateRange fromRaw toRaw = .ok (fromIso, toIso)) :
    (fromIso = isoBound (trim fromRaw.toList) ∧ toIso = isoBound (trim toRaw.toList)) ∧
      (trim fromRaw.toList = [] ∨ isPlausibleDdmmyyyy (trim fromRaw.toList) = true) ∧
      (trim toRaw.toList = [] ∨ isPlausibleDdmmyyyy (trim toRaw.toList) = true) ∧
      ∀ b ∈ asBound fromIso, ∀ b' ∈ asBound toIso, ¬b' < b := by
  unfold validateAndConvertDateRange at h
  dsimp only at h
  split at h
  · cases h
  · next hfrom =>
    split at h
    · cases h
    · next hto =>
      split at h
      · cases h
      · next horder =>
        obtain ⟨rfl, rfl⟩ := Prod.mk.inj (Except.ok.inj h)
        refine ⟨⟨rfl, rfl⟩, ?_, ?_, ?_⟩
        · simpa [Classical.or_iff_not_imp_left] using hfrom
        · simpa [Classical.or_iff_not_imp_left] using hto
        · intro b hb b' hb'
          unfold asBound at hb hb'
          split at hb
          · cases hb
          · split at hb'
            · cases hb'
            · cases hb
              cases hb'
              simp_all

end

/-! ## The order of texts -/

/-- The numbers of a day, whether its month has it or not. -/
structure IsPlausible (d : DateYmd) : Prop where
  year : 0 ≤ d.yyyy ∧ d.yyyy ≤ 9999
  month : 1 ≤ d.mm ∧ d.mm ≤ 12
  day : 1 ≤ d.dd ∧ d.dd ≤ 31

/-- The text of padded numbers that is compared. -/
def isoText (d : DateYmd) : List Char :=
  padded 4 d.yyyy.toNat ++ '-' :: (padded 2 d.mm ++ '-' :: padded 2 d.dd)

section

variable {p s t : List Char} {v w : ℕ} {b : Bound} {d d' : DateYmd}

theorem DateYmd_lt_iff : d.lt d' = true ↔
    d.yyyy < d'.yyyy ∨ d.yyyy = d'.yyyy ∧ (d.mm < d'.mm ∨ d.mm = d'.mm ∧ d.dd < d'.dd) := by
  simp only [DateYmd.lt, Bool.or_eq_true, Bool.and_eq_true, decide_eq_true_eq, beq_iff_eq]

/-- A short part is padded. -/
theorem IsPart.zfill2_of_isShort (hp : IsPart p v) (h : IsShort p) :
    (zfill2 p).length = 2 ∧ IsDigits (zfill2 p) ∧ F64.digitsValue (zfill2 p) = v := by
  obtain ⟨hlen, hdigits⟩ := h
  cases hp with
  | plus => exact absurd (hdigits '+' List.mem_cons_self) (by decide)
  | digits hne _ =>
    refine ⟨?_, ?_, ?_⟩
    · rw [zfill2, List.length_append, List.length_replicate]
      omega
    · intro c hc
      rcases List.mem_append.mp hc with hc | hc
      · rw [List.eq_of_mem_replicate hc]
        decide
      · exact hdigits c hc
    · have hzero : F64.digitsValue (List.replicate (2 - p.length) '0') =
          10 ^ (2 - p.length) * 0 := Nat.ofDigitChars_replicate_zero
      rw [zfill2, F64.digitsValue_append, hzero]
      omega

/-- A part that is not short comes before every padded number whose first digit, or whose second
behind a zero, is higher. -/
theorem IsPart.zfill2_lt (hp : IsPart p v) (h : ¬IsShort p) (hv : v ≤ 31) (hw : 1 ≤ w ∧ w ≤ 99)
    (hvw : v < 10 ∨ v / 10 < w) : zfill2 p ++ s < padded 2 w ++ t := by
  have hlen := length_padded (k := 2) (n := w) (by norm_num) (by omega)
  obtain ⟨tens, ones, hw2⟩ := List.length_eq_two.mp hlen
  have htens := toNat_of_isDigit (isDigits_padded 2 w tens (hw2 ▸ by simp))
  have hones := toNat_of_isDigit (isDigits_padded 2 w ones (hw2 ▸ by simp))
  have hvalue : 10 * digitValue tens + digitValue ones = w := by
    rw [← digitsValue_padded 2 w, hw2, digitsValue_cons, digitsValue_cons]
    simp [F64.digitsValue]
  rw [hw2]
  cases hp with
  | plus hne =>
    rename_i ds
    have hself : zfill2 ('+' :: ds) = '+' :: ds := by
      have := List.length_pos_iff.mpr hne
      rw [zfill2, List.length_cons, Nat.sub_eq_zero_of_le (by omega)]
      rfl
    rw [hself]
    refine List.cons_lt_cons_iff.mpr (Or.inl (char_lt_iff.mpr ?_))
    have hplus : '+'.toNat = 43 := rfl
    omega
  | digits hne hdigits =>
    have hlong : 2 < p.length := by
      by_contra hshort
      exact h ⟨by omega, hdigits⟩
    obtain ⟨first, second, third, rest, rfl⟩ : ∃ a b c l, p = a :: b :: c :: l := by
      rcases p with _ | ⟨a, _ | ⟨b, _ | ⟨c, l⟩⟩⟩
      · cases hlong
      · exact absurd hlong (by simp)
      · exact absurd hlong (by simp)
      · exact ⟨a, b, c, l, rfl⟩
    have hself : zfill2 (first :: second :: third :: rest) =
        first :: second :: third :: rest := by
      rw [zfill2, Nat.sub_eq_zero_of_le (by simp)]
      rfl
    have hfirst := (toNat_of_isDigit (hdigits first (by simp))).1
    have hsecond := (toNat_of_isDigit (hdigits second (by simp))).1
    rw [digitsValue_cons, digitsValue_cons, List.length_cons, List.length_cons] at hv hvw
    have hpow : 0 < 10 ^ rest.length := by positivity
    rw [pow_succ, pow_succ] at hv hvw
    have hzero : digitValue first = 0 := by
      by_contra hpos
      have hle := Nat.mul_le_mul_left (10 ^ rest.length * 10 * 10)
        (Nat.one_le_iff_ne_zero.mpr hpos)
      omega
    have hbound : 10 * digitValue second ≤ 10 ^ rest.length * 10 * digitValue second := by
      have hle := Nat.mul_le_mul_right (10 * digitValue second) hpow
      rw [Nat.mul_assoc]
      omega
    rw [hself]
    refine List.cons_lt_cons_iff.mpr ?_
    by_cases hpos : digitValue tens = 0
    · refine Or.inr ⟨char_eq_of_toNat (by omega), List.cons_lt_cons_iff.mpr
        (Or.inl (char_lt_iff.mpr ?_))⟩
      omega
    · exact Or.inl (char_lt_iff.mpr (by omega))

/-- A signed year comes before all years of four digits. -/
theorem signed_lt {y : List Char} {k : ℤ} (hy : IsYear y k) (h : ¬IsDigits y) {n : ℕ}
    (hn : n ≤ 9999) : y ++ s < padded 4 n ++ t := by
  have hlen := length_padded (k := 4) (n := n) (by norm_num) (by omega)
  obtain ⟨first, rest, hfirst⟩ := List.exists_cons_of_length_pos (by omega : 0 < (padded 4 n).length)
  have hdigit := (toNat_of_isDigit (isDigits_padded 4 n first (hfirst ▸ List.mem_cons_self))).1
  rw [hfirst]
  cases hy with
  | digits hdigits => exact absurd hdigits h
  | signed hc hle =>
    refine List.cons_lt_cons_iff.mpr (Or.inl (char_lt_iff.mpr ?_))
    have hplus : '+'.toNat = 43 := rfl
    have hminus : '-'.toNat = 45 := rfl
    rcases hc with rfl | rfl <;> omega

theorem minus_lt_iff : '-' :: s < '-' :: t ↔ s < t := by
  have hirrefl : ¬ '-' < '-' := fun h => absurd (char_lt_iff.mp h) (lt_irrefl _)
  rw [List.cons_lt_cons_iff]
  exact ⟨fun h => h.elim (absurd · hirrefl) And.right, fun h => Or.inr ⟨rfl, h⟩⟩

/-- The part of a text behind its year. -/
def monthText (d : DateYmd) : List Char := padded 2 d.mm ++ '-' :: padded 2 d.dd

/-- The parts of a year that is not signed. -/
theorem IsBound.year_of_digits (hb : IsBound b) (h : IsDigits b.year) :
    (F64.digitsValue b.year : ℤ) = b.date.yyyy := by
  have hyear := hb.year
  generalize b.year = y, b.date.yyyy = k at h hyear
  cases hyear with
  | digits => rfl
  | signed hc _ => rcases hc with rfl | rfl <;> exact absurd (h _ List.mem_cons_self) (by decide)

/-- Years of four digits are compared first. -/
theorem isoText_lt_iff (hb : IsBound b) (hyear : IsDigits b.year) (hd : IsPlausible d) :
    isoText d < b.iso ↔ d.yyyy < b.date.yyyy ∨
      d.yyyy = b.date.yyyy ∧ monthText d < zfill2 b.month ++ '-' :: zfill2 b.day := by
  obtain ⟨hlower, hupper⟩ := hd.year
  have hlen := length_padded (k := 4) (n := d.yyyy.toNat) (by norm_num) (by omega)
  rw [isoText, Bound.iso, digits_append_lt_iff (isDigits_padded _ _) hyear
    (hlen.trans hb.length.symm), digitsValue_padded, minus_lt_iff, ← hb.year_of_digits hyear,
    monthText]
  exact or_congr (by omega) (and_congr_left fun _ => by omega)

theorem lt_isoText_iff (hb : IsBound b) (hyear : IsDigits b.year) (hd : IsPlausible d) :
    b.iso < isoText d ↔ b.date.yyyy < d.yyyy ∨
      b.date.yyyy = d.yyyy ∧ zfill2 b.month ++ '-' :: zfill2 b.day < monthText d := by
  obtain ⟨hlower, hupper⟩ := hd.year
  have hlen := length_padded (k := 4) (n := d.yyyy.toNat) (by norm_num) (by omega)
  rw [isoText, Bound.iso, digits_append_lt_iff hyear (isDigits_padded _ _)
    (hb.length.trans hlen.symm), digitsValue_padded, minus_lt_iff, ← hb.year_of_digits hyear,
    monthText]
  exact or_congr (by omega) (and_congr_left fun _ => by omega)

/-- Short months are compared next. -/
theorem monthText_lt_iff (hb : IsBound b) (hmonth : IsShort b.month) (hd : IsPlausible d) :
    monthText d < zfill2 b.month ++ '-' :: zfill2 b.day ↔
      d.mm < b.date.mm ∨ d.mm = b.date.mm ∧ padded 2 d.dd < zfill2 b.day := by
  obtain ⟨hlen, hdigits, hvalue⟩ := hb.month.zfill2_of_isShort hmonth
  have hpadded := length_padded (k := 2) (n := d.mm) (by norm_num) (by have := hd.month; omega)
  rw [monthText, digits_append_lt_iff (isDigits_padded _ _) hdigits (hpadded.trans hlen.symm),
    digitsValue_padded, hvalue, minus_lt_iff]

theorem lt_monthText_iff (hb : IsBound b) (hmonth : IsShort b.month) (hd : IsPlausible d) :
    zfill2 b.month ++ '-' :: zfill2 b.day < monthText d ↔
      b.date.mm < d.mm ∨ b.date.mm = d.mm ∧ zfill2 b.day < padded 2 d.dd := by
  obtain ⟨hlen, hdigits, hvalue⟩ := hb.month.zfill2_of_isShort hmonth
  have hpadded := length_padded (k := 2) (n := d.mm) (by norm_num) (by have := hd.month; omega)
  rw [monthText, digits_append_lt_iff hdigits (isDigits_padded _ _) (hlen.trans hpadded.symm),
    digitsValue_padded, hvalue, minus_lt_iff]

/-- Short days are compared last. -/
theorem padded_lt_iff (hb : IsBound b) (hday : IsShort b.day) (hd : IsPlausible d) :
    (padded 2 d.dd < zfill2 b.day ↔ d.dd < b.date.dd) ∧
      (zfill2 b.day < padded 2 d.dd ↔ b.date.dd < d.dd) := by
  obtain ⟨hlen, hdigits, hvalue⟩ := hb.day.zfill2_of_isShort hday
  have hpadded := length_padded (k := 2) (n := d.dd) (by norm_num) (by have := hd.day; omega)
  rw [digits_lt_iff (isDigits_padded _ _) hdigits (hpadded.trans hlen.symm),
    digits_lt_iff hdigits (isDigits_padded _ _) (hlen.trans hpadded.symm), digitsValue_padded,
    hvalue]
  exact ⟨Iff.rfl, Iff.rfl⟩

/-- A month that is not short comes before the months from its own on. -/
theorem month_lt (hb : IsBound b) (h : ¬IsShort b.month) (hd : IsPlausible d)
    (hm : b.date.mm < 10 ∨ 1 < d.mm) :
    zfill2 b.month ++ '-' :: zfill2 b.day < monthText d := by
  have hmonth := hb.monthRange
  have hd' := hd.month
  exact hb.month.zfill2_lt h (by omega) (by omega) (by omega)

/-- So does a day that is not short. -/
theorem day_lt (hb : IsBound b) (h : ¬IsShort b.day) (hd : IsPlausible d)
    (hdd : b.date.dd < 10 ∨ b.date.dd / 10 < d.dd) : zfill2 b.day < padded 2 d.dd := by
  have hday := hb.dayRange
  have hd' := hd.day
  have hlt := hb.day.zfill2_lt (s := []) (t := []) h (by omega) (by omega) hdd
  rwa [List.append_nil, List.append_nil] at hlt

end

/-! ## Bounds that fit -/

section

variable {b : Bound} {d : DateYmd}

/-- A lower bound that fits is compared as its day is. -/
theorem LowerFits.isoText_lt_iff (h : LowerFits b) (hb : IsBound b) (hd : IsPlausible d) :
    isoText d < b.iso ↔ d.lt b.date = true := by
  have hrange := And.intro hd.month hd.day
  rw [DateYmd_lt_iff]
  rcases h with ⟨hyear, hmonth, hday⟩ | ⟨hyear, hmm, hdd⟩ | ⟨hyear, hfirst⟩
  · rw [Export.isoText_lt_iff hb hyear hd, monthText_lt_iff hb hmonth hd]
    by_cases hshort : IsShort b.day
    · rw [(padded_lt_iff hb hshort hd).1]
    · have hdd := hday.resolve_left hshort
      have hlt := List.lt_asymm (day_lt hb hshort hd (by omega))
      simp only [hlt, hdd, and_false, or_false]
      omega
  · rw [Export.isoText_lt_iff hb hyear hd]
    by_cases hshort : IsShort b.month
    · rw [monthText_lt_iff hb hshort hd]
      by_cases hshortDay : IsShort b.day
      · rw [(padded_lt_iff hb hshortDay hd).1]
      · have hlt := List.lt_asymm (day_lt hb hshortDay hd (by omega))
        simp only [hlt, hdd, and_false, or_false]
        omega
    · have hlt := List.lt_asymm (month_lt hb hshort hd (by omega))
      simp only [hlt, hmm, hdd, and_false, or_false]
      omega
  · have hyears := hd.year
    have hlt : b.iso < isoText d := signed_lt hb.year hyear (by omega)
    have hnot : ¬(DateYmd.lt ⟨0, 1, 1⟩ b.date = true) := by rw [hfirst]; exact Bool.false_ne_true
    rw [DateYmd_lt_iff] at hnot
    simp only at hnot
    exact iff_of_false (List.lt_asymm hlt) (by omega)

/-- An upper bound that fits is compared as its day is. -/
theorem UpperFits.lt_isoText_iff (h : UpperFits b) (hb : IsBound b) (hd : IsPlausible d) :
    b.iso < isoText d ↔ b.date.lt d = true := by
  rw [DateYmd_lt_iff]
  rcases h with ⟨hyear, hmonth, hday⟩ | hneg
  · rw [Export.lt_isoText_iff hb hyear hd, lt_monthText_iff hb hmonth hd,
      (padded_lt_iff hb hday hd).2]
  · have hyears := hd.year
    have hsigned : ¬IsDigits b.year := by
      intro hdigits
      have := hb.year_of_digits hdigits
      omega
    exact iff_of_true (signed_lt hb.year hsigned (by omega)) (Or.inl (by omega))

end

/-! ## Bounds that do not fit -/

section

variable {b : Bound} {date : NaiveDate}

theorem isPlausible_ymd (date : NaiveDate) (h : date.year ≤ 9999) : IsPlausible (ymd date) := by
  have hmonth := date.month_le
  have hdays := NaiveDate.daysInMonth_le date.year date.month
  obtain ⟨hlower, hupper⟩ := date.valid
  refine ⟨⟨Int.natCast_nonneg _, by simpa [ymd] using h⟩, ⟨?_, hmonth⟩, hlower, hupper.trans hdays⟩
  by_contra hzero
  have hzero : date.month = 0 := by simpa [ymd] using hzero
  rw [hzero, daysInMonth] at hupper
  · omega
  all_goals omega

/-- Every month has the first 28 days. -/
theorem le_daysInMonth (year : ℕ) {month : ℕ} (h : 1 ≤ month ∧ month ≤ 12) :
    28 ≤ daysInMonth year month := by
  obtain ⟨hlower, hupper⟩ := h
  interval_cases month <;> simp only [daysInMonth] <;> first | omega | (split <;> omega)

/-- The numbers of a day of the first 28. -/
theorem exists_date (year month day : ℕ) (hd : 1 ≤ day ∧ day ≤ daysInMonth year month) :
    ∃ date : NaiveDate, ymd date = ⟨year, month, day⟩ ∧ date.year = year :=
  ⟨⟨year, month, day, hd⟩, rfl, rfl⟩

/-- Some day before a lower bound that does not fit is let in. -/
theorem exists_let_in (hb : IsBound b) (h : ¬LowerFits b) : ∃ date : NaiveDate,
    date.year ≤ 9999 ∧ (ymd date).lt b.date = true ∧ ¬isoText (ymd date) < b.iso := by
  have hmonth := hb.monthRange
  have hday := hb.dayRange
  simp only [LowerFits, not_or, not_and] at h
  obtain ⟨hpadded, hfirst, hsigned⟩ := h
  by_cases hyear : IsDigits b.year
  · have hvalue := hb.year_of_digits hyear
    have hlt := digitsValue_lt hyear
    rw [hb.length] at hlt
    by_cases hshort : IsShort b.month
    · obtain ⟨hlong, hne⟩ := hpadded hyear hshort
      have hdays := le_daysInMonth (F64.digitsValue b.year) hmonth
      obtain ⟨date, hdate, hdateYear⟩ := exists_date (F64.digitsValue b.year) b.date.mm
        (if b.date.dd < 10 then 1 else b.date.dd / 10 + 1) (by split <;> omega)
      have hnumbers := isPlausible_ymd date (by omega)
      rw [hdate] at hnumbers
      refine ⟨date, by omega, ?_, ?_⟩
      · rw [hdate, DateYmd_lt_iff]
        exact Or.inr ⟨hvalue, Or.inr ⟨rfl, by dsimp only; split <;> omega⟩⟩
      · rw [hdate]
        refine List.lt_asymm ((lt_isoText_iff hb hyear hnumbers).mpr (Or.inr ⟨hvalue.symm, ?_⟩))
        refine (lt_monthText_iff hb hshort hnumbers).mpr (Or.inr ⟨rfl, ?_⟩)
        exact day_lt hb hlong hnumbers (by dsimp only; split <;> omega)
    · have hne : ¬(b.date.mm = 1 ∧ b.date.dd = 1) := fun h => hfirst hyear h.1 h.2
      have hm : 1 ≤ (if b.date.mm < 10 then 1 else 2) ∧ (if b.date.mm < 10 then 1 else 2) ≤ 12 := by
        split <;> omega
      have hdays := le_daysInMonth (F64.digitsValue b.year) hm
      obtain ⟨date, hdate, hdateYear⟩ := exists_date (F64.digitsValue b.year)
        (if b.date.mm < 10 then 1 else 2) 1 ⟨le_rfl, by omega⟩
      have hnumbers := isPlausible_ymd date (by omega)
      rw [hdate] at hnumbers
      refine ⟨date, by omega, ?_, ?_⟩
      · rw [hdate, DateYmd_lt_iff]
        exact Or.inr ⟨hvalue, by dsimp only; split <;> omega⟩
      · rw [hdate]
        refine List.lt_asymm ((lt_isoText_iff hb hyear hnumbers).mpr (Or.inr ⟨hvalue.symm, ?_⟩))
        exact month_lt hb hshort hnumbers (by dsimp only; split <;> omega)
  · obtain ⟨date, hdate, hdateYear⟩ := exists_date 0 1 1 (by decide)
    have hnumbers := isPlausible_ymd date (by omega)
    refine ⟨date, by omega, ?_, List.lt_asymm (signed_lt hb.year hyear ?_)⟩
    · rw [hdate]
      exact Bool.not_eq_false _ ▸ hsigned hyear
    · have := hnumbers.year
      omega

/-- The last day up to an upper bound that does not fit is left out. -/
theorem exists_left_out (hb : IsBound b) (h : ¬UpperFits b) : ∃ date : NaiveDate,
    date.year ≤ 9999 ∧ b.date.lt (ymd date) = false ∧ b.iso < isoText (ymd date) ∧
      ∀ date' : NaiveDate, b.date.lt (ymd date') = false →
        (ymd date).lt (ymd date') = false := by
  have hmonth := hb.monthRange
  have hday := hb.dayRange
  simp only [UpperFits, not_or, not_and, not_lt] at h
  obtain ⟨hlong, hnonneg⟩ := h
  obtain ⟨year, hyear⟩ := Int.eq_ofNat_of_zero_le hnonneg
  have hbound : year ≤ 9999 := by
    have hkind := hb.year
    have hlength := hb.length
    rw [hyear] at hkind
    generalize hk : (year : ℤ) = k at hkind
    generalize b.year = y at hkind hlength
    cases hkind with
    | signed _ hle => omega
    | digits hdigits =>
      have hlt := digitsValue_lt hdigits
      rw [hlength] at hlt
      omega
  have hdays := le_daysInMonth year hmonth
  obtain ⟨date, hdate, hdateYear⟩ := exists_date year b.date.mm
    (min b.date.dd (daysInMonth year b.date.mm)) (by omega)
  have hnumbers := isPlausible_ymd date (by omega)
  rw [hdate] at hnumbers
  refine ⟨date, by omega, ?_, ?_, ?_⟩
  · rw [hdate, ← Bool.not_eq_true, DateYmd_lt_iff, hyear]
    dsimp only
    omega
  · rw [hdate]
    by_cases hdigits : IsDigits b.year
    · refine (lt_isoText_iff hb hdigits hnumbers).mpr (Or.inr ⟨hyear, ?_⟩)
      by_cases hshort : IsShort b.month
      · refine (lt_monthText_iff hb hshort hnumbers).mpr (Or.inr ⟨rfl, ?_⟩)
        exact day_lt hb (hlong hdigits hshort) hnumbers (by dsimp only; omega)
      · exact month_lt hb hshort hnumbers (by dsimp only; omega)
    · exact signed_lt hb.year hdigits (by have := hnumbers.year; omega)
  · intro date' hle
    have hvalid := date'.valid.2
    rw [← Bool.not_eq_true, DateYmd_lt_iff, hyear] at hle
    rw [hdate, ← Bool.not_eq_true, DateYmd_lt_iff]
    rintro (hlt | ⟨hsame, hlt | ⟨hsameMonth, hlt⟩⟩)
    · exact hle (Or.inl hlt)
    · exact hle (Or.inr ⟨hsame, Or.inl hlt⟩)
    · have hyears : date'.year = year := (Int.ofNat.inj hsame).symm
      have hmonths : date'.month = b.date.mm := hsameMonth.symm
      rw [hyears, hmonths] at hvalid
      refine hle (Or.inr ⟨hsame, Or.inr ⟨hsameMonth, ?_⟩⟩)
      dsimp only [ymd] at hlt ⊢
      omega

end

/-! ## The range -/

section

variable {fromRaw toRaw fromIso toIso : String} {date : NaiveDate}

theorem toIsoDate_ddMmYyyy (h : date.year ≤ 9999) :
    toIsoDate (ddMmYyyy date) = String.ofList (isoText (ymd date)) := by
  have hnumbers := isPlausible_ymd date h
  have hmonth := hnumbers.month
  have hday := hnumbers.day
  dsimp only [ymd] at hmonth hday
  have hd := length_padded (k := 2) (n := date.day) (by norm_num) (by omega)
  have hm := length_padded (k := 2) (n := date.month) (by norm_num) (by omega)
  have hy := length_padded (k := 4) (n := date.year) (by norm_num) (by omega)
  have hslash : ∀ k n, '/' ∉ padded k n :=
    fun k n hmem => absurd (isDigits_padded k n '/' hmem) (by decide)
  have hsplit : (ddMmYyyy date).toList.splitOn '/' =
      [padded 2 date.day, padded 2 date.month, padded 4 date.year] := by
    rw [ddMmYyyy, String.toList_ofList, List.splitOn_append_cons_self_of_not_mem (hslash _ _),
      List.splitOn_append_cons_self_of_not_mem (hslash _ _), List.splitOn_eq_singleton (hslash _ _)]
  have hzfill : ∀ cs : List Char, cs.length = 2 → zfill2 cs = cs := by
    intro cs hlen
    rw [zfill2, hlen]
    rfl
  have hparts : dateParts (ddMmYyyy date) =
      some (padded 2 date.day, padded 2 date.month, padded 4 date.year) := by
    rw [dateParts, hsplit]
    dsimp only
    rw [hzfill _ hd, hzfill _ hm, len_eq_utf8Len, utf8Len_eq_length fun c hc =>
      utf8Size_of_isDigit (isDigits_padded _ _ c hc), hy, if_pos rfl]
  rw [toIsoDate, hparts, isoText, ymd]
  simp

/-- A day is in the range unless its text comes before the lower bound or behind the upper one. -/
theorem inRange_ddMmYyyy (h : date.year ≤ 9999) (dateFrom dateTo : Option String) :
    inRange (ddMmYyyy date) dateFrom dateTo = true ↔
      (∀ b ∈ dateFrom, ¬isoText (ymd date) < b.toList) ∧
        ∀ b ∈ dateTo, ¬b.toList < isoText (ymd date) := by
  have hne : (ddMmYyyy date).isEmpty = false := by
    rw [← Bool.not_eq_true, String.isEmpty_iff]
    intro hempty
    have hchars := congrArg String.toList hempty
    simp [ddMmYyyy] at hchars
  rw [inRange, hne, toIsoDate_ddMmYyyy h]
  cases dateFrom <;> cases dateTo <;>
    simp only [Option.any_none, Option.any_some, Bool.not_false, Bool.true_and, Bool.and_true,
      Bool.and_eq_true, Bool.not_eq_true', decide_eq_false_iff_not, String.lt_iff,
      String.toList_ofList, Option.mem_def, reduceCtorEq, false_implies, implies_true, and_true,
      true_and, Option.some.injEq, forall_eq']

/-- The bounds that are read are those whose texts are compared. -/
theorem asBound_isoBound {raw : String}
    (h : trim raw.toList = [] ∨ isPlausibleDdmmyyyy (trim raw.toList) = true) :
    asBound (isoBound (trim raw.toList)) =
        (readBound raw).map (fun b => String.ofList b.iso) ∧ ∀ b ∈ readBound raw, IsBound b := by
  rcases h with hempty | hnumbers
  · have hnone : readBound raw = none := by
      rw [readBound, hempty]
      rfl
    rw [hnone, hempty]
    exact ⟨rfl, fun b hb => nomatch hb⟩
  · obtain ⟨b, hread, hb, hiso⟩ := exists_bound hnumbers
    rw [hread, hiso]
    refine ⟨rfl, fun b' hb' => ?_⟩
    obtain rfl := Option.some.inj hb'
    exact hb

end

section

variable {lower upper : Option Bound} {b b' : Bound} {d d' d'' : DateYmd} {date : NaiveDate}

theorem DateYmd_lt_trans (h : d.lt d' = false) (h' : d'.lt d'' = false) : d.lt d'' = false := by
  rw [← Bool.not_eq_true, DateYmd_lt_iff] at h h' ⊢
  omega

theorem DateYmd_lt_of_lt (h : d.lt d' = true) (h' : d''.lt d' = false) : d''.lt d = false := by
  rw [DateYmd_lt_iff] at h
  rw [← Bool.not_eq_true, DateYmd_lt_iff] at h' ⊢
  omega

/-- A bound whose numbers are padded is written as its day is. -/
theorem IsBound.iso_eq (hb : IsBound b)
    (h : IsDigits b.year ∧ IsShort b.month ∧ IsShort b.day) :
    IsPlausible b.date ∧ b.iso = isoText b.date := by
  obtain ⟨hyear, hmonth, hday⟩ := h
  have hvalue := hb.year_of_digits hyear
  have hlt := digitsValue_lt hyear
  rw [hb.length] at hlt
  refine ⟨⟨by omega, hb.monthRange, hb.dayRange⟩, ?_⟩
  have hpart : ∀ {p : List Char} {v : ℕ}, IsPart p v → IsShort p → v ≤ 31 →
      zfill2 p = padded 2 v := by
    intro p v hp hshort hv
    obtain ⟨hlen, hdigits, hpv⟩ := hp.zfill2_of_isShort hshort
    exact digits_inj hdigits (isDigits_padded _ _)
      (hlen.trans (length_padded (by norm_num) (by omega)).symm)
      (hpv.trans (digitsValue_padded _ _).symm)
  have hmm := hb.monthRange
  have hdd := hb.dayRange
  have hpadded : b.year = padded 4 b.date.yyyy.toNat :=
    digits_inj hyear (isDigits_padded _ _)
      (hb.length.trans (length_padded (by norm_num) (by omega)).symm)
      (by rw [digitsValue_padded]; omega)
  rw [Bound.iso, isoText, hpart hb.month hmonth (by omega), hpart hb.day hday (by omega),
    ← hpadded]

/-- The texts of a day lie between the texts of the bounds. -/
def TextBetween (lower upper : Option Bound) (d : DateYmd) : Prop :=
  (∀ b ∈ lower, ¬isoText d < b.iso) ∧ ∀ b ∈ upper, ¬b.iso < isoText d

theorem textBetween_iff (hlower : ∀ b ∈ lower, IsBound b) (hupper : ∀ b ∈ upper, IsBound b)
    (hfits : ∀ b ∈ lower, LowerFits b) (hfits' : ∀ b ∈ upper, UpperFits b)
    (hd : IsPlausible d) : TextBetween lower upper d ↔ Between lower upper d := by
  refine and_congr (forall₂_congr fun b hb => ?_) (forall₂_congr fun b hb => ?_)
  · rw [(hfits b hb).isoText_lt_iff (hlower b hb) hd, Bool.not_eq_true]
  · rw [(hfits' b hb).lt_isoText_iff (hupper b hb) hd, Bool.not_eq_true]

/-- Bounds that fit and are accepted are in order. -/
theorem BoundsFit.inOrder (h : BoundsFit lower upper) (hlower : ∀ b ∈ lower, IsBound b)
    (hupper : ∀ b ∈ upper, IsBound b) (hiso : ∀ b ∈ lower, ∀ b' ∈ upper, ¬b'.iso < b.iso) :
    InOrder lower upper := by
  obtain ⟨hfits, hfits', hneg⟩ := h
  intro b hb b' hb'
  rcases hfits' b' hb' with hpadded | hlt
  · obtain ⟨hnumbers, heq⟩ := (hupper b' hb').iso_eq hpadded
    have horder := hiso b hb b' hb'
    rw [heq, (hfits b hb).isoText_lt_iff (hlower b hb) hnumbers] at horder
    exact Bool.eq_false_of_not_eq_true horder
  · exact hneg ⟨b', hb', hlt⟩ b hb b' hb'

/-- Where a day lies between bounds and days are selected rightly, the bounds fit: a bound that
does not lets in the days before it, or leaves out the last ones before it. -/
theorem boundsFit_of_between (hlower : ∀ b ∈ lower, IsBound b) (hupper : ∀ b ∈ upper, IsBound b)
    (horder : InOrder lower upper)
    (h : ∀ date : NaiveDate, date.year ≤ 9999 →
      (TextBetween lower upper (ymd date) ↔ Between lower upper (ymd date)))
    (hbetween : Between lower upper (ymd date)) : BoundsFit lower upper := by
  have hfits' : ∀ b' ∈ upper, UpperFits b' := by
    intro b' hb'
    by_contra hmisfit
    obtain ⟨last, hyear, hle, hlt, hlast⟩ := exists_left_out (hupper b' hb') hmisfit
    have hselected : Between lower upper (ymd last) := by
      refine ⟨fun b hb => ?_, fun c hc => ?_⟩
      · exact DateYmd_lt_trans (hlast date (hbetween.2 b' hb')) (hbetween.1 b hb)
      · rw [Option.mem_unique hc hb']
        exact hle
    exact ((h last hyear).mpr hselected).2 b' hb' hlt
  refine ⟨fun b hb => ?_, hfits', fun _ => horder⟩
  by_contra hmisfit
  obtain ⟨first, hyear, hbefore, hnot⟩ := exists_let_in (hlower b hb) hmisfit
  have hselected : TextBetween lower upper (ymd first) := by
    refine ⟨fun c hc => ?_, fun b' hb' => ?_⟩
    · rw [Option.mem_unique hc hb]
      exact hnot
    · rw [(hfits' b' hb').lt_isoText_iff (hupper b' hb') (isPlausible_ymd _ hyear),
        DateYmd_lt_of_lt hbefore (horder b hb b' hb')]
      exact Bool.false_ne_true
  have hafter := ((h first hyear).mp hselected).1 b hb
  rw [hbefore] at hafter
  cases hafter

end

/-- **A range that is accepted selects the days between its bounds just where the bounds are
written as their days are compared, or no day lies between them in any order.** -/
theorem selectsBetween_iff {fromRaw toRaw fromIso toIso : String}
    (h : validateAndConvertDateRange fromRaw toRaw = .ok (fromIso, toIso)) :
    SelectsBetween (readBound fromRaw) (readBound toRaw) fromIso toIso ↔
      BoundsFit (readBound fromRaw) (readBound toRaw) ∨
        NoDayBetween (readBound fromRaw) (readBound toRaw) fromIso toIso := by
  obtain ⟨⟨rfl, rfl⟩, hfrom, hto, hiso⟩ := validate_ok h
  obtain ⟨hlowerText, hlower⟩ := asBound_isoBound hfrom
  obtain ⟨hupperText, hupper⟩ := asBound_isoBound hto
  unfold SelectsBetween NoDayBetween
  rw [hlowerText, hupperText] at hiso ⊢
  generalize readBound fromRaw = lower at hlower hiso ⊢
  generalize readBound toRaw = upper at hupper hiso ⊢
  have hiso : ∀ b ∈ lower, ∀ b' ∈ upper, ¬b'.iso < b.iso := by
    intro b hb b' hb' hlt
    refine hiso _ (Option.mem_map_of_mem _ hb) _ (Option.mem_map_of_mem _ hb') ?_
    rwa [String.lt_iff, String.toList_ofList, String.toList_ofList]
  have hrange : ∀ date : NaiveDate, date.year ≤ 9999 →
      (inRange (ddMmYyyy date) (lower.map fun b => String.ofList b.iso)
        (upper.map fun b => String.ofList b.iso) = true ↔
          TextBetween lower upper (ymd date)) := by
    intro date hyear
    rw [inRange_ddMmYyyy hyear]
    simp [TextBetween, String.toList_ofList]
  have houtside : ∀ date : NaiveDate, date.year ≤ 9999 →
      (¬TextBetween lower upper (ymd date) ↔
        (∃ b, lower.map (fun b => String.ofList b.iso) = some b ∧
            toIsoDate (ddMmYyyy date) < b) ∨
          ∃ b, upper.map (fun b => String.ofList b.iso) = some b ∧
            b < toIsoDate (ddMmYyyy date)) := by
    intro date hyear
    rw [toIsoDate_ddMmYyyy hyear, TextBetween, not_and_or]
    cases lower <;> cases upper <;>
      simp only [Option.map_none, Option.map_some, Option.mem_def, reduceCtorEq, false_implies,
        implies_true, false_and, exists_const, Option.some.injEq, forall_eq', exists_eq_left',
        not_true_eq_false, not_not, or_false, false_or, or_self, String.lt_iff,
        String.toList_ofList]
  constructor
  · rintro ⟨horder, hselects⟩
    have htext : ∀ date : NaiveDate, date.year ≤ 9999 →
        (TextBetween lower upper (ymd date) ↔ Between lower upper (ymd date)) :=
      fun date hyear => (hrange date hyear).symm.trans (hselects date hyear)
    by_cases hfit : BoundsFit lower upper
    · exact Or.inl hfit
    · refine Or.inr ⟨horder, fun date hyear => ?_⟩
      have hnot : ¬Between lower upper (ymd date) :=
        fun hbetween => hfit (boundsFit_of_between hlower hupper horder htext hbetween)
      exact ⟨hnot, (houtside date hyear).mp fun hin => hnot ((htext date hyear).mp hin)⟩
  · rintro (hfit | ⟨horder, hnone⟩)
    · refine ⟨hfit.inOrder hlower hupper hiso, fun date hyear => (hrange date hyear).trans ?_⟩
      exact textBetween_iff hlower hupper hfit.1 hfit.2.1 (isPlausible_ymd _ hyear)
    · refine ⟨horder, fun date hyear => (hrange date hyear).trans ?_⟩
      obtain ⟨hnot, htext⟩ := hnone date hyear
      exact iff_of_false ((houtside date hyear).mpr htext) hnot

/-- A financial year, with and without zeros. -/
theorem selectsBetween_padded : validateAndConvertDateRange "1/4/2024" " 31/03/2025" =
      .ok ("2024-04-01", "2025-03-31") ∧
    (SelectsBetween (readBound "1/4/2024") (readBound " 31/03/2025") "2024-04-01" "2025-03-31" ↔
      BoundsFit (readBound "1/4/2024") (readBound " 31/03/2025") ∨
        NoDayBetween (readBound "1/4/2024") (readBound " 31/03/2025") "2024-04-01" "2025-03-31") :=
  have h : validateAndConvertDateRange "1/4/2024" " 31/03/2025" =
      .ok ("2024-04-01", "2025-03-31") := by decide +kernel
  ⟨h, selectsBetween_iff h⟩

/-- The day of an upper bound is given with a plus: the days of its month are left out. -/
theorem plus_day_is_left_out :
    validateAndConvertDateRange "" "+5/01/2024" = .ok ("", "2024-01-+5") ∧
      ¬SelectsBetween (readBound "") (readBound "+5/01/2024") "" "2024-01-+5" := by
  refine ⟨by decide +kernel, fun h => ?_⟩
  have hlower : readBound "" = none := by decide +kernel
  have hupper : readBound "+5/01/2024" =
      some ⟨['+', '5'], ['0', '1'], ['2', '0', '2', '4'], 2024, 1, 5⟩ := by decide +kernel
  rw [hlower, hupper] at h
  have hin := (h.2 ⟨2024, 1, 3, by decide⟩ (by decide)).mpr ⟨(fun b hb => nomatch hb), fun b hb => by
    obtain rfl := Option.some.inj hb
    decide +kernel⟩
  exact absurd hin (by decide +kernel)

end Desktop.Export
