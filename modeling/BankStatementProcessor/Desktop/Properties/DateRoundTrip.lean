import BankStatementProcessor.Desktop.Parser.DateText

/-!
# A date that has been read is read again as itself

The text that a date is shown as has two digits for the day, two for the month and four for the
year, and so have the texts with the year first. What the parser makes of each is worked out
once, for a text between whose parts any characters but digits stand.
-/

namespace Desktop.Parser

open Infra

/-! ## The texts of a day -/

/-- `YYYY-MM-DD` -/
def isoText (date : NaiveDate) : String :=
  s!"{date.year}-{twoDigits date.month}-{twoDigits date.day}"

/-- `YYYYMMDD` -/
def compactText (date : NaiveDate) : String :=
  s!"{date.year}{twoDigits date.month}{twoDigits date.day}"

/-- The digits of a number below 100. -/
def digitsOf (k : ℕ) : List Char := [Nat.digitChar (k / 10), Nat.digitChar (k % 10)]

theorem digitsOf_spec {k : ℕ} (h : k < 100) :
    (twoDigits k).toList = digitsOf k ∧ (∀ c ∈ digitsOf k, c.isDigit = true) ∧
      parseU32 (digitsOf k) = some k ∧ parseI32 ('2' :: '0' :: digitsOf k) = some (2000 + k : ℕ) ∧
      (toString (2000 + k)).toList = '2' :: '0' :: digitsOf k := by
  have hall : ∀ i ∈ List.range 100,
      (twoDigits i).toList = digitsOf i ∧ (digitsOf i).all Char.isDigit = true ∧
        parseU32 (digitsOf i) = some i ∧
        parseI32 ('2' :: '0' :: digitsOf i) = some (2000 + i : ℕ) ∧
        (toString (2000 + i)).toList = '2' :: '0' :: digitsOf i := by decide +kernel
  obtain ⟨htext, hdigits, hparse⟩ := hall k (List.mem_range.mpr h)
  exact ⟨htext, List.all_eq_true.mp hdigits, hparse⟩

section

variable {u : Unicode} {date : NaiveDate}

/-- A day of the years that are read. -/
def InCentury (date : NaiveDate) : Prop := 2000 ≤ date.year ∧ date.year ≤ 2099

/-- Digits. -/
def AllDigits (cs : List Char) : Prop := ∀ c ∈ cs, c.isDigit = true

theorem AllDigits.notMem {cs : List Char} (h : AllDigits cs) {c : Char}
    (hc : c.isDigit = false) : c ∉ cs := by
  intro hmem
  rw [h c hmem] at hc
  cases hc

/-- The parts of the texts of a day. -/
structure HasParts (date : NaiveDate) (dd mm yyyy : List Char) : Prop where
  lengths : dd.length = 2 ∧ mm.length = 2 ∧ yyyy.length = 4
  digits : AllDigits dd ∧ AllDigits mm ∧ AllDigits yyyy
  day : parseU32 dd = some date.day
  month : parseU32 mm = some date.month
  year : parseI32 yyyy = some date.year
  texts : (twoDigits date.day).toList = dd ∧ (twoDigits date.month).toList = mm ∧
    (toString date.year).toList = yyyy

theorem InCentury.exists_parts (h : InCentury date) : ∃ dd mm yyyy, HasParts date dd mm yyyy := by
  have hday : date.day < 100 := by
    have := date.valid.2.trans (NaiveDate.daysInMonth_le _ _)
    omega
  have hmonth : date.month < 100 := by
    have := date.month_le
    omega
  obtain ⟨k, hk, hyear⟩ : ∃ k, k < 100 ∧ date.year = 2000 + k := ⟨date.year - 2000, by
    obtain ⟨hlower, hupper⟩ := h
    omega⟩
  obtain ⟨hdayText, hdayDigits, hdayValue, -⟩ := digitsOf_spec hday
  obtain ⟨hmonthText, hmonthDigits, hmonthValue, -⟩ := digitsOf_spec hmonth
  obtain ⟨-, hyearDigits, -, hyearValue, hyearText⟩ := digitsOf_spec hk
  refine ⟨digitsOf date.day, digitsOf date.month, '2' :: '0' :: digitsOf k, ?_⟩
  refine ⟨⟨rfl, rfl, rfl⟩, ⟨hdayDigits, hmonthDigits, ?_⟩, hdayValue, hmonthValue, ?_,
    hdayText, hmonthText, ?_⟩
  · intro c hc
    rcases List.mem_cons.mp hc with rfl | hc
    · decide
    · rcases List.mem_cons.mp hc with rfl | hc
      · decide
      · exact hyearDigits c hc
  · rw [hyearValue, hyear]
  · rw [hyear, hyearText]

theorem dateOf_self (h : InCentury date) : dateOf date.year date.month date.day = some date := by
  have hyear : yearOk date.year = true := by
    obtain ⟨hlower, hupper⟩ := h
    simp [yearOk]
    omega
  rw [dateOf, hyear, if_pos rfl, Int.toNat_natCast, NaiveDate.fromYmdOpt, dif_pos date.valid]

/-! ## What the patterns make of them -/

theorem classRun_append {cs rest : List Char} {lower upper : ℕ} (h : AllDigits cs)
    (hlen : lower ≤ cs.length ∧ cs.length ≤ upper) {c : Char} (hc : c.isDigit = false) :
    classRun Char.isDigit lower upper (cs ++ c :: rest) = some (cs, c :: rest) := by
  rw [classRun, F64.span_digits h hc]
  exact if_pos hlen

theorem classRun_append_eq_none {cs rest : List Char} {lower upper : ℕ} (h : AllDigits cs)
    (hlen : upper < cs.length) {c : Char} (hc : c.isDigit = false) :
    classRun Char.isDigit lower upper (cs ++ c :: rest) = none := by
  rw [classRun, F64.span_digits h hc]
  exact if_neg (by omega)

section

variable {dd mm yyyy : List Char} {sep : Char}

theorem ddMmYyyy_parts (h : HasParts date dd mm yyyy) (hcentury : InCentury date)
    (hdigit : sep.isDigit = false) (hsep : ['/', '-', '.'].contains sep = true) :
    ddMmYyyy (dd ++ sep :: (mm ++ sep :: yyyy)) = some date := by
  obtain ⟨hdd, hmm, hyyyy⟩ := h.lengths
  obtain ⟨hddDigits, hmmDigits, hyyyyDigits⟩ := h.digits
  rw [ddMmYyyy, classRun_append hddDigits (by omega) hdigit]
  simp only [Option.bind_eq_bind, Option.bind_some, separator, hsep, if_true]
  rw [classRun_append hmmDigits (by omega) hdigit]
  simp only [Option.bind_some, hsep, if_true]
  rw [classRun_digits hyyyyDigits, if_pos (by omega)]
  simp only [Option.bind_some, ending, h.month, makeDate, h.day, h.year, Option.bind_eq_bind,
    Option.pure_def]
  rw [if_neg (by omega), dateOf_self hcentury]

theorem iso_parts (h : HasParts date dd mm yyyy) (hcentury : InCentury date)
    (hdigit : sep.isDigit = false) (hsep : ['/', '-'].contains sep = true) :
    iso (yyyy ++ sep :: (mm ++ sep :: dd)) = some date := by
  obtain ⟨hdd, hmm, hyyyy⟩ := h.lengths
  obtain ⟨hddDigits, hmmDigits, hyyyyDigits⟩ := h.digits
  rw [iso, classRun_append hyyyyDigits (by omega) hdigit]
  simp only [Option.bind_eq_bind, Option.bind_some, separator, hsep, if_true]
  rw [classRun_append hmmDigits (by omega) hdigit]
  simp only [Option.bind_some, hsep, if_true]
  rw [classRun_digits hddDigits, if_pos (by omega)]
  simp only [Option.bind_some, ending, h.month, h.day, h.year, Option.pure_def]
  exact dateOf_self hcentury

/-- A text that starts with four digits is none with the day first. -/
theorem dayFirst_eq_none (h : AllDigits yyyy) (hlen : yyyy.length = 4)
    (hdigit : sep.isDigit = false) (rest : List Char) :
    ddMmYyyy (yyyy ++ sep :: rest) = none ∧ ddMonYyyy (yyyy ++ sep :: rest) = none ∧
      ddMonYyyyNoSep (yyyy ++ sep :: rest) = none := by
  have hrun : classRun Char.isDigit 1 2 (yyyy ++ sep :: rest) = none :=
    classRun_append_eq_none h (by omega) hdigit
  refine ⟨?_, ?_, ?_⟩
  · rw [ddMmYyyy, hrun]
    rfl
  · rw [ddMonYyyy, hrun]
    rfl
  · rw [ddMonYyyyNoSep, hrun]
    rfl

theorem compact8_parts (h : HasParts date dd mm yyyy) (hcentury : InCentury date) :
    ddMmYyyy (yyyy ++ mm ++ dd) = none ∧ ddMonYyyy (yyyy ++ mm ++ dd) = none ∧
      ddMonYyyyNoSep (yyyy ++ mm ++ dd) = none ∧ iso (yyyy ++ mm ++ dd) = none ∧
      compact8 (yyyy ++ mm ++ dd) = some date := by
  obtain ⟨hdd, hmm, hyyyy⟩ := h.lengths
  obtain ⟨hddDigits, hmmDigits, hyyyyDigits⟩ := h.digits
  have hall : AllDigits (yyyy ++ mm ++ dd) := by
    intro c hc
    rcases List.mem_append.mp hc with hc | hc
    · rcases List.mem_append.mp hc with hc | hc
      · exact hyyyyDigits c hc
      · exact hmmDigits c hc
    · exact hddDigits c hc
  have hlen : (yyyy ++ mm ++ dd).length = 8 := by
    rw [List.length_append, List.length_append]
    omega
  have hshort : classRun Char.isDigit 1 2 (yyyy ++ mm ++ dd) = none := by
    rw [classRun_digits hall, if_neg (by omega)]
  refine ⟨?_, ?_, ?_, ?_, ?_⟩
  · rw [ddMmYyyy, hshort]
    rfl
  · rw [ddMonYyyy, hshort]
    rfl
  · rw [ddMonYyyyNoSep, hshort]
    rfl
  · rw [iso, classRun_digits hall, if_neg (by omega)]
    rfl
  · have hyear : (yyyy ++ mm ++ dd).take 4 = yyyy := by
      rw [List.append_assoc, List.take_left' hyyyy]
    have hmonth : ((yyyy ++ mm ++ dd).drop 4).take 2 = mm := by
      rw [List.append_assoc, List.drop_left' hyyyy, List.take_left' hmm]
    have hday : (yyyy ++ mm ++ dd).drop 6 = dd := by
      rw [List.drop_left' (by rw [List.length_append]; omega)]
    rw [compact8, classRun_digits hall, if_pos (by omega)]
    simp only [Option.bind_eq_bind, Option.bind_some, ending, hyear, hmonth, hday, h.year,
      h.month, h.day, Option.pure_def]
    exact dateOf_self hcentury

end

/-! ## The texts as lists of characters -/

section

variable {dd mm yyyy : List Char}

theorem toList_fmtDisplay (h : HasParts date dd mm yyyy) :
    (fmtDisplay date).toList = dd ++ '/' :: (mm ++ '/' :: yyyy) := by
  obtain ⟨hdd, hmm, hyyyy⟩ := h.texts
  rw [← hdd, ← hmm, ← hyyyy]
  simp [fmtDisplay, ToString.toString]

theorem toList_isoText (h : HasParts date dd mm yyyy) :
    (isoText date).toList = yyyy ++ '-' :: (mm ++ '-' :: dd) := by
  obtain ⟨hdd, hmm, hyyyy⟩ := h.texts
  rw [← hdd, ← hmm, ← hyyyy]
  simp [isoText, ToString.toString]

theorem toList_compactText (h : HasParts date dd mm yyyy) :
    (compactText date).toList = yyyy ++ mm ++ dd := by
  obtain ⟨hdd, hmm, hyyyy⟩ := h.texts
  rw [← hdd, ← hmm, ← hyyyy]
  simp [compactText, ToString.toString]

/-- A character of such a text. -/
theorem not_isWhitespace_of_parts (h : HasParts date dd mm yyyy) {c : Char}
    (hc : (c ∈ dd ∨ c ∈ mm ∨ c ∈ yyyy) ∨ c = '/' ∨ c = '-') : isWhitespace c = false := by
  obtain ⟨hdd, hmm, hyyyy⟩ := h.digits
  rcases hc with (hc | hc | hc) | rfl | rfl
  · exact not_isSpace_of_isDigit (hdd c hc)
  · exact not_isSpace_of_isDigit (hmm c hc)
  · exact not_isSpace_of_isDigit (hyyyy c hc)
  · decide
  · decide

theorem parseDate_fmtDisplay (h : HasParts date dd mm yyyy) (hcentury : InCentury date) :
    trim (fmtDisplay date).toList = (fmtDisplay date).toList ∧
      parseDate (fmtDisplay date).toList = some date := by
  have hspace : ∀ c ∈ (fmtDisplay date).toList, isWhitespace c = false := by
    intro c hc
    rw [toList_fmtDisplay h] at hc
    refine not_isWhitespace_of_parts h ?_
    simp only [List.mem_append, List.mem_cons] at hc
    tauto
  refine ⟨trim_eq_self hspace, ?_⟩
  rw [parseDate, joinWords_eq_self hspace, toList_fmtDisplay h,
    ddMmYyyy_parts h hcentury (by decide) (by decide)]
  rfl

theorem parseDate_isoText (h : HasParts date dd mm yyyy) (hcentury : InCentury date) :
    trim (isoText date).toList = (isoText date).toList ∧
      parseDate (isoText date).toList = some date := by
  have hspace : ∀ c ∈ (isoText date).toList, isWhitespace c = false := by
    intro c hc
    rw [toList_isoText h] at hc
    refine not_isWhitespace_of_parts h ?_
    simp only [List.mem_append, List.mem_cons] at hc
    tauto
  obtain ⟨hdmy, hmon, hnoSep⟩ := dayFirst_eq_none h.digits.2.2 h.lengths.2.2
    (show '-'.isDigit = false by decide) (mm ++ '-' :: dd)
  refine ⟨trim_eq_self hspace, ?_⟩
  rw [parseDate, joinWords_eq_self hspace, toList_isoText h, hdmy, hmon, hnoSep,
    iso_parts h hcentury (by decide) (by decide)]
  rfl

theorem parseDate_compactText (h : HasParts date dd mm yyyy) (hcentury : InCentury date) :
    trim (compactText date).toList = (compactText date).toList ∧
      parseDate (compactText date).toList = some date := by
  have hspace : ∀ c ∈ (compactText date).toList, isWhitespace c = false := by
    intro c hc
    rw [toList_compactText h] at hc
    refine not_isWhitespace_of_parts h ?_
    simp only [List.mem_append] at hc
    tauto
  obtain ⟨hdmy, hmon, hnoSep, hiso, hcompact⟩ := compact8_parts h hcentury
  refine ⟨trim_eq_self hspace, ?_⟩
  rw [parseDate, joinWords_eq_self hspace, toList_compactText h, hdmy, hmon, hnoSep, hiso,
    hcompact]
  rfl

/-- Whatever is read as a day is normalised to it. -/
theorem normalize_of_parseDate {text : String} (htrim : trim text.toList = text.toList)
    (hparse : parseDate text.toList = some date) :
    normalizeTransactionDate u text.toList = .ok date := by
  rw [normalizeTransactionDate, htrim, findDate, hparse]
  rfl

/-! ## The other texts -/

theorem splitOnP_three {p : Char → Bool} {xs ys zs : List Char} {c : Char} (hc : p c = true)
    (hxs : ∀ x ∈ xs, p x = false) (hys : ∀ x ∈ ys, p x = false) (hzs : ∀ x ∈ zs, p x = false) :
    (xs ++ c :: (ys ++ c :: zs)).splitOnP p = [xs, ys, zs] := by
  rw [List.splitOnP_append_cons_of_forall_mem hxs c hc,
    List.splitOnP_append_cons_of_forall_mem hys c hc, List.splitOnP_eq_singleton hzs]

theorem padTwo_of_length {cs : List Char} (h : cs.length = 2) : padTwo cs = cs := by
  rw [padTwo, h]
  rfl

theorem AllDigits.ne {cs : List Char} (h : AllDigits cs) {c : Char} (hc : c ∈ cs) :
    (c == '/') = false ∧ (c == '/' || c == '-') = false := by
  have hdigit := h c hc
  have hslash : (c == '/') = false := by
    rw [beq_eq_false_iff_ne]
    rintro rfl
    cases hdigit
  have hminus : (c == '-') = false := by
    rw [beq_eq_false_iff_ne]
    rintro rfl
    cases hdigit
  exact ⟨hslash, by rw [hslash, hminus]; rfl⟩

theorem ymdTimestamp_self (h : InCentury date) :
    ymdTimestamp date.year date.month date.day = date.timestampMillis := by
  obtain ⟨hlower, hupper⟩ := h
  have hcycles : (if (date.year : ℤ) < 1 then (-(date.year : ℤ)) / 400 + 1 else 0) = 0 :=
    if_neg (by omega)
  rw [ymdTimestamp, if_neg (by omega)]
  simp only [hcycles, mul_zero, add_zero, Int.toNat_natCast, NaiveDate.fromYmdOpt,
    dif_pos date.valid, zero_mul, sub_zero]

theorem displayToTs_fmtDisplay (h : HasParts date dd mm yyyy) (hcentury : InCentury date) :
    displayToTs (fmtDisplay date) = date.timestampMillis := by
  obtain ⟨hdd, hmm, hyyyy⟩ := h.digits
  have hsplit : (fmtDisplay date).toList.splitOn '/' = [dd, mm, yyyy] := by
    rw [toList_fmtDisplay h]
    exact splitOnP_three (by decide) (fun c hc => (hdd.ne hc).1) (fun c hc => (hmm.ne hc).1)
      (fun c hc => (hyyyy.ne hc).1)
  have hthree : splitThree (fmtDisplay date).toList = [dd, mm, yyyy] := by
    simp [splitThree, hsplit]
  rw [displayToTs, hthree]
  simp only [h.day, h.month, h.year]
  exact ymdTimestamp_self hcentury

theorem len_of_digits {cs : List Char} (h : AllDigits cs) : len cs = cs.length := by
  have hfold : ∀ n : ℕ, cs.foldl (fun n c => n + c.utf8Size) n = n + cs.length := by
    induction cs with
    | nil => simp
    | cons c cs ih =>
      intro n
      have hc : c.utf8Size = 1 := by
        have hdigit := h c List.mem_cons_self
        simp only [Char.isDigit, ge_iff_le, Bool.and_eq_true, decide_eq_true_eq,
          UInt32.le_iff_toNat_le] at hdigit
        have hupper : c.toNat ≤ 57 := hdigit.2
        rw [Char.utf8Size_eq_one_iff, UInt32.le_iff_toNat_le]
        show c.toNat ≤ 127
        omega
      rw [List.foldl_cons, ih (fun x hx => h x (List.mem_cons_of_mem _ hx)), hc,
        List.length_cons]
      omega
  rw [len, hfold 0, zero_add]

theorem tallyDate_fmtDisplay (h : HasParts date dd mm yyyy) :
    tallyDate (fmtDisplay date) = compactText date := by
  obtain ⟨hdd, hmm, hyyyy⟩ := h.digits
  have hsplit : (fmtDisplay date).toList.splitOnP (fun c => c == '/' || c == '-') =
      [dd, mm, yyyy] := by
    rw [toList_fmtDisplay h]
    exact splitOnP_three (by decide) (fun c hc => (hdd.ne hc).2) (fun c hc => (hmm.ne hc).2)
      (fun c hc => (hyyyy.ne hc).2)
  have hempty : (fmtDisplay date).isEmpty = false := by
    rw [← Bool.not_eq_true, String.isEmpty_iff, ← String.toList_inj, toList_fmtDisplay h]
    simp
  have hyear : len yyyy = 4 := by rw [len_of_digits hyyyy, h.lengths.2.2]
  rw [tallyDate, hempty, hsplit]
  simp only [hyear, if_true, Bool.false_eq_true, if_false]
  rw [padTwo_of_length h.lengths.1, padTwo_of_length h.lengths.2.1, ← toList_compactText h,
    String.ofList_toList]

theorem tallyDate_isoText (h : HasParts date dd mm yyyy) :
    tallyDate (isoText date) = compactText date := by
  obtain ⟨hdd, hmm, hyyyy⟩ := h.digits
  have hsplit : (isoText date).toList.splitOnP (fun c => c == '/' || c == '-') =
      [yyyy, mm, dd] := by
    rw [toList_isoText h]
    exact splitOnP_three (by decide) (fun c hc => (hyyyy.ne hc).2) (fun c hc => (hmm.ne hc).2)
      (fun c hc => (hdd.ne hc).2)
  have hempty : (isoText date).isEmpty = false := by
    rw [← Bool.not_eq_true, String.isEmpty_iff, ← String.toList_inj, toList_isoText h]
    simp
  have hyear : len yyyy = 4 := by rw [len_of_digits hyyyy, h.lengths.2.2]
  have hday : len dd ≠ 4 := by
    rw [len_of_digits hdd, h.lengths.1]
    omega
  rw [tallyDate, hempty, hsplit]
  simp only [hyear, hday, if_true, Bool.false_eq_true, if_false]
  rw [padTwo_of_length h.lengths.1, padTwo_of_length h.lengths.2.1, ← toList_compactText h,
    String.ofList_toList]

theorem timestampMillis_pos (h : InCentury date) : 0 < date.timestampMillis := by
  have hnumber : 719163 < date.dayNumber := by
    obtain ⟨hlower, -⟩ := h
    rw [NaiveDate.dayNumber]
    omega
  rw [NaiveDate.timestampMillis]
  omega

end

end

/-- **What is read as valid names a day of the years from 2000 to 2099, at its time, which is
after 1970. Its text, the text with the year first and that of Tally are read as the same. What
is not valid has no time and keeps its text.** -/
theorem normalized_again (u : Unicode) (raw : List Char) :
    ((normalizeTransactionDate u raw).valid = true →
      ∃ date : NaiveDate, 2000 ≤ date.year ∧ date.year ≤ 2099 ∧
        (normalizeTransactionDate u raw).display = fmtDisplay date ∧
        (normalizeTransactionDate u raw).ts =
          displayToTs (normalizeTransactionDate u raw).display ∧
        0 < (normalizeTransactionDate u raw).ts ∧
        tallyDate (normalizeTransactionDate u raw).display = compactText date ∧
        tallyDate (isoText date) = compactText date ∧
        ∀ text ∈ [fmtDisplay date, isoText date, compactText date],
          normalizeTransactionDate u text.toList = normalizeTransactionDate u raw) ∧
    ((normalizeTransactionDate u raw).valid = false →
      (normalizeTransactionDate u raw).ts = 0 ∧
        (normalizeTransactionDate u raw).display = String.ofList (trim raw)) := by
  constructor
  · intro hvalid
    obtain ⟨date, hlower, hupper, hday⟩ := isDay_normalizeTransactionDate hvalid
    have hcentury : InCentury date := ⟨hlower, hupper⟩
    obtain ⟨dd, mm, yyyy, hparts⟩ := hcentury.exists_parts
    rw [hday]
    refine ⟨date, hlower, hupper, rfl, (displayToTs_fmtDisplay hparts hcentury).symm,
      timestampMillis_pos hcentury, tallyDate_fmtDisplay hparts, tallyDate_isoText hparts, ?_⟩
    intro text htext
    simp only [List.mem_cons, List.not_mem_nil, or_false] at htext
    rcases htext with rfl | rfl | rfl
    · obtain ⟨htrim, hparse⟩ := parseDate_fmtDisplay hparts hcentury
      exact normalize_of_parseDate htrim hparse
    · obtain ⟨htrim, hparse⟩ := parseDate_isoText hparts hcentury
      exact normalize_of_parseDate htrim hparse
    · obtain ⟨htrim, hparse⟩ := parseDate_compactText hparts hcentury
      exact normalize_of_parseDate htrim hparse
  · intro hinvalid
    rw [normalizeTransactionDate] at hinvalid ⊢
    split at hinvalid
    · cases hinvalid
    · exact ⟨rfl, rfl⟩

end Desktop.Parser
