import BankStatementProcessor.Desktop.Properties.DateRoundTrip
import BankStatementProcessor.Infra.Ascii
import BankStatementProcessor.Infra.Words

/-!
# The form of a text that is read as a date

Whatever is read as a date is a day, a month and a year in one of five forms. What is
said of every such text is said of the forms: of which characters it is made, what the digits at
its end are and that none of its parts is taken for digits.
-/

namespace Desktop.Parser

open Infra

section

variable {date : NaiveDate} {s x : List Char}

/-- The letters that are taken for digits. -/
def ocrLetters : List Char := "OoIlSZBGq".toList

/-- A name that is not taken for digits. -/
structure IsName (m : List Char) : Prop where
  letters : ∀ c ∈ m, c.isAlpha = true
  clear : ∃ c ∈ m, c ∉ ocrLetters

/-- The texts of a date. -/
inductive DateShape (date : NaiveDate) : List Char → Prop
  | separated {dd m yy : List Char} {a b : Char} (hdd : AllDigits dd)
      (hday : 1 ≤ dd.length ∧ dd.length ≤ 2) (ha : a ∈ [' ', '-', '/', '.'])
      (hb : b ∈ [' ', '-', '/', '.']) (hne : m ≠ []) (hm : AllDigits m ∨ IsName m)
      (hyy : AllDigits yy) (hyear : yy.length = 2 ∨ yy.length = 4) :
      DateShape date (dd ++ a :: (m ++ b :: yy))
  | joined {dd m yy : List Char} (hdd : AllDigits dd) (hday : 1 ≤ dd.length ∧ dd.length ≤ 2)
      (hne : m ≠ []) (hm : IsName m) (hyy : AllDigits yy)
      (hyear : yy.length = 2 ∨ yy.length = 4) : DateShape date (dd ++ (m ++ yy))
  | iso {y m d : List Char} {a b : Char} (hy : AllDigits y) (hyear : y.length = 4)
      (ha : a ∈ ['/', '-']) (hb : b ∈ ['/', '-']) (hne : m ≠ []) (hm : AllDigits m)
      (hd : AllDigits d) (hlen : 1 ≤ d.length ∧ d.length ≤ 2)
      (hday : parseU32 d = some date.day) : DateShape date (y ++ a :: (m ++ b :: d))
  | compact {digits : List Char} (h : AllDigits digits) (hlen : digits.length = 8) :
      DateShape date digits

/-! ## What the patterns take -/

theorem classRun_eq_some {p : Char → Bool} {lower upper : ℕ} {run rest : List Char}
    (h : classRun p lower upper s = some (run, rest)) :
    s = run ++ rest ∧ (∀ c ∈ run, p c = true) ∧ lower ≤ run.length ∧ run.length ≤ upper := by
  rw [classRun, List.span_eq_takeWhile_dropWhile] at h
  simp only [Option.ite_none_right_eq_some, Option.some.injEq, Prod.mk.injEq] at h
  obtain ⟨hlen, rfl, rfl⟩ := h
  exact ⟨List.takeWhile_append_dropWhile.symm, fun c hc => List.mem_takeWhile_imp hc, hlen⟩

theorem separator_eq_some {seps rest : List Char} (h : separator seps s = some rest) :
    ∃ c ∈ seps, s = c :: rest := by
  cases s with
  | nil => cases h
  | cons c cs =>
    simp only [separator, Option.ite_none_right_eq_some, Option.some.injEq] at h
    exact ⟨c, List.contains_iff_mem.mp h.1, by rw [h.2]⟩

theorem ending_eq_some {e : Unit} (h : ending s = some e) : s = [] := by
  cases s with
  | nil => rfl
  | cons c cs => cases h

theorem day_of_dateOf {year : ℤ} {month day : ℕ} (h : dateOf year month day = some date) :
    date.day = day := by
  obtain ⟨-, h⟩ := Option.ite_none_right_eq_some.mp h
  obtain ⟨hvalid, h⟩ := Option.dite_none_right_eq_some.mp h
  cases h
  rfl

/-! ## Numbers -/

theorem foldl_digits_lt (n : ℕ) (cs : List Char) (h : AllDigits cs) :
    cs.foldl (fun n c => 10 * n + (c.toNat - '0'.toNat)) n < (n + 1) * 10 ^ cs.length := by
  induction cs generalizing n with
  | nil => simp
  | cons c cs ih =>
    have hc : c.toNat - '0'.toNat ≤ 9 := by
      have hdigit := h c List.mem_cons_self
      simp only [Char.isDigit, ge_iff_le, Bool.and_eq_true, decide_eq_true_eq,
        UInt32.le_iff_toNat_le] at hdigit
      have hupper : c.toNat ≤ 57 := hdigit.2
      have hzero : '0'.toNat = 48 := rfl
      omega
    have hstep := ih (10 * n + (c.toNat - '0'.toNat)) fun a ha => h a (List.mem_cons_of_mem _ ha)
    calc (c :: cs).foldl (fun n c => 10 * n + (c.toNat - '0'.toNat)) n
        < (10 * n + (c.toNat - '0'.toNat) + 1) * 10 ^ cs.length := hstep
      _ ≤ ((n + 1) * 10) * 10 ^ cs.length := Nat.mul_le_mul_right _ (by omega)
      _ = (n + 1) * 10 ^ (c :: cs).length := by rw [List.length_cons, pow_succ']; ring

theorem head?_of_allDigits {cs : List Char} (h : AllDigits cs) :
    cs.head? ≠ some '-' ∧ cs.head? ≠ some '+' := by
  constructor <;>
  · intro hhead
    have hdigit := h _ (List.mem_of_mem_head? hhead)
    cases hdigit

theorem parseDigits_of_allDigits {cs : List Char} (h : AllDigits cs) (hne : cs ≠ []) :
    parseDigits cs = some (cs.foldl (fun n c => 10 * n + (c.toNat - '0'.toNat)) 0) := by
  have hempty : cs.isEmpty = false := List.isEmpty_eq_false_iff.mpr hne
  rw [parseDigits, hempty, List.all_eq_true.mpr h]
  rfl

/-- Three digits make no year. -/
theorem length_of_makeDate {dd yy : List Char} {mm : ℕ} (hyy : AllDigits yy)
    (hlen : 2 ≤ yy.length ∧ yy.length ≤ 4) (h : makeDate dd mm yy = some date) :
    yy.length = 2 ∨ yy.length = 4 := by
  simp only [makeDate, Option.bind_eq_bind, Option.bind_eq_some_iff] at h
  obtain ⟨d, -, raw, hraw, h⟩ := h
  by_contra hthree
  have hthree : yy.length = 3 := by omega
  obtain ⟨hminus, hplus⟩ := head?_of_allDigits hyy
  have hne : yy ≠ [] := by
    rintro rfl
    cases hthree
  rw [parseI32, if_neg hminus, if_neg hplus, parseDigits_of_allDigits hyy hne] at hraw
  obtain ⟨n, hn, rfl⟩ := Option.map_eq_some_iff.mp hraw
  have hlt := foldl_digits_lt 0 yy hyy
  rw [Option.some.inj (Option.filter_eq_some_iff.mp hn).1, hthree] at hlt
  rw [if_neg (by omega)] at h
  obtain ⟨hyear, -⟩ := Option.ite_none_right_eq_some.mp h
  simp only [yearOk, Bool.and_eq_true, decide_eq_true_eq] at hyear
  omega

/-- With one more digit a number is another one. -/
theorem parseU32_snoc_ne {d : List Char} {c : Char} {n : ℕ} (hd : AllDigits (d ++ [c]))
    (hne : d ≠ []) (hn : 1 ≤ n) (h : parseU32 d = some n) : parseU32 (d ++ [c]) ≠ some n := by
  have hleft : AllDigits d := fun a ha => hd a (List.mem_append_left _ ha)
  rw [parseU32, if_neg (head?_of_allDigits hleft).2, parseDigits_of_allDigits hleft hne] at h
  rw [parseU32, if_neg (head?_of_allDigits hd).2, parseDigits_of_allDigits hd (by simp),
    List.foldl_append, List.foldl_cons, List.foldl_nil,
    Option.some.inj (Option.filter_eq_some_iff.mp h).1]
  intro hsnoc
  have hvalue := Option.some.inj (Option.filter_eq_some_iff.mp hsnoc).1
  omega

/-! ## The forms -/

/-- Every name of a month has a letter that is not taken for a digit. -/
theorem isName_of_monthNum {m : List Char} {n : ℕ} (halpha : ∀ c ∈ m, c.isAlpha = true)
    (h : monthNum m = some n) : IsName m := by
  have hclear : ∀ name : String, String.ofList (m.map Char.toLower) = name →
      (name.toList.any fun c => !(ocrLetters.map Char.toLower).contains c) = true →
        ∃ c ∈ m, c ∉ ocrLetters := by
    rintro name rfl hany
    obtain ⟨c, hc, hnot⟩ := List.any_eq_true.mp hany
    rw [String.toList_ofList] at hc
    obtain ⟨d, hd, rfl⟩ := List.mem_map.mp hc
    refine ⟨d, hd, fun hmem => ?_⟩
    rw [List.contains_iff_mem.mpr (List.mem_map_of_mem hmem)] at hnot
    cases hnot
  refine ⟨halpha, ?_⟩
  unfold monthNum at h
  split at h
  case h_24 => cases h
  all_goals exact hclear _ ‹_› (by decide)

theorem ne_nil_of_length_pos {l : List Char} (h : 1 ≤ l.length) : l ≠ [] := by
  rintro rfl
  simp at h

theorem dateShape_of_ddMmYyyy (h : ddMmYyyy s = some date) : DateShape date s := by
  simp only [ddMmYyyy, Option.bind_eq_bind, Option.bind_eq_some_iff, Prod.exists] at h
  obtain ⟨dd, r₁, hdd, r₂, ha, mm, r₃, hmm, r₄, hb, yy, r₅, hyy, e, hend, month, -, h⟩ := h
  obtain ⟨rfl, hddDigits, hddLen⟩ := classRun_eq_some hdd
  obtain ⟨a, hamem, rfl⟩ := separator_eq_some ha
  obtain ⟨rfl, hmmDigits, hmmLen⟩ := classRun_eq_some hmm
  obtain ⟨b, hbmem, rfl⟩ := separator_eq_some hb
  obtain ⟨rfl, hyyDigits, hyyLen⟩ := classRun_eq_some hyy
  rw [ending_eq_some hend, List.append_nil]
  have hsub : ['/', '-', '.'] ⊆ [' ', '-', '/', '.'] := by decide
  exact .separated hddDigits hddLen (hsub hamem) (hsub hbmem) (ne_nil_of_length_pos hmmLen.1)
    (Or.inl hmmDigits) hyyDigits (length_of_makeDate hyyDigits hyyLen h)

theorem dateShape_of_ddMonYyyy (h : ddMonYyyy s = some date) : DateShape date s := by
  simp only [ddMonYyyy, Option.bind_eq_bind, Option.bind_eq_some_iff, Prod.exists] at h
  obtain ⟨dd, r₁, hdd, r₂, ha, m, r₃, hm, r₄, hb, yy, r₅, hyy, e, hend, month, hmonth, h⟩ := h
  obtain ⟨rfl, hddDigits, hddLen⟩ := classRun_eq_some hdd
  obtain ⟨a, hamem, rfl⟩ := separator_eq_some ha
  obtain ⟨rfl, hmAlpha, hmLen⟩ := classRun_eq_some hm
  obtain ⟨b, hbmem, rfl⟩ := separator_eq_some hb
  obtain ⟨rfl, hyyDigits, hyyLen⟩ := classRun_eq_some hyy
  rw [ending_eq_some hend, List.append_nil]
  exact .separated hddDigits hddLen hamem hbmem (ne_nil_of_length_pos (by omega))
    (Or.inr (isName_of_monthNum hmAlpha hmonth)) hyyDigits (length_of_makeDate hyyDigits hyyLen h)

theorem dateShape_of_ddMonYyyyNoSep (h : ddMonYyyyNoSep s = some date) : DateShape date s := by
  simp only [ddMonYyyyNoSep, Option.bind_eq_bind, Option.bind_eq_some_iff, Prod.exists] at h
  obtain ⟨dd, r₁, hdd, m, r₂, hm, yy, r₃, hyy, e, hend, month, hmonth, h⟩ := h
  obtain ⟨rfl, hddDigits, hddLen⟩ := classRun_eq_some hdd
  obtain ⟨rfl, hmAlpha, hmLen⟩ := classRun_eq_some hm
  obtain ⟨rfl, hyyDigits, hyyLen⟩ := classRun_eq_some hyy
  rw [ending_eq_some hend, List.append_nil]
  exact .joined hddDigits hddLen (ne_nil_of_length_pos (by omega))
    (isName_of_monthNum hmAlpha hmonth) hyyDigits (length_of_makeDate hyyDigits hyyLen h)

theorem dateShape_of_iso (h : iso s = some date) : DateShape date s := by
  simp only [iso, Option.bind_eq_bind, Option.bind_eq_some_iff, Prod.exists] at h
  obtain ⟨y, r₁, hy, r₂, ha, m, r₃, hm, r₄, hb, d, r₅, hd, e, hend, year, -, month, -, day, hday,
    h⟩ := h
  obtain ⟨rfl, hyDigits, hyLen⟩ := classRun_eq_some hy
  obtain ⟨a, hamem, rfl⟩ := separator_eq_some ha
  obtain ⟨rfl, hmDigits, hmLen⟩ := classRun_eq_some hm
  obtain ⟨b, hbmem, rfl⟩ := separator_eq_some hb
  obtain ⟨rfl, hdDigits, hdLen⟩ := classRun_eq_some hd
  rw [ending_eq_some hend, List.append_nil]
  exact .iso hyDigits (by omega) hamem hbmem (ne_nil_of_length_pos hmLen.1) hmDigits hdDigits
    hdLen (by rw [hday, day_of_dateOf h])

theorem dateShape_of_compact8 (h : compact8 s = some date) : DateShape date s := by
  simp only [compact8, Option.bind_eq_bind, Option.bind_eq_some_iff, Prod.exists] at h
  obtain ⟨digits, rest, hdigits, e, hend, -⟩ := h
  obtain ⟨rfl, hall, hlen⟩ := classRun_eq_some hdigits
  rw [ending_eq_some hend, List.append_nil]
  exact .compact hall (by omega)

/-- Whatever is read as a date has the form of one. -/
theorem dateShape_of_parseDate (h : parseDate x = some date) :
    DateShape date (joinWords x) := by
  simp only [parseDate, Option.orElse_eq_orElse, Option.orElse_eq_or, Option.or_eq_some_iff] at h
  rcases h with h | ⟨-, h | ⟨-, h | ⟨-, h | ⟨-, h⟩⟩⟩⟩
  · exact dateShape_of_ddMmYyyy h
  · exact dateShape_of_ddMonYyyy h
  · exact dateShape_of_ddMonYyyyNoSep h
  · exact dateShape_of_iso h
  · exact dateShape_of_compact8 h

/-! ## The characters -/

theorem not_isDigit_of_isAlpha {c : Char} (h : c.isAlpha = true) : c.isDigit = false := by
  have hbounds := toNat_of_isAlpha h
  rw [Bool.eq_false_iff]
  intro hdigit
  have hdigits := bounds_of_isDigit hdigit
  omega

/-- Letters, digits and the separators. -/
def IsDateChar (c : Char) : Prop := c.isAlphanum = true ∨ c ∈ [' ', '-', '/', '.']

theorem AllDigits.isDateChar {cs : List Char} (h : AllDigits cs) : ∀ c ∈ cs, IsDateChar c :=
  fun c hc => Or.inl (by rw [Char.isAlphanum, h c hc, Bool.or_true])

theorem IsName.isDateChar {cs : List Char} (h : IsName cs) : ∀ c ∈ cs, IsDateChar c :=
  fun c hc => Or.inl (by rw [Char.isAlphanum, h.letters c hc, Bool.true_or])

theorem DateShape.isDateChar (h : DateShape date s) : ∀ c ∈ s, IsDateChar c := by
  have hsub : ['/', '-'] ⊆ [' ', '-', '/', '.'] := by decide
  intro c hc
  cases h with
  | separated hdd _ ha hb _ hm hyy _ =>
    simp only [List.mem_append, List.mem_cons] at hc
    rcases hc with hc | rfl | hc | rfl | hc
    · exact hdd.isDateChar c hc
    · exact Or.inr ha
    · exact hm.elim (·.isDateChar c hc) (·.isDateChar c hc)
    · exact Or.inr hb
    · exact hyy.isDateChar c hc
  | joined hdd _ _ hm hyy _ =>
    simp only [List.mem_append] at hc
    rcases hc with hc | hc | hc
    · exact hdd.isDateChar c hc
    · exact hm.isDateChar c hc
    · exact hyy.isDateChar c hc
  | iso hy _ ha hb _ hm hd _ _ =>
    simp only [List.mem_append, List.mem_cons] at hc
    rcases hc with hc | rfl | hc | rfl | hc
    · exact hy.isDateChar c hc
    · exact Or.inr (hsub ha)
    · exact hm.isDateChar c hc
    · exact Or.inr (hsub hb)
    · exact hd.isDateChar c hc
  | compact h _ => exact h.isDateChar c hc

theorem joinWords_eq (x : List Char) : joinWords x = [' '].intercalate (words isWhitespace x) :=
  rfl

/-- Where blanks separate, the words stay the same when only one is left between them. -/
theorem words_joinWords {p : Char → Bool} (hp : ∀ c, isWhitespace c = true → p c = true)
    (x : List Char) : words p (joinWords x) = words p x := by
  rw [joinWords_eq, words_intercalate (hp ' ' (by decide)), words_flatMap hp]

theorem mem_joinWords {c : Char} (hc : c ∈ x) (hspace : isWhitespace c = false) :
    c ∈ joinWords x := by
  have hmem : c ∈ (words isWhitespace x).flatten := mem_flatten_words.mpr ⟨hc, hspace⟩
  rw [← words_joinWords fun _ h => h] at hmem
  exact (mem_flatten_words.mp hmem).1

theorem isDateChar_of_parseDate (h : parseDate x = some date) {c : Char} (hc : c ∈ x)
    (hspace : isWhitespace c = false) : IsDateChar c :=
  (dateShape_of_parseDate h).isDateChar c (mem_joinWords hc hspace)

/-- No date has a colon. -/
theorem colon_notMem_of_parseDate (h : parseDate x = some date) : ':' ∉ x := by
  intro hc
  rcases isDateChar_of_parseDate h hc (by decide) with h | h
  · revert h
    decide
  · revert h
    decide

/-! ## Blanks at the ends -/

theorem parseDate_congr {y : List Char} (h : words isWhitespace x = words isWhitespace y) :
    parseDate x = parseDate y := by
  rw [parseDate, parseDate, joinWords_eq, joinWords_eq, h]

theorem parseDate_append_spaces {y : List Char} (hy : ∀ c ∈ y, isWhitespace c = true) :
    parseDate (x ++ y) = parseDate x :=
  parseDate_congr (words_append_of_forall_right hy)

theorem parseDate_spaces_append {y : List Char} (hx : ∀ c ∈ x, isWhitespace c = true) :
    parseDate (x ++ y) = parseDate y :=
  parseDate_congr (words_append_of_forall_left hx)

theorem parseDate_trim (x : List Char) : parseDate (trim x) = parseDate x :=
  parseDate_congr (words_trim x)

/-! ## The digits at the end -/

/-- A text ends with these digits and no more. -/
structure EndsWith (s before digits : List Char) : Prop where
  text : s = before ++ digits
  digits : AllDigits digits
  before : ∀ c ∈ before.getLast?, c.isDigit = false

theorem EndsWith.unique {before before' digits digits' : List Char}
    (h : EndsWith s before digits) (h' : EndsWith s before' digits') :
    before = before' ∧ digits = digits' := by
  have hrun : ∀ {p t : List Char}, EndsWith s p t → s.reverse.takeWhile Char.isDigit = t.reverse := by
    intro p t h
    rw [h.text, List.reverse_append,
      List.takeWhile_append_of_pos fun c hc => h.digits c (List.mem_reverse.mp hc)]
    cases hp : p.reverse with
    | nil => simp
    | cons c cs =>
      have hlast : p.getLast? = some c := by rw [List.getLast?_eq_head?_reverse, hp]; rfl
      rw [List.takeWhile_cons_of_neg (by simp [h.before c hlast]), List.append_nil]
  have hdigits : digits = digits' := List.reverse_injective ((hrun h).symm.trans (hrun h'))
  have htext : before ++ digits = before' ++ digits := by rw [← h.text, hdigits, ← h'.text]
  exact ⟨List.append_cancel_right htext, hdigits⟩

/-- The number of digits that a text starts with. -/
def leadingDigits (s : List Char) : ℕ := (s.takeWhile Char.isDigit).length

theorem leadingDigits_append {dd rest : List Char} {c : Char} (h : AllDigits dd)
    (hc : c.isDigit = false) : leadingDigits (dd ++ c :: rest) = dd.length := by
  rw [leadingDigits, List.takeWhile_append_of_pos h,
    List.takeWhile_cons_of_neg (by simp [hc]), List.append_nil]

/-- What stands at the end of a date: a year of two or four digits, a day, or eight digits. -/
def IsEnding (date : NaiveDate) (before digits : List Char) : Prop :=
  (leadingDigits before ≤ 2 ∧ (digits.length = 2 ∨ digits.length = 4)) ∨
    (leadingDigits before = 4 ∧ before.getLast? ≠ some ' ' ∧
      1 ≤ digits.length ∧ digits.length ≤ 2 ∧ parseU32 digits = some date.day) ∨
    digits.length = 8

theorem not_isDigit_of_separator {a : Char} (h : a ∈ [' ', '-', '/', '.']) :
    a.isDigit = false := by
  have hall : ∀ a ∈ [' ', '-', '/', '.'], a.isDigit = false := forall_mem_of_all (by decide)
  exact hall a h

theorem DateShape.exists_ending (h : DateShape date s) :
    ∃ before digits, EndsWith s before digits ∧ IsEnding date before digits := by
  cases h with
  | @separated dd m yy a b hdd hday ha hb hne hm hyy hyear =>
    refine ⟨dd ++ a :: (m ++ [b]), yy, ⟨by simp, hyy, ?_⟩, Or.inl ⟨?_, hyear⟩⟩
    · intro c hc
      have hlast : (dd ++ a :: (m ++ [b])).getLast? = some b := by
        simp [List.getLast?_append, List.getLast?_cons]
      rw [hlast] at hc
      cases hc
      exact not_isDigit_of_separator hb
    · rw [leadingDigits_append hdd (not_isDigit_of_separator ha)]
      exact hday.2
  | @joined dd m yy hdd hday hne hm hyy hyear =>
    obtain ⟨c, m, rfl⟩ := List.exists_cons_of_ne_nil hne
    refine ⟨dd ++ c :: m, yy, ⟨by simp, hyy, ?_⟩, Or.inl ⟨?_, hyear⟩⟩
    · intro x hx
      rw [List.getLast?_append_of_ne_nil dd hne] at hx
      exact not_isDigit_of_isAlpha (hm.letters x (List.mem_of_mem_getLast? hx))
    · rw [leadingDigits_append hdd
        (not_isDigit_of_isAlpha (hm.letters c List.mem_cons_self))]
      exact hday.2
  | @iso y m d a b hy hyear ha hb hne hm hd hlen hday =>
    have hsub : ['/', '-'] ⊆ [' ', '-', '/', '.'] := by decide
    have hlast : (y ++ a :: (m ++ [b])).getLast? = some b := by
      simp [List.getLast?_append, List.getLast?_cons]
    refine ⟨y ++ a :: (m ++ [b]), d, ⟨by simp, hd, ?_⟩,
      Or.inr (Or.inl ⟨?_, ?_, hlen.1, hlen.2, hday⟩)⟩
    · intro c hc
      rw [hlast] at hc
      cases hc
      exact not_isDigit_of_separator (hsub hb)
    · rw [leadingDigits_append hy (not_isDigit_of_separator (hsub ha)), hyear]
    · rw [hlast]
      rintro ⟨⟩
      revert hb
      decide
  | compact h hlen => exact ⟨[], _, ⟨rfl, h, by simp⟩, Or.inr (Or.inr hlen)⟩

/-- One more digit at the end of a date gives no text of the same date. -/
theorem DateShape.not_snoc {c : Char} (h : DateShape date s) (hc : c.isDigit = true) :
    ¬ DateShape date (s ++ [c]) ∧ ¬ DateShape date (s ++ [' ', c]) := by
  obtain ⟨before, digits, hends, hending⟩ := h.exists_ending
  have hsnoc : AllDigits (digits ++ [c]) := by
    intro a ha
    rcases List.mem_append.mp ha with ha | ha
    · exact hends.digits a ha
    · rw [List.mem_singleton.mp ha]
      exact hc
  constructor
  · intro h'
    obtain ⟨before', digits', hends', hending'⟩ := h'.exists_ending
    have hends'' : EndsWith (s ++ [c]) before (digits ++ [c]) :=
      ⟨by rw [hends.text, List.append_assoc], hsnoc, hends.before⟩
    obtain ⟨rfl, rfl⟩ := hends''.unique hends'
    have hlen : (digits ++ [c]).length = digits.length + 1 := by simp
    rcases hending with ⟨hlead, hyear⟩ | ⟨hlead, -, hlower, hupper, hday⟩ | height
    · rcases hending' with ⟨-, hyear'⟩ | ⟨hlead', -⟩ | height' <;> omega
    · rcases hending' with ⟨hlead', -⟩ | ⟨-, -, -, -, hday'⟩ | height'
      · omega
      · exact parseU32_snoc_ne hsnoc (ne_nil_of_length_pos hlower) date.valid.1 hday hday'
      · omega
    · rcases hending' with ⟨-, hyear'⟩ | ⟨-, -, -, hupper', -⟩ | height' <;> omega
  · intro h'
    obtain ⟨before', digits', hends', hending'⟩ := h'.exists_ending
    have hends'' : EndsWith (s ++ [' ', c]) (s ++ [' ']) [c] := by
      refine ⟨by simp, fun a ha => ?_, fun a ha => ?_⟩
      · rw [List.mem_singleton.mp ha]
        exact hc
      · rw [List.getLast?_append_of_ne_nil s (by simp)] at ha
        cases ha
        decide
    obtain ⟨rfl, rfl⟩ := hends''.unique hends'
    have hone : [c].length = 1 := rfl
    rcases hending' with ⟨-, hyear'⟩ | ⟨-, hlast, -⟩ | height'
    · omega
    · exact hlast (List.getLast?_append_of_ne_nil s (by simp))
    · omega

theorem joinWords_snoc {c : Char} (x : List Char) (hc : isWhitespace c = false) :
    joinWords (x ++ [c]) = [c] ∨ joinWords (x ++ [c]) = joinWords x ++ [c] ∨
      joinWords (x ++ [c]) = joinWords x ++ [' ', c] := by
  rw [joinWords_eq, joinWords_eq]
  rcases words_snoc x hc with ⟨h, -⟩ | ⟨ws, w, hx, h⟩
  · rw [h]
    by_cases hws : words isWhitespace x = []
    · rw [hws]
      exact Or.inl rfl
    · rw [intercalate_snoc _ _ hws, List.append_assoc]
      exact Or.inr (Or.inr rfl)
  · rw [h, hx, intercalate_snoc_append]
    exact Or.inr (Or.inl rfl)

/-- Without its last digit a date is not read as the same date. -/
theorem parseDate_of_snoc {c : Char} (hc : c.isDigit = true)
    (h : parseDate (x ++ [c]) = some date) : parseDate x ≠ some date := by
  intro hx
  have hshape := dateShape_of_parseDate h
  have hnot := (dateShape_of_parseDate hx).not_snoc hc
  rcases joinWords_snoc x (not_isSpace_of_isDigit hc) with hjoin | hjoin | hjoin
  · rw [hjoin] at hshape
    obtain ⟨before, digits, hends, hending⟩ := hshape.exists_ending
    have hends' : EndsWith [c] [] [c] :=
      ⟨rfl, fun a ha => by rw [List.mem_singleton.mp ha]; exact hc, by simp⟩
    obtain ⟨rfl, rfl⟩ := hends'.unique hends
    have hone : [c].length = 1 := rfl
    have hnone : leadingDigits [] = 0 := rfl
    rcases hending with ⟨-, hyear⟩ | ⟨hlead, -⟩ | height <;> omega
  · exact hnot.1 (hjoin ▸ hshape)
  · exact hnot.2 (hjoin ▸ hshape)

/-! ## What is not repaired -/

/-- The separators between which digits are repaired. -/
def isOcrSep (c : Char) : Bool := c == '/' || c == '-' || c == '.' || isSpace c

theorem repairOcrChars_eq (x : List Char) :
    repairOcrChars x = (x.splitBy fun a b => isOcrSep a == isOcrSep b).flatMap fun run =>
      if run.any isOcrSep then run else repairToken run := rfl

/-- Digits, or something that is no digit and not taken for one. -/
def IsClear (tok : List Char) : Prop :=
  AllDigits tok ∨ ∃ c ∈ tok, c.isDigit = false ∧ c ∉ ocrLetters

theorem IsClear.repairToken {tok : List Char} (h : IsClear tok) : repairToken tok = tok := by
  rcases h with h | ⟨c, hc, hdigit, hclear⟩
  · exact repairToken_digits h
  · have hall : (tok.all fun c => c.isDigit || "OoIlSZBGq".toList.contains c) = false := by
      rw [List.all_eq_false]
      refine ⟨c, hc, ?_⟩
      rw [hdigit, Bool.false_or]
      exact fun h => hclear (List.contains_iff_mem.mp h)
    rw [Parser.repairToken, hall, Bool.and_false, if_neg Bool.false_ne_true]

theorem IsClear.snoc {tok : List Char} {c : Char} (h : IsClear tok) (hc : c.isDigit = true) :
    IsClear (tok ++ [c]) := by
  rcases h with h | ⟨a, ha, hclear⟩
  · left
    intro a ha
    rcases List.mem_append.mp ha with ha | ha
    · exact h a ha
    · rw [List.mem_singleton.mp ha]
      exact hc
  · exact Or.inr ⟨a, List.mem_append_left _ ha, hclear⟩

theorem repairOcrChars_of_isClear (h : ∀ tok ∈ words isOcrSep x, IsClear tok) :
    repairOcrChars x = x := by
  rw [repairOcrChars_eq]
  calc _ = (x.splitBy fun a b => isOcrSep a == isOcrSep b).flatMap id :=
        List.flatMap_congr fun run hrun => by
          split
          · rfl
          · next hfree =>
            have hfree : ∀ a ∈ run, isOcrSep a = false := fun a ha =>
              eq_false_of_ne_true fun hsep => hfree (List.any_eq_true.mpr ⟨a, ha, hsep⟩)
            exact (h run (mem_words_of_mem_splitBy hrun hfree)).repairToken
    _ = x := by rw [List.flatMap_id, List.flatten_splitBy]

theorem not_isOcrSep_of_isDigit {c : Char} (h : c.isDigit = true) : isOcrSep c = false := by
  have hne : ∀ d : Char, d.isDigit = false → (c == d) = false := by
    intro d hd
    rw [beq_eq_false_iff_ne]
    rintro rfl
    rw [h] at hd
    cases hd
  rw [isOcrSep, hne '/' (by decide), hne '-' (by decide), hne '.' (by decide),
    not_isSpace_of_isDigit h]
  rfl

theorem not_isOcrSep_of_isAlpha {c : Char} (h : c.isAlpha = true) : isOcrSep c = false := by
  have hne : ∀ d : Char, d.isAlpha = false → (c == d) = false := by
    intro d hd
    rw [beq_eq_false_iff_ne]
    rintro rfl
    rw [h] at hd
    cases hd
  have hspace : isSpace c = false := by
    have hbounds := toNat_of_isAlpha h
    simp [isSpace]
    omega
  rw [isOcrSep, hne '/' (by decide), hne '-' (by decide), hne '.' (by decide), hspace]
  rfl

theorem IsName.isClear {m y : List Char} (h : IsName m) (hsub : m ⊆ y) : IsClear y := by
  obtain ⟨c, hc, hclear⟩ := h.clear
  exact Or.inr ⟨c, hsub hc, not_isDigit_of_isAlpha (h.letters c hc), hclear⟩

/-- The parts of a date. -/
theorem DateShape.isClear (h : DateShape date s) : ∀ tok ∈ words isOcrSep s, IsClear tok := by
  have hsep : ∀ a ∈ [' ', '-', '/', '.'], isOcrSep a = true := forall_mem_of_all (by decide)
  have hsub : ['/', '-'] ⊆ [' ', '-', '/', '.'] := by decide
  have hdigits : ∀ {y : List Char}, AllDigits y → ∀ tok ∈ words isOcrSep y, IsClear tok := by
    intro y hy tok htok
    rw [mem_words_of_forall (fun a ha => not_isOcrSep_of_isDigit (hy a ha)) htok]
    exact Or.inl hy
  intro tok htok
  cases h with
  | @separated dd m yy a b hdd _ ha hb _ hm hyy _ =>
    rw [words_append_cons _ _ (hsep a ha), words_append_cons _ _ (hsep b hb)] at htok
    rcases List.mem_append.mp htok with htok | htok
    · exact hdigits hdd tok htok
    rcases List.mem_append.mp htok with htok | htok
    · rcases hm with hm | hm
      · exact hdigits hm tok htok
      · rw [mem_words_of_forall (fun a ha => not_isOcrSep_of_isAlpha (hm.letters a ha)) htok]
        exact hm.isClear fun a ha => ha
    · exact hdigits hyy tok htok
  | @joined dd m yy hdd _ _ hm hyy _ =>
    have hfree : ∀ a ∈ dd ++ (m ++ yy), isOcrSep a = false := by
      intro a ha
      simp only [List.mem_append] at ha
      rcases ha with ha | ha | ha
      · exact not_isOcrSep_of_isDigit (hdd a ha)
      · exact not_isOcrSep_of_isAlpha (hm.letters a ha)
      · exact not_isOcrSep_of_isDigit (hyy a ha)
    rw [mem_words_of_forall hfree htok]
    exact hm.isClear fun a ha => List.mem_append_right _ (List.mem_append_left _ ha)
  | @iso y m d a b hy _ ha hb _ hm hd _ _ =>
    rw [words_append_cons _ _ (hsep a (hsub ha)), words_append_cons _ _ (hsep b (hsub hb))]
      at htok
    rcases List.mem_append.mp htok with htok | htok
    · exact hdigits hy tok htok
    rcases List.mem_append.mp htok with htok | htok
    · exact hdigits hm tok htok
    · exact hdigits hd tok htok
  | compact h _ => exact hdigits h tok htok

theorem isOcrSep_of_isWhitespace (c : Char) (h : isWhitespace c = true) : isOcrSep c = true := by
  have hspace : isSpace c = true := h
  rw [isOcrSep, hspace, Bool.or_true]

/-- A date with a further digit is not repaired. -/
theorem repairOcrChars_snoc {c : Char} (h : parseDate x = some date) (hc : c.isDigit = true) :
    repairOcrChars (x ++ [c]) = x ++ [c] := by
  have hclear : ∀ tok ∈ words isOcrSep x, IsClear tok := by
    rw [← words_joinWords isOcrSep_of_isWhitespace]
    exact (dateShape_of_parseDate h).isClear
  refine repairOcrChars_of_isClear fun tok htok => ?_
  have hcsep : isOcrSep c = false := not_isOcrSep_of_isDigit hc
  rcases words_snoc x hcsep with ⟨hwords, -⟩ | ⟨ws, w, hx, hwords⟩
  · rw [hwords] at htok
    rcases List.mem_append.mp htok with htok | htok
    · exact hclear tok htok
    · rw [List.mem_singleton.mp htok]
      exact Or.inl fun a ha => by rw [List.mem_singleton.mp ha]; exact hc
  · rw [hx] at hclear
    rw [hwords] at htok
    rcases List.mem_append.mp htok with htok | htok
    · exact hclear tok (List.mem_append_left _ htok)
    · rw [List.mem_singleton.mp htok]
      exact (hclear w (List.mem_append_right _ (List.mem_singleton_self _))).snoc hc

/-- A character that is not taken for a digit is left. -/
theorem mem_repairOcrChars {c : Char} (hc : c ∈ x) (hclear : c ∉ ocrLetters) :
    c ∈ repairOcrChars x := by
  rw [repairOcrChars_eq, List.mem_flatMap]
  rw [← List.flatten_splitBy (fun a b => isOcrSep a == isOcrSep b) x] at hc
  obtain ⟨run, hrun, hc⟩ := List.mem_flatten.mp hc
  refine ⟨run, hrun, ?_⟩
  split
  · exact hc
  · unfold Parser.repairToken
    split
    · refine List.mem_map.mpr ⟨c, hc, ?_⟩
      split
      case h_10 => rfl
      all_goals exact absurd (by decide) hclear
    · exact hc

end

end Desktop.Parser
