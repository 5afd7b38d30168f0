import BankStatementProcessor.Desktop.Properties.DateShape

/-!
# A time behind a date

The pattern of the time wants no separator before the hour. Where the first colon of a text
belongs to a time, what stands before it is read back to the farthest place from which only
blanks and at most two digits lead to the colon. An hour of one digit that is glued to a year
takes the last digit of the year with it.
-/

namespace Desktop.Parser

open Infra

/-! ## Times -/

/-- A time of day. An hour below ten may be written with one digit. -/
structure TimeOfDay where
  hour : ℕ
  minute : ℕ
  second : Option ℕ
  twoDigitHour : Bool
  valid : hour < 24 ∧ minute < 60 ∧ (∀ s ∈ second, s < 60) ∧ (twoDigitHour = false → hour < 10)

namespace TimeOfDay

def hourText (t : TimeOfDay) : List Char :=
  if t.twoDigitHour then digitsOf t.hour else [Nat.digitChar t.hour]

def secondText (t : TimeOfDay) : List Char :=
  match t.second with
  | some s => ':' :: digitsOf s
  | none => []

/-- What stands behind the first colon. -/
def afterColon (t : TimeOfDay) : List Char := digitsOf t.minute ++ t.secondText

/-- `H:MM`, `HH:MM`, `H:MM:SS` or `HH:MM:SS` -/
def text (t : TimeOfDay) : List Char := t.hourText ++ ':' :: t.afterColon

end TimeOfDay

/-- A date is read from a text as it stands or from what is before the time at its end, without
any digits that are repaired. -/
def ReadAsWritten (u : Unicode) (d : List Char) : Prop :=
  isValidDateStr d = true ∨ isValidDateStr (reTimeSuffix.beforeMatch u (trim d)) = true

section

variable {u : Unicode} {date : NaiveDate} {s x p q d : List Char}

/-! ## The pattern -/

/-- One or two digits behind blanks. -/
def IsHour (u : Unicode) (p : List Char) : Prop :=
  ∃ s h, p = s ++ h ∧ (∀ c ∈ s, isSpace c = true) ∧ (∀ c ∈ h, u.isDigit c = true) ∧
    1 ≤ h.length ∧ h.length ≤ 2

/-- Two digits, and no further line. -/
def IsMinute (u : Unicode) (q : List Char) : Prop :=
  ∃ m₁ m₂ r, q = m₁ :: m₂ :: r ∧ u.isDigit m₁ = true ∧ u.isDigit m₂ = true ∧ '\n' ∉ r

theorem colon_notMem_of_digits {h : List Char} (hh : ∀ c ∈ h, u.isDigit c = true) : ':' ∉ h := by
  intro hc
  have hdigit := hh ':' hc
  rw [u.isDigit_ascii ':' (by decide)] at hdigit
  cases hdigit

theorem IsHour.colon_notMem (h : IsHour u p) : ':' ∉ p := by
  obtain ⟨s, h, rfl, hs, hh, -⟩ := h
  intro hc
  rcases List.mem_append.mp hc with hc | hc
  · have hspace := hs ':' hc
    revert hspace
    decide
  · exact colon_notMem_of_digits hh hc

/-- A digit or none. -/
theorem mem_ends_opt_digit {e e' : Regex.Pos} :
    e' ∈ (Regex.opt .digit).ends u e ↔
      ∃ o : List Char, (∀ c ∈ o, u.isDigit c = true) ∧ o.length ≤ 1 ∧ e.Reads o e' := by
  constructor
  · intro h
    rcases Regex.mem_ends_alt.mp h with h | h
    · obtain ⟨c, hc, hread⟩ := Regex.mem_ends_one.mp h
      exact ⟨[c], by simpa using hc, le_rfl, hread⟩
    · exact ⟨[], by simp, by simp, Regex.mem_ends_empty.mp h⟩
  · rintro ⟨o, ho, hlen, hread⟩
    match o with
    | [] => exact Regex.mem_ends_alt.mpr (Or.inr (Regex.mem_ends_empty.mpr hread))
    | [c] =>
      exact Regex.mem_ends_alt.mpr (Or.inl (Regex.mem_ends_one.mpr
        ⟨c, ho c List.mem_cons_self, hread⟩))

/-- Where a time is found. -/
theorem ends_reTimeSuffix {b : Option Char} :
    reTimeSuffix.ends u ⟨b, x⟩ ≠ [] ↔ ∃ p q, x = p ++ ':' :: q ∧ IsHour u p ∧ IsMinute u q := by
  constructor
  · intro h
    obtain ⟨e, he⟩ := List.exists_mem_of_ne_nil _ h
    simp only [reTimeSuffix, Regex.mem_ends_seqs_cons] at he
    obtain ⟨e₁, h₁, e₂, h₂, e₃, h₃, e₄, h₄, e₅, h₅, e₆, h₆, e₇, h₇, e₈, h₈, e₉, h₉, -⟩ := he
    obtain ⟨s, hs, hread₁⟩ := Regex.mem_ends_star_one.mp h₁
    obtain ⟨c, hc, hread₂⟩ := Regex.mem_ends_one.mp h₂
    obtain ⟨c', hc', hread₄⟩ := Regex.mem_ends_one.mp h₄
    obtain ⟨m₁, hm₁, hread₅⟩ := Regex.mem_ends_one.mp h₅
    obtain ⟨m₂, hm₂, hread₆⟩ := Regex.mem_ends_one.mp h₆
    obtain ⟨r, hr, hread₈⟩ := Regex.mem_ends_star_one.mp h₈
    have hcolon : c' = ':' := beq_iff_eq.mp hc'
    obtain ⟨o, ho, hlen, hread₃⟩ := mem_ends_opt_digit.mp h₃
    obtain ⟨v, hv, hread₇⟩ : ∃ v, (∀ a ∈ v, a ≠ '\n') ∧ e₆.Reads v e₇ := by
      have hdigit : ∀ a : Char, u.isDigit a = true → a ≠ '\n' := by
        rintro a ha rfl
        rw [u.isDigit_ascii '\n' (by decide)] at ha
        cases ha
      have hone : ∀ {f : Unicode → Char → Bool}, (∀ a, f u a = true → a ≠ '\n') →
          Regex.Consumes u (· ≠ '\n') (.one f) := fun h => Regex.consumes_one h
      have hcons : Regex.Consumes u (· ≠ '\n') (.seqs [.char ':', .digit, .digit]) := by
        refine Regex.consumes_seqs fun r hr => ?_
        simp only [List.mem_cons, List.not_mem_nil, or_false] at hr
        rcases hr with rfl | rfl | rfl
        · exact hone fun a ha => by
            rw [show a = ':' from beq_iff_eq.mp ha]
            decide
        · exact hone hdigit
        · exact hone hdigit
      rcases Regex.mem_ends_alt.mp h₇ with h₇ | h₇
      · exact hcons _ _ h₇
      · exact ⟨[], by simp, Regex.mem_ends_empty.mp h₇⟩
    have hend : e₈.rest = [] := (Regex.mem_ends_stop.mp h₉).1
    have hx : x = s ++ (c :: o) ++ ':' :: (m₁ :: m₂ :: (v ++ r)) := by
      have h₁ : x = s ++ e₁.rest := hread₁.1
      rw [h₁, hread₂.1, hread₃.1, hread₄.1, hread₅.1, hread₆.1, hread₇.1, hread₈.1, hend, hcolon]
      simp
    refine ⟨_, _, hx, ⟨s, c :: o, rfl, hs, ?_, by simp, by simpa using hlen⟩,
      ⟨m₁, m₂, v ++ r, rfl, hm₁, hm₂, ?_⟩⟩
    · intro a ha
      rcases List.mem_cons.mp ha with rfl | ha
      · exact hc
      · exact ho a ha
    · intro hmem
      rcases List.mem_append.mp hmem with hmem | hmem
      · exact hv _ hmem rfl
      · have hr := hr _ hmem
        revert hr
        decide
  · rintro ⟨p, q, rfl, ⟨s, h, rfl, hs, hh, hlower, hupper⟩, m₁, m₂, r, rfl, hm₁, hm₂, hr⟩
    obtain ⟨c, o, rfl⟩ : ∃ c o, h = c :: o :=
      List.exists_cons_of_ne_nil (List.ne_nil_of_length_pos hlower)
    have hmem : ∃ e, e ∈ reTimeSuffix.ends u ⟨b, s ++ c :: o ++ ':' :: m₁ :: m₂ :: r⟩ := by
      simp only [reTimeSuffix, Regex.mem_ends_seqs_cons]
      refine ⟨_, ⟨_, c :: (o ++ ':' :: m₁ :: m₂ :: r)⟩,
        Regex.mem_ends_star_one.mpr ⟨s, hs, Regex.Pos.reads_of_rest (by simp)⟩,
        ⟨_, o ++ ':' :: m₁ :: m₂ :: r⟩,
        Regex.mem_ends_one.mpr ⟨c, hh c List.mem_cons_self, Regex.Pos.reads_of_rest rfl⟩,
        ⟨_, ':' :: m₁ :: m₂ :: r⟩, mem_ends_opt_digit.mpr ⟨o, ?_, ?_, Regex.Pos.reads_of_rest rfl⟩,
        ⟨_, m₁ :: m₂ :: r⟩, Regex.mem_ends_one.mpr ⟨':', rfl, Regex.Pos.reads_of_rest rfl⟩,
        ⟨_, m₂ :: r⟩, Regex.mem_ends_one.mpr ⟨m₁, hm₁, Regex.Pos.reads_of_rest rfl⟩,
        ⟨_, r⟩, Regex.mem_ends_one.mpr ⟨m₂, hm₂, Regex.Pos.reads_of_rest rfl⟩,
        ⟨_, r⟩, Regex.mem_ends_alt.mpr (Or.inr (Regex.mem_ends_empty.mpr
          (Regex.Pos.reads_nil_iff.mpr rfl))),
        ⟨_, []⟩, Regex.mem_ends_star_one.mpr ⟨r, ?_, Regex.Pos.reads_of_rest (by simp)⟩,
        ⟨_, []⟩, Regex.mem_ends_stop.mpr ⟨rfl, Regex.Pos.reads_nil_iff.mpr rfl⟩,
        Regex.mem_ends_empty.mpr (Regex.Pos.reads_nil_iff.mpr rfl)⟩
      · exact fun a ha => hh a (List.mem_cons_of_mem _ ha)
      · simpa using hupper
      · intro a ha
        rw [bne_iff_ne]
        rintro rfl
        exact hr ha
    obtain ⟨e, he⟩ := hmem
    exact List.ne_nil_of_mem he

/-! ## The first colon -/

theorem split_before_colon {w rest : List Char} (hw : ':' ∉ w) (h : p ++ ':' :: q = w ++ rest) :
    ∃ p₂, p = w ++ p₂ ∧ rest = p₂ ++ ':' :: q := by
  rcases List.append_eq_append_iff.mp h with ⟨a, rfl, ha⟩ | ⟨b, hp, hrest⟩
  · cases a with
    | nil => exact ⟨[], by simp, ha.symm⟩
    | cons c a =>
      rw [List.cons_append, List.cons.injEq] at ha
      rw [← ha.1] at hw
      exact absurd (List.mem_append_right _ List.mem_cons_self) hw
  · exact ⟨b, hp, hrest⟩

theorem ends_of_first_colon {b : Option Char} (hp : ':' ∉ p) :
    reTimeSuffix.ends u ⟨b, p ++ ':' :: q⟩ ≠ [] ↔ IsHour u p ∧ IsMinute u q := by
  rw [ends_reTimeSuffix]
  constructor
  · rintro ⟨p', q', h, hhour, hminute⟩
    obtain ⟨p₂, rfl, hrest⟩ := split_before_colon hhour.colon_notMem h
    cases p₂ with
    | nil =>
      rw [List.nil_append, List.cons.injEq] at hrest
      rw [List.append_nil, ← hrest.2]
      exact ⟨hhour, hminute⟩
    | cons c p₂ =>
      rw [List.cons_append, List.cons.injEq] at hrest
      rw [← hrest.1] at hp
      exact absurd (List.mem_append_right _ List.mem_cons_self) hp
  · rintro ⟨hhour, hminute⟩
    exact ⟨p, q, rfl, hhour, hminute⟩

theorem ends_eq_nil_of_first_colon {b : Option Char} (hp : ':' ∉ p) (hq : IsMinute u q) :
    reTimeSuffix.ends u ⟨b, p ++ ':' :: q⟩ = [] ↔ ¬ IsHour u p := by
  have h := ends_of_first_colon (u := u) (b := b) (q := q) hp
  rw [← not_iff_not, not_not]
  exact h.trans (and_iff_left hq)

/-- A first colon that belongs to no time is left. -/
theorem colon_mem_beforeMatch (hp : ':' ∉ p) (hq : ¬ IsMinute u q) :
    ':' ∈ reTimeSuffix.beforeMatch u (p ++ ':' :: q) := by
  cases hmatch : reTimeSuffix.isMatch u (p ++ ':' :: q) with
  | false =>
    rw [Regex.beforeMatch_of_not_isMatch hmatch]
    exact List.mem_append_right _ List.mem_cons_self
  | true =>
    obtain ⟨w, rest, htext, hends, hfirst⟩ := Regex.exists_first hmatch
    rw [htext, Regex.beforeMatch_of_first hends hfirst]
    by_contra hw
    obtain ⟨p₂, rfl, rfl⟩ := split_before_colon hw htext
    have hp₂ : ':' ∉ p₂ := fun hc => hp (List.mem_append_right _ hc)
    exact hq ((ends_of_first_colon hp₂).mp hends).2

/-- Of a time the hour is cut off together with the blanks before it. -/
theorem beforeMatch_of_isHour {y z : List Char} (hp : ':' ∉ y ++ z) (hq : IsMinute u q)
    (hz : IsHour u z)
    (hfirst : ∀ w₁ w₂, y = w₁ ++ w₂ → w₂ ≠ [] → ¬ IsHour u (w₂ ++ z)) :
    reTimeSuffix.beforeMatch u (y ++ z ++ ':' :: q) = y := by
  rw [List.append_assoc]
  refine Regex.beforeMatch_of_first ?_ fun w₁ w₂ hy hne => ?_
  · exact (ends_of_first_colon hz.colon_notMem).mpr ⟨hz, hq⟩
  · have hw₂ : ':' ∉ w₂ ++ z := by
      rw [hy, List.append_assoc] at hp
      exact fun hc => hp (List.mem_append_right _ hc)
    rw [← List.append_assoc]
    exact (ends_eq_nil_of_first_colon hw₂ hq).mpr (hfirst w₁ w₂ hy hne)

/-- What follows the minutes does not matter. -/
theorem beforeMatch_congr {q' : List Char} (hp : ':' ∉ p) (hq : IsMinute u q)
    (hq' : IsMinute u q') (hcolon : ':' ∉ reTimeSuffix.beforeMatch u (p ++ ':' :: q)) :
    reTimeSuffix.beforeMatch u (p ++ ':' :: q') =
      reTimeSuffix.beforeMatch u (p ++ ':' :: q) := by
  have hmatch : reTimeSuffix.isMatch u (p ++ ':' :: q) = true := by
    by_contra hno
    rw [Regex.beforeMatch_of_not_isMatch (eq_false_of_ne_true hno)] at hcolon
    exact hcolon (List.mem_append_right _ List.mem_cons_self)
  obtain ⟨w, rest, htext, hends, hfirst⟩ := Regex.exists_first hmatch
  rw [htext, Regex.beforeMatch_of_first hends hfirst] at hcolon ⊢
  obtain ⟨p₂, rfl, rfl⟩ := split_before_colon hcolon htext
  have hp₂ : ':' ∉ p₂ := fun hc => hp (List.mem_append_right _ hc)
  refine beforeMatch_of_isHour hp hq' ((ends_of_first_colon hp₂).mp hends).1 ?_
  intro w₁ w₂ hw hne
  have hw₂ : ':' ∉ w₂ ++ p₂ := by
    rw [hw, List.append_assoc] at hp
    exact fun hc => hp (List.mem_append_right _ hc)
  rw [← ends_eq_nil_of_first_colon (b := w₁.getLast?) hw₂ hq, List.append_assoc]
  exact hfirst w₁ w₂ hw hne

/-- A time behind a text that ends with no blank. An hour of one digit takes a digit before it
along. -/
theorem beforeMatch_time {y h : List Char} (hy : ∀ c ∈ y.getLast?, isSpace c = false)
    (hcolon : ':' ∉ y) (hs : ∀ c ∈ s, isSpace c = true) (hh : ∀ c ∈ h, u.isDigit c = true)
    (hlen : h.length = 1 ∨ h.length = 2)
    (hlast : h.length = 2 ∨ s ≠ [] ∨ ∀ c ∈ y.getLast?, u.isDigit c = false)
    (hq : IsMinute u q) : reTimeSuffix.beforeMatch u (y ++ (s ++ h) ++ ':' :: q) = y := by
  have hhour : IsHour u (s ++ h) := ⟨s, h, rfl, hs, hh, by omega, by omega⟩
  refine beforeMatch_of_isHour ?_ hq hhour fun w₁ w₂ hw hne => ?_
  · intro hc
    rcases List.mem_append.mp hc with hc | hc
    · exact hcolon hc
    · exact hhour.colon_notMem hc
  rintro ⟨s', h', htext, hs', hh', -, hupper⟩
  -- the last character before the blanks is none of the blanks of an earlier match
  obtain ⟨l, hl⟩ : ∃ l, w₂.getLast? = some l := by
    rw [← Option.isSome_iff_exists, List.getLast?_isSome]
    exact hne
  have hylast : y.getLast? = some l := by rw [hw, List.getLast?_append_of_ne_nil w₁ hne, hl]
  have hlspace : l ∉ s' := fun hmem => by
    have hspace := hy l hylast
    rw [hs' l hmem] at hspace
    cases hspace
  have hlw : l ∈ w₂ := List.mem_of_mem_getLast? hl
  rw [← List.append_assoc] at htext
  rcases List.append_eq_append_iff.mp htext with ⟨a, ha, -⟩ | ⟨b, hb, hb'⟩
  · exact hlspace (ha ▸ List.mem_append_left _ (List.mem_append_left _ hlw))
  · match b with
    | [] =>
      rw [List.append_nil] at hb
      exact hlspace (hb ▸ List.mem_append_left _ hlw)
    | [c] =>
      have hone : h.length = 1 := by
        rw [hb', List.length_append, List.length_singleton] at hupper
        omega
      have hdigit : u.isDigit c = true := hh' c (hb' ▸ List.mem_append_left _ List.mem_cons_self)
      have hsnil : s = [] := by
        by_contra hsne
        obtain ⟨s₀, c', rfl⟩ := s.eq_nil_or_concat'.resolve_left hsne
        rw [← List.append_assoc] at hb
        rw [← (List.append_inj' hb rfl).1] at hlspace
        exact hlspace (List.mem_append_left _ hlw)
      rw [hsnil, List.append_nil] at hb
      rw [hb, List.getLast?_append_of_ne_nil s' (by simp), List.getLast?_singleton,
        Option.some.injEq] at hl
      rcases hlast with htwo | hsne | hlast
      · omega
      · exact hsne hsnil
      · rw [hl, hlast l hylast] at hdigit
        cases hdigit
    | c :: c' :: b =>
      rw [hb', List.length_append, List.length_cons, List.length_cons] at hupper
      omega

/-! ## Dates with a time -/

theorem parseDate_of_colon (hx : ':' ∈ x) : parseDate x = none := by
  cases h : parseDate x with
  | none => rfl
  | some date => exact absurd hx (colon_notMem_of_parseDate h)

/-- A text with a colon is no date but what is before its time. -/
theorem findDate_of_colon (hx : ':' ∈ x) :
    findDate u x = parseDate (reTimeSuffix.beforeMatch u x) := by
  have hrepaired : parseDate (repairOcrChars x) = none :=
    parseDate_of_colon (mem_repairOcrChars hx (by decide))
  have hstripped : (if trim (reTimeSuffix.beforeMatch u x) != x then
      parseDate (trim (reTimeSuffix.beforeMatch u x)) else none) =
        parseDate (reTimeSuffix.beforeMatch u x) := by
    rw [parseDate_trim]
    split
    · rfl
    · next hsame =>
      have hsame : trim (reTimeSuffix.beforeMatch u x) = x := by simpa using hsame
      rw [← parseDate_trim, hsame, parseDate_of_colon hx]
  rw [findDate]
  simp only [parseDate_of_colon hx, hrepaired, hstripped, ite_self]
  simp

theorem beforeMatch_of_no_colon (hx : ':' ∉ x) : reTimeSuffix.beforeMatch u x = x := by
  refine Regex.beforeMatch_of_not_isMatch (eq_false_of_ne_true fun hmatch => ?_)
  obtain ⟨w, rest, htext, hends, -⟩ := Regex.exists_first hmatch
  obtain ⟨p, q, hrest, -⟩ := ends_reTimeSuffix.mp hends
  rw [htext, hrest] at hx
  exact hx (List.mem_append_right _ (List.mem_append_right _ List.mem_cons_self))

/-- Without a colon a date is read as it stands or with its digits repaired. -/
theorem parseDate_of_findDate (hx : ':' ∉ x) (h : findDate u x = some date) :
    parseDate x = some date ∨ (parseDate x = none ∧ parseDate (repairOcrChars x) = some date) := by
  rw [findDate] at h
  simp only [beforeMatch_of_no_colon hx, parseDate_trim, Option.orElse_eq_orElse,
    Option.orElse_eq_or, Option.or_eq_some_iff, Option.ite_none_right_eq_some] at h
  rcases h with h | ⟨hnone, ⟨-, h⟩ | ⟨-, -, h⟩⟩
  · exact Or.inl h
  · exact Or.inl h
  · exact Or.inr ⟨hnone, h⟩

/-- Every character of a date that is found is a blank or an ASCII character. -/
theorem isAscii_of_findDate (hx : ':' ∉ x) (h : findDate u x = some date) {c : Char} (hc : c ∈ x)
    (hspace : isWhitespace c = false) : isAscii c = true := by
  have hdate : IsDateChar c → isAscii c = true := by
    rintro (hchar | hchar)
    · have hcase : c.isAlpha = true ∨ c.isDigit = true := Bool.or_eq_true_iff.mp hchar
      rcases hcase with halpha | hdigit
      · exact isAscii_of_isAlpha halpha
      · have hbounds := bounds_of_isDigit hdigit
        exact decide_eq_true (by omega)
    · have hall : ∀ a ∈ [' ', '-', '/', '.'], isAscii a = true := forall_mem_of_all (by decide)
      exact hall c hchar
  rcases parseDate_of_findDate hx h with h | ⟨-, h⟩
  · exact hdate (isDateChar_of_parseDate h hc hspace)
  · by_cases hletter : c ∈ ocrLetters
    · have hall : ∀ a ∈ ocrLetters, isAscii a = true := forall_mem_of_all (by decide)
      exact hall c hletter
    · exact hdate (isDateChar_of_parseDate h (mem_repairOcrChars hc hletter) hspace)

theorem notMem_of_spaces {c : Char} (hs : ∀ a ∈ s, isWhitespace a = true)
    (hc : isWhitespace c = false) : c ∉ s := by
  intro hmem
  rw [hs c hmem] at hc
  cases hc

/-- Two digits, or digits with seconds behind them. -/
structure IsTime (u : Unicode) (h q : List Char) : Prop where
  hour : AllDigits h
  length : h.length = 1 ∨ h.length = 2
  minute : IsMinute u q

theorem AllDigits.unicode {h : List Char} (hh : AllDigits h) : ∀ c ∈ h, u.isDigit c = true := by
  intro c hc
  have hascii : isAscii c = true := by
    have hdigit := hh c hc
    simp only [Char.isDigit, ge_iff_le, Bool.and_eq_true, decide_eq_true_eq,
      UInt32.le_iff_toNat_le] at hdigit
    have hupper : c.toNat ≤ 57 := hdigit.2
    rw [isAscii, decide_eq_true_eq]
    omega
  rw [u.isDigit_ascii c hascii, hh c hc]

/-- An hour of one digit behind a digit leaves the text without that digit, which is no text of
the same date. -/
theorem parseDate_of_glued_hour {z : List Char} {c : Char} {h : List Char} (ht : IsTime u h q)
    (hone : h.length = 1) (hc : c.isDigit = true) (hcolon : ':' ∉ z ++ [c])
    (hd : findDate u (z ++ [c]) = some date) :
    parseDate (reTimeSuffix.beforeMatch u (z ++ [c] ++ h ++ ':' :: q)) ≠ some date := by
  have hz : parseDate z ≠ some date := by
    intro hz
    rcases parseDate_of_findDate hcolon hd with hparse | ⟨hnone, hrepaired⟩
    · exact parseDate_of_snoc hc hparse hz
    · rw [repairOcrChars_snoc hz hc, hnone] at hrepaired
      cases hrepaired
  -- the blanks before the last digit go with the hour
  let y := (z.reverse.dropWhile isSpace).reverse
  let s := (z.reverse.takeWhile isSpace).reverse
  have hzys : z = y ++ s := by
    rw [← List.reverse_append, List.takeWhile_append_dropWhile, List.reverse_reverse]
  have hs : ∀ a ∈ s, isSpace a = true := fun a ha =>
    List.mem_takeWhile_imp (List.mem_reverse.mp ha)
  have hy : ∀ a ∈ y.getLast?, isSpace a = false := by
    intro a ha
    rw [List.getLast?_reverse] at ha
    have hhead := List.head?_dropWhile_not isSpace z.reverse
    rw [ha] at hhead
    exact hhead
  have hhour : ∀ a ∈ c :: h, u.isDigit a = true := by
    refine AllDigits.unicode fun a ha => ?_
    rcases List.mem_cons.mp ha with rfl | ha
    · exact hc
    · exact ht.hour a ha
  have hbefore : reTimeSuffix.beforeMatch u (y ++ (s ++ c :: h) ++ ':' :: q) = y := by
    refine beforeMatch_time hy (fun hmem => hcolon ?_) hs hhour (Or.inr (by simp [hone]))
      (Or.inl (by simp [hone])) ht.minute
    rw [hzys]
    exact List.mem_append_left _ (List.mem_append_left _ hmem)
  have htext : z ++ [c] ++ h ++ ':' :: q = y ++ (s ++ c :: h) ++ ':' :: q := by
    rw [hzys]
    simp
  rw [htext, hbefore, ← parseDate_append_spaces hs, ← hzys]
  exact hz

theorem not_isDigit_newline : u.isDigit '\n' = false := by
  rw [u.isDigit_ascii '\n' (by decide)]
  rfl

theorem IsMinute.newline_notMem (h : IsMinute u q) : '\n' ∉ q := by
  obtain ⟨m₁, m₂, r, rfl, hm₁, hm₂, hr⟩ := h
  intro hmem
  rcases List.mem_cons.mp hmem with rfl | hmem
  · rw [not_isDigit_newline] at hm₁
    cases hm₁
  · rcases List.mem_cons.mp hmem with rfl | hmem
    · rw [not_isDigit_newline] at hm₂
      cases hm₂
    · exact hr hmem

theorem IsMinute.append_iff (h : IsMinute u q) {y : List Char} :
    IsMinute u (q ++ y) ↔ '\n' ∉ y := by
  constructor
  · exact fun h' hmem => h'.newline_notMem (List.mem_append_right _ hmem)
  · obtain ⟨m₁, m₂, r, rfl, hm₁, hm₂, hr⟩ := h
    refine fun hy => ⟨m₁, m₂, r ++ y, rfl, hm₁, hm₂, fun hmem => ?_⟩
    rcases List.mem_append.mp hmem with hmem | hmem
    · exact hr hmem
    · exact hy hmem

/-- Behind a date that has a time of its own everything on its line is dropped. -/
theorem findDate_time_of_colon {r e y : List Char} (hp : ':' ∉ p)
    (hd : findDate u (p ++ ':' :: r) = some date) (hy : '\n' ∉ y) :
    findDate u (p ++ ':' :: r ++ e ++ y) = some date ↔ '\n' ∉ ':' :: r ++ e := by
  rw [findDate_of_colon (List.mem_append_right _ List.mem_cons_self)] at hd
  have hbefore : ':' ∉ reTimeSuffix.beforeMatch u (p ++ ':' :: r) := colon_notMem_of_parseDate hd
  have hr : IsMinute u r := by
    by_contra hr
    exact hbefore (colon_mem_beforeMatch hp hr)
  have htext : p ++ ':' :: r ++ e ++ y = p ++ ':' :: (r ++ (e ++ y)) := by simp
  have hline : '\n' ∉ ':' :: r ++ e ↔ '\n' ∉ e ++ y := by
    have hr := hr.newline_notMem
    simp [hr, hy]
  rw [htext, findDate_of_colon (List.mem_append_right _ List.mem_cons_self), hline]
  constructor
  · intro hfound hmem
    refine colon_notMem_of_parseDate hfound (colon_mem_beforeMatch hp fun hminute => ?_)
    exact hr.append_iff.mp hminute hmem
  · intro hclean
    rw [beforeMatch_congr hp hr (hr.append_iff.mpr hclean) hbefore]
    exact hd

/-- Behind a date without a time the time is cut off, unless its hour takes a digit along. -/
theorem findDate_time_of_no_colon {e h : List Char} (ht : IsTime u h q) (hdcolon : ':' ∉ d)
    (hdlast : ∀ c ∈ d.getLast?, isWhitespace c = false)
    (he : ∀ c ∈ e, isWhitespace c = true) (hd : findDate u d = some date) :
    findDate u (d ++ e ++ (h ++ ':' :: q)) = some date ↔
      parseDate d = some date ∧ (h.length = 1 → ∀ c ∈ (d ++ e).getLast?, c.isDigit = false) := by
  have hcolon : ':' ∈ d ++ e ++ (h ++ ':' :: q) :=
    List.mem_append_right _ (List.mem_append_right _ List.mem_cons_self)
  rw [findDate_of_colon hcolon]
  by_cases hglued : h.length = 1 → ∀ c ∈ (d ++ e).getLast?, c.isDigit = false
  · have hlast : h.length = 2 ∨ e ≠ [] ∨ ∀ c ∈ d.getLast?, u.isDigit c = false := by
      rcases ht.length with hone | htwo
      · by_cases hnil : e = []
        · right; right
          intro c hc
          rw [hnil, List.append_nil] at hglued
          rw [u.isDigit_ascii c (isAscii_of_findDate hdcolon hd (List.mem_of_mem_getLast? hc)
            (hdlast c hc))]
          exact hglued hone c hc
        · exact Or.inr (Or.inl hnil)
      · exact Or.inl htwo
    have htext : d ++ e ++ (h ++ ':' :: q) = d ++ (e ++ h) ++ ':' :: q := by simp
    rw [htext, beforeMatch_time hdlast hdcolon he ht.hour.unicode ht.length hlast ht.minute]
    exact (and_iff_left hglued).symm
  · refine iff_of_false ?_ fun h => hglued h.2
    push Not at hglued
    obtain ⟨hone, c, hc, hdigit⟩ := hglued
    have hcdigit : c.isDigit = true := by simpa using hdigit
    -- the last character is a digit, so no blank follows the date
    have henil : e = [] := by
      by_contra hne
      rw [List.getLast?_append_of_ne_nil d hne] at hc
      have hspace := he c (List.mem_of_mem_getLast? hc)
      rw [show isWhitespace c = false from not_isSpace_of_isDigit hcdigit] at hspace
      cases hspace
    subst henil
    rw [List.append_nil] at hc
    obtain ⟨z, rfl⟩ := List.getLast?_eq_some_iff.mp hc
    have htext : z ++ [c] ++ [] ++ (h ++ ':' :: q) = z ++ [c] ++ h ++ ':' :: q := by simp
    rw [htext]
    exact parseDate_of_glued_hour ht hone hcdigit hdcolon hd

/-! ## What is around a date -/

/-- Different days are shown as different texts. -/
theorem ok_injective {date' : NaiveDate} (h : InCentury date) (h' : InCentury date')
    (hok : ParsedDate.ok date = .ok date') : date = date' := by
  have hdisplay : fmtDisplay date = fmtDisplay date' := congrArg ParsedDate.display hok
  obtain ⟨dd, mm, yyyy, hparts⟩ := h.exists_parts
  obtain ⟨dd', mm', yyyy', hparts'⟩ := h'.exists_parts
  have hparse := (parseDate_fmtDisplay hparts h).2
  rw [hdisplay, (parseDate_fmtDisplay hparts' h').2] at hparse
  exact (Option.some.inj hparse).symm

theorem normalize_eq_ok_iff {raw : List Char} (h : InCentury date) :
    normalizeTransactionDate u raw = .ok date ↔ findDate u (trim raw) = some date := by
  unfold normalizeTransactionDate
  cases hfound : findDate u (trim raw) with
  | none =>
    refine iff_of_false (fun hfail => ?_) (by simp)
    have hvalid : false = true := congrArg ParsedDate.valid hfail
    cases hvalid
  | some date' =>
    rw [Option.some.injEq]
    constructor
    · exact fun hok => ok_injective (inYears_findDate date' hfound) h hok
    · rintro rfl
      rfl

/-- A text is trimmed on the left of what is put behind it. -/
theorem trim_append {y : List Char} (hd : trim d ≠ [])
    (hy : ∃ c, y.getLast? = some c ∧ isWhitespace c = false) :
    ∃ a b, (∀ c ∈ a, isWhitespace c = true) ∧ (∀ c ∈ b, isWhitespace c = true) ∧
      d = a ++ (trim d ++ b) ∧ trim (d ++ y) = trim d ++ b ++ y := by
  obtain ⟨c, hlast, hc⟩ := hy
  refine ⟨d.takeWhile isWhitespace,
    ((d.dropWhile isWhitespace).reverse.takeWhile isWhitespace).reverse,
    fun c hc => List.mem_takeWhile_imp hc,
    fun c hc => List.mem_takeWhile_imp (List.mem_reverse.mp hc), ?_, ?_⟩
  · rw [trim, ← List.reverse_append, List.takeWhile_append_dropWhile, List.reverse_reverse,
      List.takeWhile_append_dropWhile]
  · have hne : d.dropWhile isWhitespace ≠ [] := by
      intro hnil
      rw [trim, hnil] at hd
      exact hd rfl
    have hempty : (d.dropWhile isWhitespace).isEmpty = false :=
      List.isEmpty_eq_false_iff.mpr hne
    have hright : ∀ w : List Char, ((w ++ y).reverse.dropWhile isWhitespace).reverse = w ++ y := by
      intro w
      obtain ⟨y', rfl⟩ := List.getLast?_eq_some_iff.mp hlast
      rw [List.reverse_append, List.reverse_append, List.reverse_singleton, List.append_assoc,
        List.singleton_append, List.dropWhile_cons_of_neg (by simp [hc])]
      simp
    calc trim (d ++ y) = ((d.dropWhile isWhitespace ++ y).reverse.dropWhile isWhitespace).reverse := by
          rw [trim, List.dropWhile_append, hempty]
          rfl
      _ = d.dropWhile isWhitespace ++ y := hright _
      _ = _ := by
          rw [trim, ← List.reverse_append, List.takeWhile_append_dropWhile, List.reverse_reverse]

theorem digitsOf_allDigits {k : ℕ} (h : k < 100) : AllDigits (digitsOf k) := (digitsOf_spec h).2.1

/-- A time is one. -/
theorem TimeOfDay.isTime (t : TimeOfDay) : IsTime u t.hourText t.afterColon := by
  obtain ⟨hhour, hminute, hsecond, hone⟩ := t.valid
  have hhours := digitsOf_allDigits (show t.hour < 100 by omega)
  refine ⟨?_, ?_, ?_⟩
  · unfold hourText
    split
    · exact hhours
    · next hshort =>
      have hlt := hone (eq_false_of_ne_true hshort)
      intro c hc
      refine hhours c ?_
      rw [List.mem_singleton.mp hc, digitsOf, Nat.mod_eq_of_lt hlt]
      exact List.mem_cons_of_mem _ List.mem_cons_self
  · unfold hourText
    split
    · exact Or.inr rfl
    · exact Or.inl rfl
  · have hminutes := (digitsOf_allDigits (show t.minute < 100 by omega)).unicode (u := u)
    refine ⟨_, _, t.secondText, rfl, hminutes _ List.mem_cons_self,
      hminutes _ (List.mem_cons_of_mem _ List.mem_cons_self), ?_⟩
    unfold secondText
    split
    · next s hs =>
      have hseconds := digitsOf_allDigits (show s < 100 from (hsecond s hs).trans (by decide))
      intro hmem
      rcases List.mem_cons.mp hmem with hcolon | hmem
      · cases hcolon
      · exact hseconds.notMem (by decide) hmem
    · simp

/-- A time ends with a digit. -/
theorem TimeOfDay.getLast?_text (t : TimeOfDay) :
    ∃ c, t.text.getLast? = some c ∧ isWhitespace c = false := by
  obtain ⟨-, hminute, hsecond, -⟩ := t.valid
  have hdigit : ∀ k, k < 100 → isWhitespace (Nat.digitChar (k % 10)) = false := fun k hk =>
    not_isSpace_of_isDigit (digitsOf_allDigits hk _ (List.mem_cons_of_mem _ List.mem_cons_self))
  have htext : t.text = t.hourText ++ ':' :: (digitsOf t.minute ++ t.secondText) := rfl
  cases hs : t.second with
  | none =>
    refine ⟨_, ?_, hdigit t.minute (by omega)⟩
    have hsecondText : t.secondText = [] := by rw [secondText, hs]
    simp [htext, hsecondText, digitsOf]
  | some s =>
    refine ⟨_, ?_, hdigit s ((hsecond s hs).trans (by decide))⟩
    have hsecondText : t.secondText = ':' :: digitsOf s := by rw [secondText, hs]
    simp [htext, hsecondText, digitsOf]

theorem hourText_length (t : TimeOfDay) : t.hourText.length = 1 ↔ t.twoDigitHour = false := by
  unfold TimeOfDay.hourText
  cases t.twoDigitHour <;> simp [digitsOf]

theorem ne_nil_of_findDate (h : findDate u x = some date) : x ≠ [] := by
  rintro rfl
  have hparse : parseDate [] = none := by decide
  have hrepaired : parseDate (repairOcrChars []) = none := by decide
  rcases parseDate_of_findDate (by simp) h with h | ⟨-, h⟩
  · rw [hparse] at h
    cases h
  · rw [hrepaired] at h
    cases h

theorem readAsWritten_iff :
    ReadAsWritten u d ↔ (parseDate (trim d)).isSome = true ∨
      (parseDate (reTimeSuffix.beforeMatch u (trim d))).isSome = true := by
  rw [ReadAsWritten, isValidDateStr, isValidDateStr, parseDate_trim (reTimeSuffix.beforeMatch _ _)]

/-- **A time behind a date, glued to it or after a blank or a line break, is dropped exactly if the
date is read without digits that are repaired, no line ends behind its first colon and no hour of
one digit is glued to a digit.** -/
theorem timeSuffix_dropped_iff (u : Unicode) (d sep : List Char) (t : TimeOfDay)
    (hsep : sep = [] ∨ sep = [' '] ∨ sep = ['\n'])
    (hd : (normalizeTransactionDate u d).valid = true) :
    normalizeTransactionDate u (d ++ sep ++ t.text) = normalizeTransactionDate u d ↔
      ReadAsWritten u d ∧ '\n' ∉ (d ++ sep).dropWhile (· ≠ ':') ∧
        (':' ∉ d → t.twoDigitHour = false → ∀ c ∈ (d ++ sep).getLast?, c.isDigit = false) := by
  obtain ⟨date, hfound⟩ : ∃ date, findDate u (trim d) = some date := by
    cases hfound : findDate u (trim d) with
    | none =>
      rw [normalizeTransactionDate, hfound] at hd
      cases hd
    | some date => exact ⟨date, rfl⟩
  have hcentury : InCentury date := inYears_findDate date hfound
  have hsepspace : ∀ c ∈ sep, isWhitespace c = true := by
    rcases hsep with rfl | rfl | rfl <;> exact forall_mem_of_all (by decide)
  obtain ⟨c, hlast, hc⟩ := t.getLast?_text
  obtain ⟨a, b, ha, hb, hda, htrim⟩ := trim_append (y := sep ++ t.text) (ne_nil_of_findDate hfound)
    ⟨c, by rw [List.getLast?_append, hlast, Option.some_or], hc⟩
  have hbsep : ∀ c ∈ b ++ sep, isWhitespace c = true := by
    intro c hc
    rcases List.mem_append.mp hc with hc | hc
    · exact hb c hc
    · exact hsepspace c hc
  have htext : trim d ++ b ++ (sep ++ t.text) =
      trim d ++ (b ++ sep) ++ (t.hourText ++ ':' :: t.afterColon) := by
    simp [TimeOfDay.text]
  have hdsep : d ++ sep = a ++ (trim d ++ (b ++ sep)) := by
    conv_lhs => rw [hda]
    simp
  have hcolon : ':' ∈ d ↔ ':' ∈ trim d := by
    conv_lhs => rw [hda]
    have hacolon : ':' ∉ a := notMem_of_spaces ha (by decide)
    have hbcolon : ':' ∉ b := notMem_of_spaces hb (by decide)
    simp [hacolon, hbcolon]
  have hline : (d ++ sep).dropWhile (· ≠ ':') = (trim d ++ (b ++ sep)).dropWhile (· ≠ ':') := by
    rw [hdsep, List.dropWhile_append_of_pos]
    intro c hc
    rw [decide_eq_true_eq]
    rintro rfl
    exact notMem_of_spaces ha (by decide) hc
  rw [(normalize_eq_ok_iff hcentury).mpr hfound, normalize_eq_ok_iff hcentury, List.append_assoc,
    htrim, htext, hline, hcolon, readAsWritten_iff]
  by_cases hdcolon : ':' ∈ trim d
  · obtain ⟨p, r, hpr, hp⟩ := List.eq_append_cons_of_mem hdcolon
    have hfree : '\n' ∉ t.hourText ++ ':' :: t.afterColon := by
      have htime := t.isTime (u := u)
      have hhour := htime.hour.notMem (c := '\n') (by decide)
      have hminute := htime.minute.newline_notMem
      simp [hhour, hminute]
    have hwritten : parseDate (reTimeSuffix.beforeMatch u (trim d)) = some date := by
      rw [← findDate_of_colon hdcolon]
      exact hfound
    have hdrop : (trim d ++ (b ++ sep)).dropWhile (· ≠ ':') = ':' :: r ++ (b ++ sep) := by
      rw [hpr, List.append_assoc, List.dropWhile_append_of_pos]
      · simp
      · intro c hc
        rw [decide_eq_true_eq]
        rintro rfl
        exact hp hc
    rw [hdrop, hwritten]
    rw [hpr] at hfound ⊢
    rw [findDate_time_of_colon hp hfound hfree]
    simp
  · have hdrop : (trim d ++ (b ++ sep)).dropWhile (· ≠ ':') = [] := by
      rw [List.dropWhile_eq_nil_iff]
      intro c hc
      rw [decide_eq_true_eq]
      rintro rfl
      rcases List.mem_append.mp hc with hc | hc
      · exact hdcolon hc
      · exact notMem_of_spaces hbsep (by decide) hc
    have hdate : (parseDate (trim d)).isSome = true ↔ parseDate (trim d) = some date := by
      rcases parseDate_of_findDate hdcolon hfound with h | ⟨h, -⟩ <;> simp [h]
    have hgetLast : (d ++ sep).getLast? = (trim d ++ (b ++ sep)).getLast? := by
      rw [hdsep, List.getLast?_append_of_ne_nil a]
      exact List.append_ne_nil_of_left_ne_nil (ne_nil_of_findDate hfound) _
    rw [findDate_time_of_no_colon t.isTime hdcolon (getLast?_trim d) hbsep hfound, hdrop,
      beforeMatch_of_no_colon hdcolon, or_self, hdate, hgetLast, hourText_length]
    simp [hdcolon]

def halfPastNine : TimeOfDay := ⟨9, 30, none, false, by decide⟩

theorem timeSuffix_dropped_iff_blank :
    normalizeTransactionDate .ascii ("15/01/2024".toList ++ [' '] ++ halfPastNine.text) =
        normalizeTransactionDate .ascii "15/01/2024".toList ↔
      ReadAsWritten .ascii "15/01/2024".toList ∧
        '\n' ∉ ("15/01/2024".toList ++ [' ']).dropWhile (· ≠ ':') ∧
        (':' ∉ "15/01/2024".toList → halfPastNine.twoDigitHour = false →
          ∀ c ∈ ("15/01/2024".toList ++ [' ']).getLast?, c.isDigit = false) :=
  timeSuffix_dropped_iff .ascii "15/01/2024".toList [' '] halfPastNine (Or.inr (Or.inl rfl))
    (by decide +kernel)

/-- Behind a year the hour leaves no date, behind a day it leaves another one. -/
theorem not_timeSuffix_dropped :
    normalizeTransactionDate .ascii "15/01/2024".toList =
        { display := "15/01/2024", ts := 1705276800000, valid := true } ∧
      (normalizeTransactionDate .ascii ("15/01/2024".toList ++ halfPastNine.text)).valid = false ∧
      normalizeTransactionDate .ascii "2024-01-15".toList =
        { display := "15/01/2024", ts := 1705276800000, valid := true } ∧
      normalizeTransactionDate .ascii ("2024-01-15".toList ++ halfPastNine.text) =
        { display := "01/01/2024", ts := 1704067200000, valid := true } := by
  decide +kernel

end

end Desktop.Parser
