import BankStatementProcessor.Desktop.Filters
import BankStatementProcessor.Infra.Calendar
import BankStatementProcessor.Infra.F64
import BankStatementProcessor.Infra.Regex
import BankStatementProcessor.Infra.Words
import Mathlib.Data.List.SplitBy
import Mathlib.Data.List.TakeWhile

/-!
# Dates

`normalize_transaction_date` and `normalize_excel_date`.

The patterns of the source take the digits of any script for `\d`, but a date with one beyond
ASCII then fails to parse, so only ASCII digits are looked for. The pattern of the time is
matched as it stands.
-/

namespace Desktop.Parser

open Infra

structure ParsedDate where
  display : String
  ts : ℤ
  valid : Bool
deriving DecidableEq, Repr

def ParsedDate.fail (display : List Char) : ParsedDate :=
  { display := String.ofList display, ts := 0, valid := false }

/-! ## Days -/

def yearOk (year : ℤ) : Bool := 2000 ≤ year && year ≤ 2099

/-- `{:02}` -/
def twoDigits (n : ℕ) : String := if n < 10 then s!"0{n}" else toString n

def fmtDisplay (date : NaiveDate) : String :=
  s!"{twoDigits date.day}/{twoDigits date.month}/{date.year}"

def ParsedDate.ok (date : NaiveDate) : ParsedDate :=
  { display := fmtDisplay date, ts := date.timestampMillis, valid := true }

/-- A day of a year from 2000 to 2099. -/
def dateOf (year : ℤ) (month day : ℕ) : Option NaiveDate :=
  if yearOk year then NaiveDate.fromYmdOpt year.toNat month day else none

def makeDate (dd : List Char) (mm : ℕ) (yy : List Char) : Option NaiveDate := do
  let d ← parseU32 dd
  let rawY ← parseI32 yy
  dateOf (if yy.length ≤ 2 then 2000 + rawY else rawY) mm d

def monthNum (s : List Char) : Option ℕ :=
  match String.ofList (s.map Char.toLower) with
  | "jan" | "january" => some 1
  | "feb" | "february" => some 2
  | "mar" | "march" => some 3
  | "apr" | "april" => some 4
  | "may" => some 5
  | "jun" | "june" => some 6
  | "jul" | "july" => some 7
  | "aug" | "august" => some 8
  | "sep" | "september" => some 9
  | "oct" | "october" => some 10
  | "nov" | "november" => some 11
  | "dec" | "december" => some 12
  | _ => none

/-! ## The patterns -/

/-- A run of at least `lower` and at most `upper` characters of a class, and the rest. -/
def classRun (p : Char → Bool) (lower upper : ℕ) (cs : List Char) :
    Option (List Char × List Char) :=
  let (run, rest) := cs.span p
  if lower ≤ run.length ∧ run.length ≤ upper then some (run, rest) else none

def separator (seps : List Char) : List Char → Option (List Char)
  | c :: cs => if seps.contains c then some cs else none
  | [] => none

/-- The end of the text. -/
def ending : List Char → Option Unit
  | [] => some ()
  | _ :: _ => none

/-- `^(\d{1,2})[/\-.](\d{1,2})[/\-.](\d{2,4})$` -/
def ddMmYyyy (s : List Char) : Option NaiveDate := do
  let (dd, rest) ← classRun Char.isDigit 1 2 s
  let rest ← separator ['/', '-', '.'] rest
  let (mm, rest) ← classRun Char.isDigit 1 2 rest
  let rest ← separator ['/', '-', '.'] rest
  let (yy, rest) ← classRun Char.isDigit 2 4 rest
  ending rest
  makeDate dd (← parseU32 mm) yy

/-- `^(\d{1,2})[\s/.\-]([A-Za-z]{3,})[\s/.\-](\d{2,4})$` -/
def ddMonYyyy (s : List Char) : Option NaiveDate := do
  let (dd, rest) ← classRun Char.isDigit 1 2 s
  let rest ← separator [' ', '-', '/', '.'] rest
  let (month, rest) ← classRun Char.isAlpha 3 rest.length rest
  let rest ← separator [' ', '-', '/', '.'] rest
  let (yy, rest) ← classRun Char.isDigit 2 4 rest
  ending rest
  makeDate dd (← monthNum month) yy

/-- `^(\d{1,2})([A-Za-z]{3,})(\d{2,4})$` -/
def ddMonYyyyNoSep (s : List Char) : Option NaiveDate := do
  let (dd, rest) ← classRun Char.isDigit 1 2 s
  let (month, rest) ← classRun Char.isAlpha 3 rest.length rest
  let (yy, rest) ← classRun Char.isDigit 2 4 rest
  ending rest
  makeDate dd (← monthNum month) yy

/-- `^(\d{4})[/\-](\d{1,2})[/\-](\d{1,2})$` -/
def iso (s : List Char) : Option NaiveDate := do
  let (y, rest) ← classRun Char.isDigit 4 4 s
  let rest ← separator ['/', '-'] rest
  let (m, rest) ← classRun Char.isDigit 1 2 rest
  let rest ← separator ['/', '-'] rest
  let (d, rest) ← classRun Char.isDigit 1 2 rest
  ending rest
  dateOf (← parseI32 y) (← parseU32 m) (← parseU32 d)

/-- `^[0-9]{8}$` -/
def compact8 (s : List Char) : Option NaiveDate := do
  let (digits, rest) ← classRun Char.isDigit 8 8 s
  ending rest
  dateOf (← parseI32 (digits.take 4)) (← parseU32 ((digits.drop 4).take 2))
    (← parseU32 (digits.drop 6))

/-- The words of a text with one blank between them. -/
def joinWords (s : List Char) : List Char :=
  [' '].intercalate ((s.splitOnP isWhitespace).filter (!·.isEmpty))

def parseDate (s : List Char) : Option NaiveDate :=
  let s := joinWords s
  ddMmYyyy s <|> ddMonYyyy s <|> ddMonYyyyNoSep s <|> iso s <|> compact8 s

def isValidDateStr (s : List Char) : Bool := (parseDate (trim s)).isSome

/-! ## What is tried -/

/-- `\s*\d{1,2}:\d{2}(?::\d{2})?.*$` -/
def reTimeSuffix : Regex :=
  .seqs [.spaces, .digit, .opt .digit, .char ':', .digit, .digit,
    .opt (.seqs [.char ':', .digit, .digit]), .star .any, .stop]

/-- A token of up to four digits and characters that are taken for digits. -/
def repairToken (tok : List Char) : List Char :=
  if tok.length ≤ 4 && tok.all fun c => c.isDigit || "OoIlSZBGq".toList.contains c then
    tok.map fun c =>
      match c with
      | 'O' | 'o' => '0'
      | 'I' | 'l' => '1'
      | 'S' => '5'
      | 'Z' => '2'
      | 'B' => '8'
      | 'G' => '6'
      | 'q' => '9'
      | c => c
  else tok

/-- The tokens between runs of separators are repaired. -/
def repairOcrChars (s : List Char) : List Char :=
  let isSep := fun c => c == '/' || c == '-' || c == '.' || isSpace c
  (s.splitBy fun a b => isSep a == isSep b).flatMap fun run =>
    if run.any isSep then run else repairToken run

/-- The text as it is, without a time at its end, and with its digits repaired. -/
def findDate (u : Unicode) (original : List Char) : Option NaiveDate :=
  let stripped := trim (reTimeSuffix.beforeMatch u original)
  let repaired := repairOcrChars original
  parseDate original <|> (if stripped != original then parseDate stripped else none) <|>
    (if repaired != original then parseDate repaired else none)

def normalizeTransactionDate (u : Unicode) (raw : List Char) : ParsedDate :=
  match findDate u (trim raw) with
  | some date => .ok date
  | none => .fail (trim raw)

/-- The day before the first day of 1900. -/
def excelEpoch : NaiveDate := ⟨1899, 12, 30, by decide⟩

def normalizeExcelDate (serial : F64) : Option ParsedDate :=
  match serial with
  | .finite q =>
    if 36526 ≤ q ∧ q ≤ 54789 then
      let date := excelEpoch.addDays ⌊q⌋.toNat
      if yearOk date.year then some (.ok date) else none
    else none
  | _ => none

/-! ## What a date can be -/

/-- The text and the time of a day from 2000 to 2099. -/
def ParsedDate.IsDay (nd : ParsedDate) : Prop :=
  ∃ date : NaiveDate, 2000 ≤ date.year ∧ date.year ≤ 2099 ∧ nd = .ok date

/-- Every day that may come out lies in the years that are read. -/
def InYears (date : Option NaiveDate) : Prop := ∀ d ∈ date, 2000 ≤ d.year ∧ d.year ≤ 2099

section

variable {u : Unicode} {s raw : List Char} {nd : ParsedDate}

theorem inYears_none : InYears none := by
  rintro d ⟨⟩

theorem InYears.bind {α : Type} {x : Option α} {f : α → Option NaiveDate}
    (h : ∀ a, InYears (f a)) : InYears (x >>= f) := by
  intro d hd
  obtain ⟨a, _, ha⟩ := Option.bind_eq_some_iff.mp hd
  exact h a d ha

theorem InYears.orElse {x y : Option NaiveDate} (hx : InYears x) (hy : InYears y) :
    InYears (x <|> y) := by
  cases x with
  | none => exact hy
  | some d => exact hx

theorem inYears_dateOf {year : ℤ} {month day : ℕ} : InYears (dateOf year month day) := by
  unfold dateOf
  split
  · next hyear =>
    intro d hd
    obtain ⟨hvalid, hd⟩ := Option.dite_none_right_eq_some.mp hd
    cases hd
    simp only [yearOk, Bool.and_eq_true, decide_eq_true_eq] at hyear
    show 2000 ≤ year.toNat ∧ year.toNat ≤ 2099
    omega
  · exact inYears_none

theorem inYears_makeDate {dd yy : List Char} {mm : ℕ} : InYears (makeDate dd mm yy) :=
  .bind fun _ => .bind fun _ => inYears_dateOf

theorem inYears_parseDate : InYears (parseDate s) := by
  refine .orElse ?_ (.orElse ?_ (.orElse ?_ (.orElse ?_ ?_)))
  · exact .bind fun _ => .bind fun _ => .bind fun _ => .bind fun _ => .bind fun _ => .bind fun _ =>
      .bind fun _ => inYears_makeDate
  · exact .bind fun _ => .bind fun _ => .bind fun _ => .bind fun _ => .bind fun _ => .bind fun _ =>
      .bind fun _ => inYears_makeDate
  · exact .bind fun _ => .bind fun _ => .bind fun _ => .bind fun _ => .bind fun _ =>
      inYears_makeDate
  · exact .bind fun _ => .bind fun _ => .bind fun _ => .bind fun _ => .bind fun _ => .bind fun _ =>
      .bind fun _ => .bind fun _ => .bind fun _ => inYears_dateOf
  · exact .bind fun _ => .bind fun _ => .bind fun _ => .bind fun _ => .bind fun _ => inYears_dateOf

theorem inYears_findDate : InYears (findDate u s) := by
  refine .orElse inYears_parseDate (.orElse ?_ ?_)
  · split
    · exact inYears_parseDate
    · exact inYears_none
  · split
    · exact inYears_parseDate
    · exact inYears_none

/-- A date that is valid is a day. -/
theorem isDay_normalizeTransactionDate (h : (normalizeTransactionDate u raw).valid = true) :
    (normalizeTransactionDate u raw).IsDay := by
  unfold normalizeTransactionDate at h ⊢
  cases hfound : findDate u (trim raw) with
  | some date =>
    obtain ⟨hlower, hupper⟩ := inYears_findDate date hfound
    exact ⟨date, hlower, hupper, rfl⟩
  | none =>
    rw [hfound] at h
    cases h

theorem isDay_normalizeExcelDate {serial : F64} (h : normalizeExcelDate serial = some nd) :
    nd.IsDay := by
  unfold normalizeExcelDate at h
  split at h
  · split at h
    · simp only at h
      split at h
      · next hyear =>
        cases h
        simp only [yearOk, Bool.and_eq_true, decide_eq_true_eq] at hyear
        exact ⟨_, by omega, by omega, rfl⟩
      · cases h
    · cases h
  · cases h

/-! ## What is no date -/

/-- Few digits and nothing else. -/
def IsShortNumber (s : List Char) : Prop := s.length ≤ 4 ∧ ∀ c ∈ s, c.isDigit = true

theorem IsShortNumber.sublist {s' : List Char} (h : IsShortNumber s) (hs : s'.Sublist s) :
    IsShortNumber s' :=
  ⟨hs.length_le.trans h.1, fun c hc => h.2 c (hs.subset hc)⟩

theorem not_isSpace_of_isDigit {c : Char} (h : c.isDigit = true) : isSpace c = false := by
  simp only [Char.isDigit, ge_iff_le, Bool.and_eq_true, decide_eq_true_eq,
    UInt32.le_iff_toNat_le] at h
  have hlower : 48 ≤ c.toNat := h.1
  have hupper : c.toNat ≤ 57 := h.2
  simp [isSpace]
  omega

theorem trim_sublist : (trim s).Sublist s := by
  refine (List.dropWhile_sublist _).reverse.trans ?_
  rw [List.reverse_reverse]
  exact List.dropWhile_sublist _

/-- A text that neither begins nor ends with a blank. -/
theorem trim_of_ends (hhead : ∀ c ∈ s.head?, isWhitespace c = false)
    (hlast : ∀ c ∈ s.getLast?, isWhitespace c = false) : trim s = s := by
  have hdrop : ∀ ds : List Char, (∀ c ∈ ds.head?, isWhitespace c = false) →
      ds.dropWhile isWhitespace = ds := by
    intro ds hds
    cases ds with
    | nil => rfl
    | cons d ds => rw [List.dropWhile_cons_of_neg (by simp [hds d rfl])]
  rw [trim, hdrop s hhead, hdrop s.reverse (by simpa using hlast), List.reverse_reverse]

theorem trim_eq_self (h : ∀ c ∈ s, isWhitespace c = false) : trim s = s :=
  trim_of_ends (fun c hc => h c (List.mem_of_mem_head? hc))
    (fun c hc => h c (List.mem_of_mem_getLast? hc))

theorem head?_trim (s : List Char) : ∀ c ∈ (trim s).head?, isWhitespace c = false := by
  intro c hc
  have hprefix : trim s <+: s.dropWhile isWhitespace := by
    rw [← List.reverse_suffix, trim, List.reverse_reverse]
    exact List.dropWhile_suffix _
  obtain ⟨y, hy⟩ := hprefix
  have hhead := List.head?_dropWhile_not isWhitespace s
  rw [← hy] at hhead
  cases htrim : trim s with
  | nil =>
    rw [htrim] at hc
    cases hc
  | cons d ds =>
    rw [htrim] at hc hhead
    cases hc
    exact hhead

theorem getLast?_trim (s : List Char) : ∀ c ∈ (trim s).getLast?, isWhitespace c = false := by
  intro c hc
  have hhead := List.head?_dropWhile_not isWhitespace (s.dropWhile isWhitespace).reverse
  rw [trim, List.getLast?_reverse] at hc
  rw [hc] at hhead
  exact hhead

/-- A joined text begins with the first piece and ends with the last one. -/
theorem trim_intercalate {sep : List Char} {ps : List (List Char)}
    (h : ∀ p ∈ ps, p ≠ [] ∧ trim p = p) : trim (sep.intercalate ps) = sep.intercalate ps := by
  refine trim_of_ends ?_ ?_
  · cases ps with
    | nil => simp
    | cons p ps =>
      obtain ⟨hne, htrim⟩ := h p List.mem_cons_self
      have hhead := head?_trim p
      obtain ⟨c, p, rfl⟩ := List.exists_cons_of_ne_nil hne
      rw [htrim] at hhead
      cases ps with
      | nil => rwa [List.intercalate_singleton]
      | cons q ps =>
        rw [List.intercalate_cons_cons]
        exact hhead
  · rcases List.eq_nil_or_concat ps with rfl | ⟨qs, p, rfl⟩
    · simp
    · obtain ⟨hne, htrim⟩ := h p (by simp)
      have hlast := getLast?_trim p
      rw [htrim] at hlast
      by_cases hqs : qs = []
      · subst hqs
        simpa using hlast
      · rw [List.concat_eq_append, intercalate_snoc _ _ hqs]
        have hsome := List.getLast?_eq_some_getLast hne
        rw [List.getLast?_append, hsome]
        rw [hsome] at hlast
        exact hlast

/-- A text between blanks. -/
theorem exists_trim (x : List Char) :
    ∃ a b, (∀ c ∈ a, isWhitespace c = true) ∧ (∀ c ∈ b, isWhitespace c = true) ∧
      x = a ++ (trim x ++ b) := by
  refine ⟨x.takeWhile isWhitespace,
    ((x.dropWhile isWhitespace).reverse.takeWhile isWhitespace).reverse,
    fun c hc => List.mem_takeWhile_imp hc,
    fun c hc => List.mem_takeWhile_imp (List.mem_reverse.mp hc), ?_⟩
  rw [trim, ← List.reverse_append, List.takeWhile_append_dropWhile, List.reverse_reverse,
    List.takeWhile_append_dropWhile]

theorem words_trim (x : List Char) : words isWhitespace (trim x) = words isWhitespace x := by
  obtain ⟨a, b, ha, hb, hx⟩ := exists_trim x
  conv_rhs => rw [hx]
  rw [words_append_of_forall_left ha, words_append_of_forall_right hb]

theorem trim_trim (s : List Char) : trim (trim s) = trim s :=
  trim_of_ends (head?_trim s) (getLast?_trim s)

theorem classRun_digits {lower upper : ℕ} (h : ∀ c ∈ s, c.isDigit = true) :
    classRun Char.isDigit lower upper s =
      if lower ≤ s.length ∧ s.length ≤ upper then some (s, []) else none := by
  have hspan : s.span Char.isDigit = (s, []) := by
    rw [List.span_eq_takeWhile_dropWhile, List.takeWhile_eq_self_iff.mpr h,
      List.dropWhile_eq_nil_iff.mpr h]
  simp only [classRun, hspan]

/-- Behind a number that is the whole text nothing matches. -/
theorem classRun_bind_eq_none {lower upper : ℕ} {f : List Char × List Char → Option NaiveDate}
    (h : ∀ c ∈ s, c.isDigit = true) (hf : f (s, []) = none) :
    (classRun Char.isDigit lower upper s >>= f) = none := by
  rw [classRun_digits h]
  split
  · exact hf
  · rfl

theorem joinWords_eq_self (h : ∀ c ∈ s, isWhitespace c = false) : joinWords s = s := by
  cases s with
  | nil => rfl
  | cons c cs => simp [joinWords, List.splitOnP_eq_singleton h]

theorem IsShortNumber.parseDate (h : IsShortNumber s) : parseDate s = none := by
  obtain ⟨hlen, hdigits⟩ := h
  have hspaces : ∀ c ∈ s, isWhitespace c = false := fun c hc =>
    not_isSpace_of_isDigit (hdigits c hc)
  have hdmy : ddMmYyyy s = none := classRun_bind_eq_none hdigits rfl
  have hmon : ddMonYyyy s = none := classRun_bind_eq_none hdigits rfl
  have hnoSep : ddMonYyyyNoSep s = none := classRun_bind_eq_none hdigits rfl
  have hiso : iso s = none := classRun_bind_eq_none hdigits rfl
  have hcompact : compact8 s = none := by
    rw [compact8, classRun_digits hdigits, if_neg (by omega)]
    rfl
  rw [Parser.parseDate, joinWords_eq_self hspaces, hdmy, hmon, hnoSep, hiso, hcompact]
  rfl

theorem repairToken_digits (h : ∀ c ∈ s, c.isDigit = true) : repairToken s = s := by
  unfold repairToken
  split
  · -- no digit is taken for another one
    calc _ = s.map id := List.map_congr_left fun c hc => by
          have hc := h c hc
          split <;> first | rfl | cases hc
      _ = s := s.map_id
  · rfl

theorem repairOcrChars_digits (h : ∀ c ∈ s, c.isDigit = true) : repairOcrChars s = s := by
  unfold repairOcrChars
  simp only
  generalize hruns : s.splitBy _ = runs
  have hflat : runs.flatten = s := hruns ▸ List.flatten_splitBy _ s
  have hrun : ∀ run ∈ runs, repairToken run = run := fun run hrun =>
    repairToken_digits fun c hc => h c (hflat ▸ List.mem_flatten_of_mem hrun hc)
  calc _ = runs.flatMap id := List.flatMap_congr fun run hmem => by
        rw [hrun run hmem, ite_self, id]
    _ = s := by rw [List.flatMap_id, hflat]

theorem IsShortNumber.findDate (h : IsShortNumber s) : findDate u s = none := by
  have hstripped : Parser.parseDate (trim (reTimeSuffix.beforeMatch u s)) = none := by
    refine (h.sublist (trim_sublist.trans ?_)).parseDate
    unfold Regex.beforeMatch
    split
    · exact List.take_sublist _ _
    · exact List.Sublist.refl _
  simp [Parser.findDate, h.parseDate, hstripped, repairOcrChars_digits h.2]

/-- A number of few digits is no date. -/
theorem IsShortNumber.not_valid (h : IsShortNumber (trim raw)) :
    (normalizeTransactionDate u raw).valid = false := by
  rw [normalizeTransactionDate, h.findDate]
  rfl

end

end Desktop.Parser
