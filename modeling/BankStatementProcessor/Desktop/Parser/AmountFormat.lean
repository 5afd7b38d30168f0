import BankStatementProcessor.Desktop.Parser.AmountParser
import BankStatementProcessor.Desktop.Parser.DateParser

/-!
# How amounts are written

`fmt_amount`: the last three digits of the rupees are a group, and those before them go in
twos. The parser takes the commas out again.
-/

namespace Desktop.Parser

open Infra

/-- Digits in reverse, in groups of two from the right. -/
def groupsOfTwo : List Char → List (List Char)
  | [] => []
  | [a] => [[a]]
  | b :: a :: rest => [a, b] :: groupsOfTwo rest

def formatIndianInt (n : ℕ) : List Char :=
  let s := Nat.toDigits 10 n
  if s.length ≤ 3 then s
  else
    let groups := s.drop (s.length - 3) :: groupsOfTwo (s.take (s.length - 3)).reverse
    [','].intercalate groups.reverse

/-- `as u64` -/
def asU64 : F64 → ℕ
  | .nan => 0
  | .infinite negative => if negative then 0 else 2 ^ 64 - 1
  | .finite q => min ⌊q⌋.toNat (2 ^ 64 - 1)

def formatIndian (v : F64) : String :=
  let paise := asU64 (F64.mul (F64.abs v) (.finite 100)).round
  let sign := if F64.lt v (.finite 0) then "-" else ""
  s!"{sign}{String.ofList (formatIndianInt (paise / 100))}.{twoDigits (paise % 100)}"

def fmtAmount : Option F64 → String
  | none => ""
  | some v => formatIndian v

example : fmtAmount (some (.finite (-12345678 / 100))) = "-1,23,456.78" := by decide +kernel

/-! ## The groups -/

theorem flatten_groupsOfTwo (cs : List Char) :
    (groupsOfTwo cs).reverse.flatten = cs.reverse := by
  induction cs using groupsOfTwo.induct with
  | case1 => rfl
  | case2 a => rfl
  | case3 b a rest ih => simp [groupsOfTwo, ih]

theorem filter_intercalate (sep : Char) (groups : List (List Char)) :
    ([sep].intercalate groups).filter (· != sep) = groups.flatten.filter (· != sep) := by
  induction groups with
  | nil => rfl
  | cons g groups ih =>
    cases groups with
    | nil => simp
    | cons g' groups =>
      rw [List.intercalate_cons_cons, List.filter_append, List.filter_append, ih,
        List.flatten_cons, List.filter_append]
      simp

theorem mem_intercalate {sep c : Char} {groups : List (List Char)}
    (h : c ∈ [sep].intercalate groups) : c = sep ∨ c ∈ groups.flatten := by
  by_cases hc : c = sep
  · exact Or.inl hc
  · have hmem : c ∈ ([sep].intercalate groups).filter (· != sep) :=
      List.mem_filter.mpr ⟨h, by simpa using hc⟩
    rw [filter_intercalate] at hmem
    exact Or.inr (List.mem_of_mem_filter hmem)

theorem flatten_groups (s : List Char) (k : ℕ) :
    (s.drop k :: groupsOfTwo (s.take k).reverse).reverse.flatten = s := by
  rw [List.reverse_cons, List.flatten_append, flatten_groupsOfTwo, List.reverse_reverse,
    List.flatten_singleton, List.take_append_drop]

theorem mem_formatIndianInt {n : ℕ} {c : Char} (h : c ∈ formatIndianInt n) :
    c.isDigit = true ∨ c = ',' := by
  simp only [formatIndianInt] at h
  split at h
  · exact Or.inl (F64.isDigit_of_mem_toDigits h)
  · rcases mem_intercalate h with rfl | hc
    · exact Or.inr rfl
    · rw [flatten_groups] at hc
      exact Or.inl (F64.isDigit_of_mem_toDigits hc)

/-- Without the commas the digits are back. -/
theorem filter_formatIndianInt (n : ℕ) :
    (formatIndianInt n).filter (· != ',') = Nat.toDigits 10 n := by
  have hdigits : (Nat.toDigits 10 n).filter (· != ',') = Nat.toDigits 10 n := by
    rw [List.filter_eq_self]
    intro c hc
    have hdigit := F64.isDigit_of_mem_toDigits hc
    rw [bne_iff_ne]
    rintro rfl
    cases hdigit
  simp only [formatIndianInt]
  split
  · exact hdigits
  · rw [filter_intercalate, flatten_groups, hdigits]

/-! ## The steps of the parser -/

section

variable {u : Unicode} {cs : List Char}

/-- A text with another character than digits is no bare reference. -/
theorem not_isMatch_reRefId {c : Char} (hc : c ∈ cs) (hdigit : u.isDigit c = false) :
    reRefId.isMatch u cs = false := by
  rw [← Bool.not_eq_true, Regex.isMatch_iff]
  rintro ⟨w, p, q, hw, hq⟩
  obtain ⟨m, hstart, hq⟩ := Regex.mem_ends_seqs_cons.mp hq
  obtain ⟨hbefore, hm⟩ := Regex.mem_ends_start.mp hstart
  obtain ⟨n, hdigits, hq⟩ := Regex.mem_ends_seqs_cons.mp hq
  obtain ⟨n', hstop, -⟩ := Regex.mem_ends_seqs_cons.mp hq
  have hw' := Regex.Pos.reads_nil_of_start hw hbefore
  subst hw'
  rw [Regex.Pos.reads_nil_iff] at hw hm
  subst hw hm
  have hconsumes : Regex.Consumes u (fun c => u.isDigit c = true) (.atLeast 10 .digit) :=
    (Regex.consumes_one fun _ h => h).atLeast 10
  obtain ⟨v, hv, hread⟩ := hconsumes _ _ hdigits
  have hall : cs = v := by
    rw [← List.append_nil v, ← (Regex.mem_ends_stop.mp hstop).1]
    exact hread.1
  have hmem : u.isDigit c = true := hv c (hall ▸ hc)
  rw [hdigit] at hmem
  cases hmem

/-- The suffix needs the first letter of `CR` or of `DR`. -/
theorem not_isMatch_reCrDrSuffix (h : ∀ c ∈ cs, c.toLower ≠ 'c' ∧ c.toLower ≠ 'd') :
    reCrDrSuffix.isMatch u cs = false := by
  rw [← Bool.not_eq_true, Regex.isMatch_iff]
  rintro ⟨w, p, q, hw, hq⟩
  obtain ⟨m, hspaces, hq⟩ := Regex.mem_ends_seqs_cons.mp hq
  obtain ⟨v, -, hm⟩ := Regex.mem_ends_star_one.mp hspaces
  obtain ⟨n, hletters, -⟩ := Regex.mem_ends_seqs_cons.mp hq
  have hfirst : ∃ c, (c.toLower = 'c' ∨ c.toLower = 'd') ∧ ∃ k, m.Reads [c] k := by
    rcases Regex.mem_ends_alt.mp hletters with hn | hn
    · obtain ⟨k, hk, -⟩ := Regex.mem_ends_seqs_cons.mp hn
      obtain ⟨c, hc, hread⟩ := Regex.mem_ends_one.mp hk
      have hletter : (c.toLower == 'c' || ('c' == 's' && c == 'ſ') ||
          ('c' == 'k' && c == '\u212A')) = true := hc
      exact ⟨c, Or.inl (by simpa using hletter), k, hread⟩
    · obtain ⟨k, hk, -⟩ := Regex.mem_ends_seqs_cons.mp hn
      obtain ⟨c, hc, hread⟩ := Regex.mem_ends_one.mp hk
      have hletter : (c.toLower == 'd' || ('d' == 's' && c == 'ſ') ||
          ('d' == 'k' && c == '\u212A')) = true := hc
      exact ⟨c, Or.inr (by simpa using hletter), k, hread⟩
  obtain ⟨c, hc, k, hread⟩ := hfirst
  have hmem : c ∈ cs := by
    have hrest : c ∈ m.rest := by
      rw [hread.1]
      exact List.mem_cons_self
    exact hw.suffix.subset (hm.suffix.subset hrest)
  rcases hc with hc | hc
  · exact (h c hmem).1 hc
  · exact (h c hmem).2 hc

theorem stripRsPrefix_eq_self (h : ∀ c ∈ cs, c.toLower ≠ 'r') : stripRsPrefix cs = cs := by
  unfold stripRsPrefix
  split
  · next r s cs =>
    have hr : (r.toLower == 'r') = false := by simpa using h r List.mem_cons_self
    rw [hr]
    rfl
  · rfl

theorem minusPrefix_eq_self (h : '(' ∉ cs) : minusPrefix cs = cs := by
  unfold minusPrefix
  split
  · exact absurd List.mem_cons_self h
  · rfl

theorem negativeParens_eq_self (h : '(' ∉ cs) : negativeParens cs = cs := by
  induction cs with
  | nil => rfl
  | cons c cs ih =>
    rw [List.mem_cons, not_or] at h
    have hc : (c == '(') = false := by simpa using fun heq : c = '(' => h.1 heq.symm
    rw [negativeParens, hc]
    exact congrArg (c :: ·) (ih h.2)

/-- The characters of a written amount. -/
def amountChars : List Char := "0123456789,.-".toList

theorem mem_amountChars_of_isDigit {c : Char} (h : c.isDigit = true) : c ∈ amountChars := by
  have hall : ∀ n ∈ List.range 10, Char.ofNat (48 + n) ∈ amountChars := by decide +kernel
  simp only [Char.isDigit, ge_iff_le, Bool.and_eq_true, decide_eq_true_eq,
    UInt32.le_iff_toNat_le] at h
  have hlower : 48 ≤ c.toNat := h.1
  have hupper : c.toNat ≤ 57 := h.2
  have hmem := hall (c.toNat - 48) (List.mem_range.mpr (by omega))
  rw [show 48 + (c.toNat - 48) = c.toNat by omega, Char.ofNat_toNat] at hmem
  exact hmem

/-- On the characters of an amount only the commas are taken out. -/
theorem cleanAmount_of_amountChars (h : ∀ c ∈ cs, c ∈ amountChars) :
    cleanAmount u cs = cs.filter (· != ',') := by
  have hspace : ∀ c ∈ amountChars, isWhitespace c = false := forall_mem_of_all (by decide +kernel)
  have hletters : ∀ c ∈ amountChars, c.toLower ≠ 'c' ∧ c.toLower ≠ 'd' :=
    forall_mem_of_all (by decide +kernel)
  have hr : ∀ c ∈ amountChars, c.toLower ≠ 'r' := forall_mem_of_all (by decide +kernel)
  have hrupee : ∀ c ∈ amountChars, (c != '₹' && !isWhitespace c) = true :=
    forall_mem_of_all (by decide +kernel)
  have hbracket : '(' ∉ amountChars := by decide +kernel
  have hfiltered : ∀ c ∈ cs.filter (· != ','), c ∈ amountChars := fun c hc =>
    h c (List.mem_of_mem_filter hc)
  have hnoBracket : '(' ∉ cs.filter (· != ',') := fun hmem => hbracket (hfiltered _ hmem)
  have hnone : reCrDrSuffix.isMatch u cs = false :=
    not_isMatch_reCrDrSuffix fun c hc => hletters c (h c hc)
  rw [cleanAmount, trim_eq_self fun c hc => hspace c (h c hc)]
  simp only [Regex.beforeMatch_of_not_isMatch hnone]
  rw [List.filter_eq_self.mpr fun c hc => hrupee c (h c hc),
    stripRsPrefix_eq_self fun c hc => hr c (h c hc), minusPrefix_eq_self hnoBracket,
    negativeParens_eq_self hnoBracket, trim_eq_self fun c hc => hspace c (hfiltered c hc)]

end

end Desktop.Parser
