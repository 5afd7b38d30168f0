import BankStatementProcessor.Infra.F64

/-!
# Texts in order

Texts are in the order of their first characters that differ. Where numbers are written with the
same number of digits, it is the order of the numbers.
-/

namespace Infra

section

variable {α : Type*} [LT α] {a b s t : List α}

/-- Texts that begin with parts of one length. -/
theorem append_lt_append_iff (h : a.length = b.length) :
    a ++ s < b ++ t ↔ a < b ∨ a = b ∧ s < t := by
  induction a generalizing b with
  | nil =>
    obtain rfl := List.length_eq_zero_iff.mp h.symm
    simp
  | cons x a ih =>
    cases b with
    | nil => cases h
    | cons y b =>
      rw [List.cons_append, List.cons_append, List.cons_lt_cons_iff, List.cons_lt_cons_iff,
        ih (Nat.succ.inj h), List.cons.injEq]
      tauto

end

/-- The last separator of a text splits it in one way. -/
theorem append_cons_inj_of_notMem_right {α : Type*} {a : α} {xs xs' ys ys' : List α}
    (h : a ∉ ys) (h' : a ∉ ys') : xs ++ a :: ys = xs' ++ a :: ys' ↔ xs = xs' ∧ ys = ys' := by
  refine ⟨fun heq => ?_, by rintro ⟨rfl, rfl⟩; rfl⟩
  rcases List.append_eq_append_iff.mp heq with ⟨zs, rfl, hzs⟩ | ⟨zs, rfl, hzs⟩
  · cases zs with
    | nil => simpa using hzs
    | cons z zs =>
      simp only [List.cons_append, List.cons.injEq] at hzs
      exact absurd (by simp [hzs.2]) h
  · cases zs with
    | nil => simpa [eq_comm] using hzs
    | cons z zs =>
      simp only [List.cons_append, List.cons.injEq] at hzs
      exact absurd (by simp [hzs.2]) h'

/-- So does the first one. -/
theorem append_cons_inj_of_notMem_left {α : Type*} {a : α} {xs xs' ys ys' : List α}
    (h : a ∉ xs) (h' : a ∉ xs') : xs ++ a :: ys = xs' ++ a :: ys' ↔ xs = xs' ∧ ys = ys' := by
  have hreverse : ∀ zs ws : List α, (zs ++ a :: ws).reverse = ws.reverse ++ a :: zs.reverse := by
    simp
  rw [← List.reverse_inj, hreverse, hreverse,
    append_cons_inj_of_notMem_right (by simpa using h) (by simpa using h'), List.reverse_inj,
    List.reverse_inj, and_comm]

/-- Digits. -/
def IsDigits (cs : List Char) : Prop := ∀ c ∈ cs, c.isDigit = true

instance : DecidablePred IsDigits :=
  fun cs => List.decidableBAll (fun c : Char => c.isDigit = true) cs

/-- The value of a digit. -/
def digitValue (c : Char) : ℕ := c.toNat - '0'.toNat

section

variable {c d : Char} {a b cs : List Char}

theorem toNat_of_isDigit (h : c.isDigit = true) :
    c.toNat = digitValue c + 48 ∧ digitValue c ≤ 9 := by
  have hzero : '0'.toNat = 48 := rfl
  simp only [Char.isDigit, Bool.and_eq_true, decide_eq_true_eq, UInt32.le_iff_toNat_le] at h
  obtain ⟨hlower, hupper⟩ := h
  have hlower : 48 ≤ c.toNat := hlower
  have hupper : c.toNat ≤ 57 := hupper
  rw [digitValue, hzero]
  omega

theorem char_lt_iff : c < d ↔ c.toNat < d.toNat := by
  rw [Char.lt_def, UInt32.lt_iff_toNat_lt]
  rfl

theorem char_eq_of_toNat (h : c.toNat = d.toNat) : c = d :=
  Char.ext (UInt32.toNat_inj.mp h)

theorem digitsValue_cons (c : Char) (cs : List Char) :
    F64.digitsValue (c :: cs) = 10 ^ cs.length * digitValue c + F64.digitsValue cs := by
  rw [← List.singleton_append, F64.digitsValue_append]
  simp [F64.digitsValue, digitValue]

theorem digitsValue_lt (h : IsDigits cs) : F64.digitsValue cs < 10 ^ cs.length := by
  induction cs with
  | nil => decide
  | cons c cs ih =>
    have hc := (toNat_of_isDigit (h c List.mem_cons_self)).2
    have htail := ih fun d hd => h d (List.mem_cons_of_mem c hd)
    rw [digitsValue_cons, List.length_cons, pow_succ]
    have hmul : 10 ^ cs.length * digitValue c ≤ 10 ^ cs.length * 9 := Nat.mul_le_mul_left _ hc
    omega

/-- A digit is worth more than all that follow it. -/
theorem digitsValue_cons_lt_iff (ha : IsDigits a) (hb : IsDigits b) (hlen : a.length = b.length) :
    F64.digitsValue (c :: a) < F64.digitsValue (d :: b) ↔
      digitValue c < digitValue d ∨
        digitValue c = digitValue d ∧ F64.digitsValue a < F64.digitsValue b := by
  have hav := digitsValue_lt ha
  have hbv := digitsValue_lt hb
  rw [digitsValue_cons, digitsValue_cons, hlen]
  rw [hlen] at hav
  rcases lt_trichotomy (digitValue c) (digitValue d) with hlt | heq | hgt
  · have hmul : 10 ^ b.length * (digitValue c + 1) ≤ 10 ^ b.length * digitValue d :=
      Nat.mul_le_mul_left _ hlt
    rw [mul_add, mul_one] at hmul
    omega
  · rw [heq]
    omega
  · have hmul : 10 ^ b.length * (digitValue d + 1) ≤ 10 ^ b.length * digitValue c :=
      Nat.mul_le_mul_left _ hgt
    rw [mul_add, mul_one] at hmul
    omega

theorem digits_lt_iff (ha : IsDigits a) (hb : IsDigits b) (hlen : a.length = b.length) :
    a < b ↔ F64.digitsValue a < F64.digitsValue b := by
  induction a generalizing b with
  | nil =>
    obtain rfl := List.length_eq_zero_iff.mp hlen.symm
    simp
  | cons c a ih =>
    cases b with
    | nil => cases hlen
    | cons d b =>
      have hlen := Nat.succ.inj hlen
      have hc := (toNat_of_isDigit (ha c List.mem_cons_self)).1
      have hd := (toNat_of_isDigit (hb d List.mem_cons_self)).1
      have ha' : IsDigits a := fun e he => ha e (List.mem_cons_of_mem c he)
      have hb' : IsDigits b := fun e he => hb e (List.mem_cons_of_mem d he)
      have hlt : c < d ↔ digitValue c < digitValue d := by
        rw [char_lt_iff]
        omega
      have heq : c = d ↔ digitValue c = digitValue d :=
        ⟨congrArg digitValue, fun h => char_eq_of_toNat (by omega)⟩
      rw [List.cons_lt_cons_iff, digitsValue_cons_lt_iff ha' hb' hlen, ih ha' hb' hlen, hlt, heq]

theorem digits_inj (ha : IsDigits a) (hb : IsDigits b) (hlen : a.length = b.length)
    (h : F64.digitsValue a = F64.digitsValue b) : a = b := by
  induction a generalizing b with
  | nil => exact (List.length_eq_zero_iff.mp hlen.symm).symm
  | cons c a ih =>
    cases b with
    | nil => cases hlen
    | cons d b =>
      have hlen := Nat.succ.inj hlen
      have hc := (toNat_of_isDigit (ha c List.mem_cons_self)).1
      have hd := (toNat_of_isDigit (hb d List.mem_cons_self)).1
      have ha' : IsDigits a := fun e he => ha e (List.mem_cons_of_mem c he)
      have hb' : IsDigits b := fun e he => hb e (List.mem_cons_of_mem d he)
      have hnot := digitsValue_cons_lt_iff (c := c) (d := d) ha' hb' hlen
      have hnot' := digitsValue_cons_lt_iff (c := d) (d := c) hb' ha' hlen.symm
      have hsame : digitValue c = digitValue d := by omega
      rw [char_eq_of_toNat (c := c) (d := d) (by omega), ih ha' hb' hlen (by omega)]

/-- Texts that begin with numbers of one length. -/
theorem digits_append_lt_iff {s t : List Char} (ha : IsDigits a) (hb : IsDigits b)
    (hlen : a.length = b.length) :
    a ++ s < b ++ t ↔ F64.digitsValue a < F64.digitsValue b ∨
      F64.digitsValue a = F64.digitsValue b ∧ s < t := by
  rw [append_lt_append_iff hlen, digits_lt_iff ha hb hlen]
  refine or_congr_right (and_congr_left fun _ => ⟨congrArg _, digits_inj ha hb hlen⟩)

/-- A number with zeros before it up to `k` digits. -/
def padded (k n : ℕ) : List Char :=
  List.replicate (k - (Nat.toDigits 10 n).length) '0' ++ Nat.toDigits 10 n

theorem isDigits_padded (k n : ℕ) : IsDigits (padded k n) := by
  intro c hc
  rcases List.mem_append.mp hc with hc | hc
  · rw [List.eq_of_mem_replicate hc]
    decide
  · exact F64.isDigit_of_mem_toDigits hc

theorem length_padded {k n : ℕ} (hk : 0 < k) (h : n < 10 ^ k) : (padded k n).length = k := by
  have hlen := (Nat.length_toDigits_le_iff (n := n) (b := 10) (by norm_num) hk).mpr h
  rw [padded, List.length_append, List.length_replicate]
  omega

theorem digitsValue_padded (k n : ℕ) : F64.digitsValue (padded k n) = n := by
  have hzero : F64.digitsValue (List.replicate (k - (Nat.toDigits 10 n).length) '0') =
      10 ^ (k - (Nat.toDigits 10 n).length) * 0 := Nat.ofDigitChars_replicate_zero
  rw [padded, F64.digitsValue_append, hzero, F64.digitsValue_toDigits]
  omega

end

end Infra
