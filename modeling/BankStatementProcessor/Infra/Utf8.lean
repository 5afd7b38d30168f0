import Mathlib.Data.List.Basic

/-!
# Byte positions of a text

A text is cut at a byte position only where a character begins. `slice` is the cut that gives up
at any other position.
-/

namespace Infra

/-- The bytes of a text. -/
def utf8Len : List Char → ℕ
  | [] => 0
  | c :: cs => c.utf8Size + utf8Len cs

/-- What stands before and from byte `i` on, if a character begins or the text ends there. -/
def splitAtByte : List Char → ℕ → Option (List Char × List Char)
  | cs, 0 => some ([], cs)
  | [], _ + 1 => none
  | c :: cs, i + 1 =>
    if c.utf8Size ≤ i + 1 then
      (splitAtByte cs (i + 1 - c.utf8Size)).map fun p => (c :: p.1, p.2)
    else none

/-- `str::is_char_boundary` -/
def isCharBoundary (cs : List Char) (i : ℕ) : Bool := (splitAtByte cs i).isSome

/-- `&s[i..j]`. Without a result it panics. -/
def slice (cs : List Char) (i j : ℕ) : Option (List Char) :=
  if j < i then none
  else do
    let (_, rest) ← splitAtByte cs i
    let (chunk, _) ← splitAtByte rest (j - i)
    return chunk

section

variable {cs a b : List Char} {i j : ℕ}

theorem utf8Len_append (a b : List Char) : utf8Len (a ++ b) = utf8Len a + utf8Len b := by
  induction a with
  | nil => rw [List.nil_append, utf8Len, Nat.zero_add]
  | cons c a ih => rw [List.cons_append, utf8Len, utf8Len, ih, Nat.add_assoc]

theorem utf8Len_pos (h : cs ≠ []) : 0 < utf8Len cs := by
  obtain ⟨c, cs, rfl⟩ := List.exists_cons_of_ne_nil h
  have hc := c.utf8Size_pos
  rw [utf8Len]
  omega

theorem splitAtByte_append (a b : List Char) : splitAtByte (a ++ b) (utf8Len a) = some (a, b) := by
  induction a with
  | nil =>
    rw [utf8Len, List.nil_append]
    cases b <;> rfl
  | cons c a ih =>
    have hc := c.utf8Size_pos
    obtain ⟨k, hk⟩ : ∃ k, c.utf8Size + utf8Len a = k + 1 := ⟨c.utf8Size + utf8Len a - 1, by omega⟩
    rw [utf8Len, hk, List.cons_append, splitAtByte, if_pos (by omega), ← hk,
      Nat.add_sub_cancel_left, ih]
    rfl

theorem splitAtByte_eq_some_iff : splitAtByte cs i = some (a, b) ↔ cs = a ++ b ∧ utf8Len a = i := by
  constructor
  · intro h
    induction cs generalizing a i with
    | nil =>
      cases i with
      | zero =>
        obtain ⟨rfl, rfl⟩ := Prod.mk.inj (Option.some.inj h)
        exact ⟨rfl, rfl⟩
      | succ i => cases h
    | cons c cs ih =>
      cases i with
      | zero =>
        obtain ⟨rfl, rfl⟩ := Prod.mk.inj (Option.some.inj h)
        exact ⟨rfl, rfl⟩
      | succ i =>
        rw [splitAtByte] at h
        split at h
        · next hc =>
          obtain ⟨⟨a', b'⟩, hsplit, heq⟩ := Option.map_eq_some_iff.mp h
          obtain ⟨rfl, rfl⟩ := Prod.mk.inj heq
          obtain ⟨rfl, hlen⟩ := ih hsplit
          exact ⟨rfl, by rw [utf8Len, hlen]; omega⟩
        · cases h
  · rintro ⟨rfl, rfl⟩
    exact splitAtByte_append a b

theorem isCharBoundary_iff : isCharBoundary cs i = true ↔ ∃ a b, cs = a ++ b ∧ utf8Len a = i := by
  rw [isCharBoundary, Option.isSome_iff_exists]
  constructor
  · rintro ⟨⟨a, b⟩, h⟩
    exact ⟨a, b, splitAtByte_eq_some_iff.mp h⟩
  · rintro ⟨a, b, h⟩
    exact ⟨(a, b), splitAtByte_eq_some_iff.mpr h⟩

theorem slice_eq_some_iff {w : List Char} : slice cs i j = some w ↔
    ∃ a b, cs = a ++ (w ++ b) ∧ utf8Len a = i ∧ utf8Len a + utf8Len w = j := by
  unfold slice
  constructor
  · intro h
    split at h
    · cases h
    · next hle =>
      simp only [Option.bind_eq_bind, Option.bind_eq_some_iff] at h
      obtain ⟨⟨a, rest⟩, hfirst, ⟨chunk, b⟩, hsecond, heq⟩ := h
      obtain rfl : chunk = w := Option.some.inj heq
      obtain ⟨rfl, hi⟩ := splitAtByte_eq_some_iff.mp hfirst
      obtain ⟨hrest, hj⟩ := splitAtByte_eq_some_iff.mp hsecond
      exact ⟨a, b, congrArg (a ++ ·) hrest, hi, by omega⟩
  · rintro ⟨a, b, rfl, rfl, rfl⟩
    rw [if_neg (by omega), splitAtByte_append, Nat.add_sub_cancel_left]
    show (splitAtByte (w ++ b) (utf8Len w) >>= fun p => some p.1) = some w
    rw [splitAtByte_append]
    rfl

/-- Two ends of a slice at which characters begin. -/
theorem exists_slice (hle : i ≤ j) (hi : isCharBoundary cs i = true)
    (hj : isCharBoundary cs j = true) : ∃ w, slice cs i j = some w := by
  obtain ⟨a, b, rfl, rfl⟩ := isCharBoundary_iff.mp hi
  obtain ⟨a', b', heq, rfl⟩ := isCharBoundary_iff.mp hj
  rcases List.append_eq_append_iff.mp heq with ⟨w, rfl, rfl⟩ | ⟨w, rfl, rfl⟩
  · exact ⟨w, slice_eq_some_iff.mpr ⟨a, b', rfl, rfl, (utf8Len_append a w).symm⟩⟩
  · rw [utf8Len_append] at hle
    refine ⟨[], slice_eq_some_iff.mpr ⟨a' ++ w, b, by simp, rfl, ?_⟩⟩
    rw [utf8Len_append, utf8Len]
    omega

theorem length_le_utf8Len (cs : List Char) : cs.length ≤ utf8Len cs := by
  induction cs with
  | nil => exact Nat.le_refl 0
  | cons c cs ih =>
    have hc := c.utf8Size_pos
    rw [List.length_cons, utf8Len]
    omega

/-- Where each character is one byte, bytes are counted as characters. -/
theorem utf8Len_eq_length (h : ∀ c ∈ cs, c.utf8Size = 1) : utf8Len cs = cs.length := by
  induction cs with
  | nil => rfl
  | cons c cs ih =>
    rw [utf8Len, h c List.mem_cons_self, ih fun d hd => h d (List.mem_cons_of_mem _ hd),
      List.length_cons, Nat.add_comm]

/-- Where each character is one byte, a slice counts characters. -/
theorem slice_eq_take (h : ∀ c ∈ cs, c.utf8Size = 1) (hij : i ≤ j) (hj : j ≤ cs.length) :
    slice cs i j = some ((cs.drop i).take (j - i)) := by
  have hlen : ∀ k, k ≤ cs.length → utf8Len (cs.take k) = k := by
    intro k hk
    rw [utf8Len_eq_length fun c hc => h c (List.mem_of_mem_take hc), List.length_take]
    omega
  refine slice_eq_some_iff.mpr ⟨cs.take i, cs.drop j, ?_, hlen i (Nat.le_trans hij hj), ?_⟩
  · have hrest : cs.drop j = (cs.drop i).drop (j - i) := by
      rw [List.drop_drop]
      congr 1
      omega
    rw [hrest, List.take_append_drop, List.take_append_drop]
  · have hprefix : cs.take i ++ (cs.drop i).take (j - i) = cs.take j := by
      rw [← List.take_add]
      congr 1
      omega
    rw [← utf8Len_append, hprefix, hlen j hj]

/-- Where each character is one byte, a character begins at each byte. -/
theorem isCharBoundary_of_le (h : ∀ c ∈ cs, c.utf8Size = 1) (hi : i ≤ cs.length) :
    isCharBoundary cs i = true := by
  refine isCharBoundary_iff.mpr ⟨cs.take i, cs.drop i, (List.take_append_drop i cs).symm, ?_⟩
  rw [utf8Len_eq_length fun c hc => h c (List.mem_of_mem_take hc), List.length_take]
  omega

end

end Infra
