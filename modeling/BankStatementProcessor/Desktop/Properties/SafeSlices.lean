import BankStatementProcessor.Desktop.TextSafety
import Mathlib.Data.Nat.Find
import Mathlib.Order.Bounds.Defs

/-!
# Slices at safe offsets

An offset is moved down to the last place at which a character begins, a prefix is the longest that
fits, and ASCII text is found at the first place where the characters read it.
-/

namespace Desktop

open Infra

/-- A character of `s` begins at byte `i`, and from there on it reads `pat` in some case. -/
def MatchesAt (s pat : List Char) (i : ℕ) : Prop :=
  ∃ before rest, s = before ++ rest ∧ utf8Len before = i ∧ StartsWithIgnoringCase pat rest

section

variable {s pat : List Char} {i n : ℕ}

/-! ## The offset -/

theorem isCharBoundary_zero (s : List Char) : isCharBoundary s 0 = true :=
  isCharBoundary_iff.mpr ⟨[], s, rfl, rfl⟩

theorem floorFrom_spec (s : List Char) (idx : ℕ) :
    IsGreatest {i | isCharBoundary s i = true ∧ i ≤ idx} (floorFrom s idx) := by
  induction idx with
  | zero => exact ⟨⟨isCharBoundary_zero s, Nat.le_refl 0⟩, fun i hi => hi.2⟩
  | succ idx ih =>
    rw [floorFrom]
    split
    · next h => exact ⟨⟨h, Nat.le_refl _⟩, fun i hi => hi.2⟩
    · next h =>
      refine ⟨⟨ih.1.1, Nat.le_succ_of_le ih.1.2⟩, fun i ⟨hboundary, hle⟩ => ih.2 ⟨hboundary, ?_⟩⟩
      have hne : i ≠ idx + 1 := fun heq => h (heq ▸ hboundary)
      omega

/-- `floor_char_boundary` is the last place before the offset at which a character begins. -/
theorem floorCharBoundary_spec (s : List Char) (n : ℕ) :
    IsGreatest {i | isCharBoundary s i = true ∧ i ≤ min n (utf8Len s)} (floorCharBoundary s n) :=
  floorFrom_spec s _

/-! ## The prefix -/

theorem isCharBoundary_utf8Len {w : List Char} (h : w <+: s) :
    isCharBoundary s (utf8Len w) = true := by
  obtain ⟨rest, rfl⟩ := h
  exact isCharBoundary_iff.mpr ⟨w, rest, rfl, rfl⟩

/-- `safe_prefix` never panics, and its result is the longest prefix that fits. -/
theorem safePrefix_spec (s : List Char) (n : ℕ) : ∃ w, safePrefix s n = some w ∧
    (w <+: s ∧ utf8Len w ≤ n) ∧ ∀ v, v <+: s → utf8Len v ≤ n → v <+: w := by
  obtain ⟨⟨hboundary, hle⟩, hgreatest⟩ := floorCharBoundary_spec s n
  obtain ⟨w, hw⟩ := exists_slice (Nat.zero_le _) (isCharBoundary_zero s) hboundary
  obtain ⟨a, b, heq, ha, hlen⟩ := slice_eq_some_iff.mp hw
  obtain rfl : a = [] := by
    by_contra hne
    have hpos := utf8Len_pos hne
    omega
  rw [List.nil_append] at heq
  rw [utf8Len, Nat.zero_add] at hlen
  refine ⟨w, hw, ⟨⟨b, heq.symm⟩, by omega⟩, fun v hv hfits => ?_⟩
  have hshort : utf8Len v ≤ utf8Len w := by
    obtain ⟨rest, rfl⟩ := hv
    rw [hlen]
    refine hgreatest ⟨isCharBoundary_utf8Len (List.prefix_append v rest), ?_⟩
    rw [utf8Len_append]
    omega
  rcases List.prefix_or_prefix_of_prefix hv ⟨b, heq.symm⟩ with h | ⟨rest, rfl⟩
  · exact h
  · have hrest : rest = [] := by
      by_contra hne
      have hpos := utf8Len_pos hne
      rw [utf8Len_append] at hshort
      omega
    exact ⟨[], by rw [hrest, List.append_nil, List.append_nil]⟩

/-! ## The search -/

theorem matchesAt_iff (hascii : ∀ c ∈ pat, isAscii c = true) :
    (isCharBoundary s i && eqIgnoreAsciiCase (((asBytes s).drop i).take (asBytes pat).length)
      (asBytes pat)) = true ↔ MatchesAt s pat i := by
  rw [Bool.and_eq_true, isCharBoundary_iff, length_asBytes_of_isAscii hascii]
  constructor
  · rintro ⟨⟨before, rest, rfl, rfl⟩, hbytes⟩
    rw [drop_asBytes, eqIgnoreAsciiCase_asBytes_iff hascii] at hbytes
    exact ⟨before, rest, rfl, rfl, hbytes⟩
  · rintro ⟨before, rest, rfl, rfl, hstarts⟩
    refine ⟨⟨before, rest, rfl, rfl⟩, ?_⟩
    rw [drop_asBytes, eqIgnoreAsciiCase_asBytes_iff hascii]
    exact hstarts

/-- A match ends within the text. -/
theorem MatchesAt.add_le (h : MatchesAt s pat i) (hascii : ∀ c ∈ pat, isAscii c = true) :
    i + (asBytes pat).length ≤ (asBytes s).length := by
  obtain ⟨before, rest, rfl, rfl, w, after, rfl, hmap⟩ := h
  have hlen : w.length = pat.length := by
    rw [← List.length_map Char.toLower, hmap, List.length_map]
  have hw := length_le_utf8Len w
  rw [length_asBytes_of_isAscii hascii, length_asBytes, utf8Len_append, utf8Len_append]
  omega

theorem asBytes_ne_nil (hascii : ∀ c ∈ pat, isAscii c = true) (hne : pat ≠ []) :
    (asBytes pat).isEmpty = false := by
  rw [List.isEmpty_eq_false_iff, ← List.length_pos_iff, length_asBytes_of_isAscii hascii,
    List.length_pos_iff]
  exact hne

theorem findAsciiCi_eq_some_iff (hascii : ∀ c ∈ pat, isAscii c = true) (hne : pat ≠ []) :
    findAsciiCi s pat = some i ↔ IsLeast {j | MatchesAt s pat j} i := by
  simp only [findAsciiCi, asBytes_ne_nil hascii hne, Bool.false_or, decide_eq_true_eq]
  split
  · next hshort =>
    refine iff_of_false (fun h => by cases h) fun hleast => ?_
    have hle := MatchesAt.add_le hleast.1 hascii
    omega
  · next hlong =>
    rw [List.find?_range_eq_some, List.mem_range, matchesAt_iff hascii]
    constructor
    · rintro ⟨hmatch, -, hfirst⟩
      refine ⟨hmatch, fun j hj => Nat.le_of_not_lt fun hlt => ?_⟩
      have hnot := hfirst j hlt
      rw [(matchesAt_iff hascii).mpr hj] at hnot
      cases hnot
    · rintro ⟨hmatch, hfirst⟩
      have hle := MatchesAt.add_le hmatch hascii
      refine ⟨hmatch, by omega, fun j hlt => ?_⟩
      rw [Bool.not_eq_true', ← Bool.not_eq_true, matchesAt_iff hascii]
      exact fun hj => absurd (hfirst hj) (Nat.not_le_of_lt hlt)

theorem findAsciiCi_eq_none_iff (hascii : ∀ c ∈ pat, isAscii c = true) (hne : pat ≠ []) :
    findAsciiCi s pat = none ↔ ∀ i, ¬ MatchesAt s pat i := by
  constructor
  · intro h i hi
    -- of the matches there would be a first
    classical
    have hfirst : IsLeast {j | MatchesAt s pat j} (Nat.find ⟨i, hi⟩) :=
      ⟨Nat.find_spec ⟨i, hi⟩, fun j hj => Nat.find_min' ⟨i, hi⟩ hj⟩
    rw [← findAsciiCi_eq_some_iff hascii hne, h] at hfirst
    cases hfirst
  · intro h
    cases hfind : findAsciiCi s pat with
    | none => rfl
    | some i => exact absurd ((findAsciiCi_eq_some_iff hascii hne).mp hfind).1 (h i)

/-- **Offsets, prefixes and places of ASCII text are where the characters have them.** -/
theorem textSafety_safe (s pat : List Char) (n : ℕ) (hascii : ∀ c ∈ pat, isAscii c = true)
    (hne : pat ≠ []) :
    IsGreatest {i | isCharBoundary s i = true ∧ i ≤ min n (utf8Len s)} (floorCharBoundary s n) ∧
    (∃ w, safePrefix s n = some w ∧ (w <+: s ∧ utf8Len w ≤ n) ∧
      ∀ v, v <+: s → utf8Len v ≤ n → v <+: w) ∧
    (∀ i, findAsciiCi s pat = some i ↔ IsLeast {j | MatchesAt s pat j} i) ∧
    (findAsciiCi s pat = none ↔ ∀ i, ¬ MatchesAt s pat i) :=
  ⟨floorCharBoundary_spec s n, safePrefix_spec s n, fun _ => findAsciiCi_eq_some_iff hascii hne,
    findAsciiCi_eq_none_iff hascii hne⟩

theorem textSafety_safe_page :
    let s := "₹5 Page 2".toList
    let pat := "PAGE".toList
    IsGreatest {i | isCharBoundary s i = true ∧ i ≤ min 2 (utf8Len s)} (floorCharBoundary s 2) ∧
    (∃ w, safePrefix s 2 = some w ∧ (w <+: s ∧ utf8Len w ≤ 2) ∧
      ∀ v, v <+: s → utf8Len v ≤ 2 → v <+: w) ∧
    (∀ i, findAsciiCi s pat = some i ↔ IsLeast {j | MatchesAt s pat j} i) ∧
    (findAsciiCi s pat = none ↔ ∀ i, ¬ MatchesAt s pat i) :=
  textSafety_safe "₹5 Page 2".toList "PAGE".toList 2 (forall_mem_of_all (by decide +kernel))
    (by decide +kernel)

/-- The empty text begins everywhere, and is not found. -/
theorem empty_not_found :
    IsLeast {i | MatchesAt "Page".toList [] i} 0 ∧ findAsciiCi "Page".toList [] = none :=
  ⟨⟨⟨[], "Page".toList, rfl, rfl, startsWithIgnoringCase_nil _⟩, fun _ _ => Nat.zero_le _⟩, rfl⟩

example : findAsciiCi "₹5 Page 2".toList "PAGE".toList = some 5 := by decide +kernel

example : floorCharBoundary "₹5".toList 2 = 0 := by decide +kernel

end

end Desktop
