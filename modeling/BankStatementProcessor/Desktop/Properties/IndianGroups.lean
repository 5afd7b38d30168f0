import BankStatementProcessor.Desktop.Parser.AmountFormat

/-!
# The groups of a written number

`format_indian_int` writes every number in Indian groups: three digits at the end, two in each
group before them, and one or two in the first.
-/

namespace Desktop.Parser

open Infra

/-- The commas of `text` cut `digits` the Indian way. -/
structure IsIndianGrouped (digits text : List Char) : Prop where
  filter_comma : text.filter (· != ',') = digits
  splitOn_comma : ∃ earlier last, text.splitOn ',' = earlier ++ [last] ∧
    last.length = min 3 digits.length ∧
    (∀ first ∈ earlier.head?, first.length = 1 ∨ first.length = 2) ∧
    ∀ group ∈ earlier.tail, group.length = 2
  head?_ne : text.head? ≠ some ','
  getLast?_ne : text.getLast? ≠ some ','

/-! ## The groups before the last -/

/-- Only the group that is cut last may be shorter. -/
theorem length_of_mem_dropLast_groupsOfTwo (cs : List Char) :
    ∀ g ∈ (groupsOfTwo cs).dropLast, g.length = 2 := by
  induction cs using groupsOfTwo.induct with
  | case1 => simp [groupsOfTwo]
  | case2 a => simp [groupsOfTwo]
  | case3 b a rest ih =>
    intro g hg
    rw [groupsOfTwo] at hg
    cases hrest : groupsOfTwo rest with
    | nil => simp [hrest] at hg
    | cons g' groups =>
      rw [hrest, List.dropLast_cons_cons, List.mem_cons] at hg
      rcases hg with rfl | hg
      · rfl
      · exact ih g (hrest ▸ hg)

theorem length_of_mem_groupsOfTwo (cs : List Char) :
    ∀ g ∈ groupsOfTwo cs, g.length = 1 ∨ g.length = 2 := by
  induction cs using groupsOfTwo.induct with
  | case1 => simp [groupsOfTwo]
  | case2 a => simp [groupsOfTwo]
  | case3 b a rest ih =>
    intro g hg
    rw [groupsOfTwo, List.mem_cons] at hg
    rcases hg with rfl | hg
    · exact Or.inr rfl
    · exact ih g hg

/-- The groups in the order in which they are written. -/
def indianGroups (s : List Char) : List (List Char) :=
  (groupsOfTwo (s.take (s.length - 3)).reverse).reverse ++ [s.drop (s.length - 3)]

theorem formatIndianInt_eq (n : ℕ) :
    formatIndianInt n = [','].intercalate (indianGroups (Nat.toDigits 10 n)) := by
  simp only [formatIndianInt]
  split
  · next h =>
    have hcut : (Nat.toDigits 10 n).length - 3 = 0 := by omega
    rw [indianGroups, hcut, List.take_zero, List.drop_zero]
    exact List.intercalate_singleton.symm
  · rw [List.reverse_cons, indianGroups]

theorem flatten_indianGroups (s : List Char) : (indianGroups s).flatten = s := by
  rw [indianGroups, ← List.reverse_cons, flatten_groups]

theorem splitOn_formatIndianInt (n : ℕ) :
    (formatIndianInt n).splitOn ',' = indianGroups (Nat.toDigits 10 n) := by
  rw [formatIndianInt_eq]
  refine List.splitOn_intercalate ',' (fun g hg hcomma => ?_) (by simp [indianGroups])
  have hmem : ',' ∈ (indianGroups (Nat.toDigits 10 n)).flatten :=
    List.mem_flatten.mpr ⟨g, hg, hcomma⟩
  rw [flatten_indianGroups] at hmem
  exact absurd (F64.isDigit_of_mem_toDigits hmem) (by decide)

/-! ## The ends -/

theorem head?_ne_of_splitOn {sep : Char} {text first : List Char} {groups : List (List Char)}
    (h : text.splitOn sep = first :: groups) (hne : first ≠ []) : text.head? ≠ some sep := by
  intro hhead
  obtain ⟨rest, rfl⟩ := List.head?_eq_some_iff.mp hhead
  rw [← List.nil_append (sep :: rest), List.splitOn_append_cons_self, List.splitOn_nil] at h
  exact hne (List.cons.inj h).1.symm

theorem getLast?_ne_of_splitOn {sep : Char} {text last : List Char} {groups : List (List Char)}
    (h : text.splitOn sep = groups ++ [last]) (hne : last ≠ []) : text.getLast? ≠ some sep := by
  intro hlast
  obtain ⟨rest, rfl⟩ := List.getLast?_eq_some_iff.mp hlast
  rw [List.splitOn_append_cons_self, List.splitOn_nil] at h
  exact hne (List.append_inj_right' h rfl |> List.cons.inj |>.1).symm

/-- **Every number is written in Indian groups.** -/
theorem isIndianGrouped_formatIndianInt (n : ℕ) :
    IsIndianGrouped (Nat.toDigits 10 n) (formatIndianInt n) := by
  have hsplit := splitOn_formatIndianInt n
  have hpos : 0 < (Nat.toDigits 10 n).length := Nat.length_toDigits_pos
  generalize hs : Nat.toDigits 10 n = s at hsplit hpos ⊢
  have hlast : (s.drop (s.length - 3)).length = min 3 s.length := by
    rw [List.length_drop]
    omega
  have hlastNe : s.drop (s.length - 3) ≠ [] := by
    rw [← List.length_pos_iff, hlast]
    omega
  have hnonempty : ∀ g ∈ indianGroups s, g ≠ [] := by
    intro g hg
    rw [indianGroups, List.mem_append, List.mem_reverse, List.mem_singleton] at hg
    rcases hg with hg | rfl
    · rw [← List.length_pos_iff]
      rcases length_of_mem_groupsOfTwo _ g hg with h | h <;> omega
    · exact hlastNe
  refine ⟨hs ▸ filter_formatIndianInt n, ⟨_, _, hsplit, hlast, ?_, ?_⟩, ?_, ?_⟩
  · intro first hfirst
    rw [List.head?_reverse] at hfirst
    exact length_of_mem_groupsOfTwo _ first (List.mem_of_getLast? hfirst)
  · intro group hgroup
    rw [List.tail_reverse, List.mem_reverse] at hgroup
    exact length_of_mem_dropLast_groupsOfTwo _ group hgroup
  · cases hgroups : indianGroups s with
    | nil => simp [indianGroups] at hgroups
    | cons first groups =>
      rw [hgroups] at hsplit hnonempty
      exact head?_ne_of_splitOn hsplit (hnonempty first List.mem_cons_self)
  · exact getLast?_ne_of_splitOn hsplit hlastNe

example : formatIndianInt 1234567 = "12,34,567".toList := by decide +kernel

end Desktop.Parser
