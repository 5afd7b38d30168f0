import BankStatementProcessor.Desktop.Parser.TransactionExtractor

/-!
# Ruling lines

A word without letters and digits leaves no trace, unless it stands behind the wall and has the
shape of an amount. Then it is one fragment more.
-/

namespace Desktop.Parser

open Infra

section

variable {isAlphanumeric : Char → Bool} {fl : F64 → F64} {wallX : F64}
  {anchors : AmountColumn → F64} {row before behind : List PdfItem} {noise : PdfItem}
  {block : Fragments}

/-- The fragments of all columns. -/
def Fragments.count (block : Fragments) : ℕ :=
  (block.frags .col0).length + (block.frags .col1).length + (block.frags .balance).length

theorem Fragments.count_pushTo (block : Fragments) (col : AmountColumn) (text : String) :
    (block.pushTo col text).count = block.count + 1 := by
  cases col <;> simp [Fragments.count, Fragments.pushTo] <;> omega

theorem Fragments.count_foldl {α : Type*} (f : α → AmountColumn) (g : α → String) (xs : List α)
    (block : Fragments) :
    (xs.foldl (fun b x => b.pushTo (f x) (g x)) block).count = block.count + xs.length := by
  induction xs generalizing block with
  | nil => rfl
  | cons x xs ih => rw [List.foldl_cons, ih, count_pushTo, List.length_cons]; omega

/-- Every item that has the shape of an amount is one fragment. -/
theorem count_classifyRow (row : List PdfItem) (block : Fragments) :
    (classifyRow isAlphanumeric fl wallX anchors row block).count =
      block.count + (amountItems wallX row).length := by
  unfold classifyRow
  dsimp only
  have hlength : (sortByX (amountItems wallX row)).length = (amountItems wallX row).length :=
    List.length_mergeSort _
  have hkept : ∀ parts, Fragments.count { block with narrationParts := parts } = block.count :=
    fun _ => rfl
  rw [Fragments.count_foldl (fun it : PdfItem => nearestColumn fl anchors it.x) PdfItem.text,
    Fragments.count_foldl (fun p : AmountColumn × PdfItem => p.1) fun p => p.2.text,
    List.length_zip, List.length_drop, ← hlength]
  split <;> simp only [hkept, Nat.min_def] <;> split <;> omega

/-- A word that stands in no list changes nothing. -/
theorem classifyRow_insert_of_not (halnum : ∀ c ∈ noise.text.toList, isAlphanumeric c = false)
    (h : (isBehindWall wallX noise && isAmountShaped noise.text.toList) = false) :
    classifyRow isAlphanumeric fl wallX anchors (before ++ noise :: behind) block =
      classifyRow isAlphanumeric fl wallX anchors (before ++ behind) block := by
  have hitems : amountItems wallX (before ++ noise :: behind) =
      amountItems wallX (before ++ behind) := by
    rw [amountItems, amountItems, List.filter_append, List.filter_cons_of_neg (by simp [h]),
      ← List.filter_append]
  have hwords : narrationWords isAlphanumeric wallX (before ++ noise :: behind) =
      narrationWords isAlphanumeric wallX (before ++ behind) := by
    have hany : (trim noise.text.toList).any isAlphanumeric = false :=
      List.any_eq_false.mpr fun c hc => by simp [halnum c (trim_sublist.subset hc)]
    rw [narrationWords, narrationWords, List.filter_append,
      List.filter_cons_of_neg (by simp [hany]), ← List.filter_append]
  rw [classifyRow, classifyRow, hitems, hwords]

/-- What has the shape of an amount is no blank. -/
theorem trim_of_isAmountShaped {text : List Char} (h : isAmountShaped text = true) :
    trim text ≠ [] := by
  obtain ⟨hne, hall⟩ := Bool.and_eq_true_iff.mp h
  have hspace : ∀ c ∈ text, isWhitespace c = false := by
    intro c hc
    by_cases hjunk : c ∈ [ '\x7d', '|', '\x7b', '[', ']', '$']
    · have hjunks : ∀ c ∈ [ '\x7d', '|', '\x7b', '[', ']', '$'], isWhitespace c = false :=
        forall_mem_of_all (by decide)
      exact hjunks c hjunk
    · have hclean : c ∈ stripOcrJunk text := List.mem_filter.mpr ⟨hc, by simpa using hjunk⟩
      have hshape := List.all_eq_true.mp hall c hclean
      simp only [Bool.or_eq_true, beq_iff_eq] at hshape
      rcases hshape with (hdigit | rfl) | rfl
      · exact not_isSpace_of_isDigit hdigit
      · rfl
      · rfl
  rw [trim_eq_self hspace]
  rintro rfl
  cases hne

/-- A word without letters and digits leaves no trace just where it stands before the wall or does
not have the shape of an amount. -/
theorem classifyRow_noise_iff (isAlphanumeric : Char → Bool) (fl : F64 → F64) (wallX : F64)
    (anchors : AmountColumn → F64) (before behind : List PdfItem) (noise : PdfItem)
    (block : Fragments) (halnum : ∀ c ∈ noise.text.toList, isAlphanumeric c = false) :
    classifyRow isAlphanumeric fl wallX anchors (before ++ noise :: behind) block =
        classifyRow isAlphanumeric fl wallX anchors (before ++ behind) block ↔
      noise.x.lt wallX = true ∨ isAmountShaped noise.text.toList = false := by
  constructor
  · intro hsame
    by_contra hread
    rw [not_or, Bool.not_eq_true, Bool.not_eq_false] at hread
    obtain ⟨hwall, hshape⟩ := hread
    have hbehind : isBehindWall wallX noise = true := by
      simp [isBehindWall, hwall, trim_of_isAmountShaped hshape]
    have hcount := congrArg Fragments.count hsame
    rw [count_classifyRow, count_classifyRow, amountItems, amountItems, List.filter_append,
      List.filter_append, List.filter_cons_of_pos (by simp [hbehind, hshape]), List.length_append,
      List.length_append, List.length_cons] at hcount
    omega
  · intro hnone
    refine classifyRow_insert_of_not halnum ?_
    rcases hnone with hwall | hshape
    · simp [isBehindWall, hwall]
    · simp [hshape]

/-- A colon between two words is dropped. -/
theorem classifyRow_colon :
    classifyRow Char.isAlphanum id (.finite 100) (fun _ => .finite 300)
        ([⟨.finite 110, "SMC"⟩] ++ ⟨.finite 150, ":"⟩ :: [⟨.finite 190, "GLOBAL"⟩])
        ⟨[], fun _ => []⟩ =
      classifyRow Char.isAlphanum id (.finite 100) (fun _ => .finite 300)
        ([⟨.finite 110, "SMC"⟩] ++ [⟨.finite 190, "GLOBAL"⟩]) ⟨[], fun _ => []⟩ :=
  (classifyRow_noise_iff Char.isAlphanum id (.finite 100) (fun _ => .finite 300) _ _
    ⟨.finite 150, ":"⟩ _ (forall_mem_of_all (by decide +kernel))).mpr (Or.inr (by decide +kernel))

/-- A dot is taken for a fragment of an amount. -/
theorem dot_is_a_fragment :
    ¬ ∀ (before behind : List PdfItem) (noise : PdfItem) (block : Fragments),
      (∀ c ∈ noise.text.toList, c.isAlphanum = false) →
        classifyRow Char.isAlphanum id (.finite 100) (fun _ => .finite 300)
            (before ++ noise :: behind) block =
          classifyRow Char.isAlphanum id (.finite 100) (fun _ => .finite 300)
            (before ++ behind) block := by
  intro hsame
  have hdot := hsame [] [] ⟨.finite 150, "."⟩ ⟨[], fun _ => []⟩ (forall_mem_of_all (by decide +kernel))
  have hcount := congrArg Fragments.count hdot
  rw [count_classifyRow, count_classifyRow] at hcount
  revert hcount
  decide +kernel

end

end Desktop.Parser
