import BankStatementProcessor.Desktop.GstTag
import BankStatementProcessor.Infra.Ascii

/-!
# A registration number in the text

The scan visits every byte but the last one at which a window can begin, so it misses a number at
the very end.
-/

namespace Desktop

open Infra

/-- Two digits, five letters, four digits and four letters or digits. -/
structure IsGstin (w : List Char) : Prop where
  length : w.length = 15
  state : ((w.take 2).all Char.isDigit) = true
  letters : (((w.drop 2).take 5).all Char.isAlpha) = true
  digits : (((w.drop 7).take 4).all Char.isDigit) = true
  alphanum : w.all Char.isAlphanum = true

/-- A number stands somewhere in the text. -/
def HasGstin (n : List Char) : Prop := ∃ a w b, n = a ++ (w ++ b) ∧ IsGstin w

/-- A number stands in the text, and more follows. -/
def HasGstinBeforeEnd (n : List Char) : Prop := ∃ a w b, n = a ++ (w ++ b) ∧ IsGstin w ∧ b ≠ []

/-! ## One chunk -/

section

variable {n w : List Char} {i : ℕ}

theorem utf8Size_of_isAlphanum {c : Char} (h : c.isAlphanum = true) : c.utf8Size = 1 := by
  rw [Char.utf8Size_eq_one_iff, UInt32.le_iff_toNat_le]
  have hcase : c.isAlpha = true ∨ c.isDigit = true := Bool.or_eq_true_iff.mp h
  have hbound : c.val.toNat ≤ 122 := by
    rcases hcase with halpha | hdigit
    · have hbounds := toNat_of_isAlpha halpha
      exact show c.toNat ≤ 122 by omega
    · have hbounds := bounds_of_isDigit hdigit
      exact show c.toNat ≤ 122 by omega
  exact hbound.trans (by decide)

theorem utf8Size_of_all (h : w.all Char.isAlphanum = true) : ∀ c ∈ w, c.utf8Size = 1 :=
  fun c hc => utf8Size_of_isAlphanum (List.all_eq_true.mp h c hc)

theorem IsGstin.utf8Len_eq (h : IsGstin w) : utf8Len w = 15 := by
  rw [utf8Len_eq_length (utf8Size_of_all h.alphanum), h.length]

theorem IsGstin.isCharBoundary (h : IsGstin w) (hi : i ≤ 15) : isCharBoundary w i = true :=
  isCharBoundary_of_le (utf8Size_of_all h.alphanum) (by rw [h.length]; exact hi)

/-- The tests find the numbers, and none of their slices panics. -/
theorem isGstinChunk_spec (w : List Char) :
    ∃ found, isGstinChunk w = some found ∧ (found = true ↔ IsGstin w) := by
  unfold isGstinChunk
  split
  · next hcut =>
    obtain ⟨hlen, h2, h7, h11⟩ := hcut
    have h0 : isCharBoundary w 0 = true := isCharBoundary_iff.mpr ⟨[], w, rfl, rfl⟩
    obtain ⟨state, hstate⟩ := exists_slice (by omega) h0 h2
    obtain ⟨letters, hletters⟩ := exists_slice (by omega) h2 h7
    obtain ⟨digits, hdigits⟩ := exists_slice (by omega) h7 h11
    refine ⟨_, by rw [hstate, hletters, hdigits]; rfl, ?_⟩
    have hcuts : w.all Char.isAlphanum = true → w.length = 15 ∧ state = w.take 2 ∧
        letters = (w.drop 2).take 5 ∧ digits = (w.drop 7).take 4 := by
      intro hall
      have hone := utf8Size_of_all hall
      have hlength : w.length = 15 := by rw [← utf8Len_eq_length hone, hlen]
      rw [slice_eq_take hone (by omega) (by omega)] at hstate hletters hdigits
      exact ⟨hlength, (Option.some.inj hstate).symm, (Option.some.inj hletters).symm,
        (Option.some.inj hdigits).symm⟩
    constructor
    · intro hall
      simp only [Bool.and_eq_true] at hall
      obtain ⟨⟨⟨hs, hl⟩, hd⟩, ha⟩ := hall
      obtain ⟨hlength, rfl, rfl, rfl⟩ := hcuts ha
      exact ⟨hlength, hs, hl, hd, ha⟩
    · intro h
      obtain ⟨-, rfl, rfl, rfl⟩ := hcuts h.alphanum
      simp only [Bool.and_eq_true]
      exact ⟨⟨⟨h.state, h.letters⟩, h.digits⟩, h.alphanum⟩
  · next hcut =>
    refine ⟨false, rfl, iff_of_false Bool.false_ne_true fun h => hcut ?_⟩
    exact ⟨h.utf8Len_eq, h.isCharBoundary (by omega), h.isCharBoundary (by omega),
      h.isCharBoundary (by omega)⟩

/-- One turn finds a number that begins at its byte, and nothing else. -/
theorem gstinAt_spec (n : List Char) (i : ℕ) :
    ∃ found, gstinAt n i = some found ∧
      (found = true ↔ ∃ a w b, n = a ++ (w ++ b) ∧ utf8Len a = i ∧ IsGstin w) := by
  unfold gstinAt
  split
  · next hcut =>
    refine ⟨false, rfl, iff_of_false Bool.false_ne_true ?_⟩
    rintro ⟨a, w, b, rfl, rfl, hw⟩
    have hstart : isCharBoundary (a ++ (w ++ b)) (utf8Len a) = true :=
      isCharBoundary_iff.mpr ⟨a, w ++ b, rfl, rfl⟩
    have hend : isCharBoundary (a ++ (w ++ b)) (utf8Len a + 15) = true :=
      isCharBoundary_iff.mpr ⟨a ++ w, b, (List.append_assoc a w b).symm, by
        rw [utf8Len_append, hw.utf8Len_eq]⟩
    rw [hstart, hend] at hcut
    exact absurd hcut Bool.false_ne_true
  · next hcut =>
    simp only [Bool.or_eq_true, Bool.not_eq_true', not_or, Bool.not_eq_false] at hcut
    obtain ⟨chunk, hchunk⟩ := exists_slice (Nat.le_add_right i 15) hcut.1 hcut.2
    obtain ⟨found, hfound, hiff⟩ := isGstinChunk_spec chunk
    refine ⟨found, by rw [hchunk]; exact hfound, hiff.trans ?_⟩
    obtain ⟨a, b, rfl, rfl, hlen⟩ := slice_eq_some_iff.mp hchunk
    constructor
    · intro hw
      exact ⟨a, chunk, b, rfl, rfl, hw⟩
    · rintro ⟨a', w, b', heq, hsame, hw⟩
      have hslice : slice (a' ++ (w ++ b')) (utf8Len a') (utf8Len a' + 15) = some w :=
        slice_eq_some_iff.mpr ⟨a', b', rfl, rfl, by rw [hw.utf8Len_eq]⟩
      rw [← heq, hsame, hchunk] at hslice
      rwa [Option.some.inj hslice]

/-! ## The scan -/

/-- A test that never panics decides whether some element passes. -/
theorem anyM_eq_some {α : Type} {test : α → Option Bool} {holds : α → Prop} {l : List α}
    (h : ∀ a ∈ l, ∃ found, test a = some found ∧ (found = true ↔ holds a)) :
    ∃ found, l.anyM test = some found ∧ (found = true ↔ ∃ a ∈ l, holds a) := by
  induction l with
  | nil => exact ⟨false, rfl, by simp⟩
  | cons a l ih =>
    obtain ⟨here, hhere, hiff⟩ := h a List.mem_cons_self
    obtain ⟨later, hlater, hlaterIff⟩ := ih fun b hb => h b (List.mem_cons_of_mem a hb)
    refine ⟨here || later, ?_, ?_⟩
    · rw [List.anyM_cons, hhere]
      cases here with
      | true => rfl
      | false => exact hlater
    · rw [Bool.or_eq_true, hiff, hlaterIff, List.exists_mem_cons_iff]

/-- The scan finds the numbers that something follows. -/
theorem scan_spec (n : List Char) :
    ∃ found, (List.range (utf8Len n - 15)).anyM (gstinAt n) = some found ∧
      (found = true ↔ HasGstinBeforeEnd n) := by
  obtain ⟨found, hscan, hiff⟩ := anyM_eq_some (l := List.range (utf8Len n - 15))
    fun i _ => gstinAt_spec n i
  refine ⟨found, hscan, hiff.trans ?_⟩
  constructor
  · rintro ⟨i, hi, a, w, b, rfl, rfl, hw⟩
    refine ⟨a, w, b, rfl, hw, ?_⟩
    rintro rfl
    rw [List.mem_range, List.append_nil, utf8Len_append, hw.utf8Len_eq] at hi
    omega
  · rintro ⟨a, w, b, rfl, hw, hb⟩
    have hpos := utf8Len_pos hb
    refine ⟨utf8Len a, List.mem_range.mpr ?_, a, w, b, rfl, rfl, hw⟩
    rw [utf8Len_append, utf8Len_append, hw.utf8Len_eq]
    omega

/-- `detect_gst` never panics, and finds the tax by a word or by a number before the end. -/
theorem detectGst_spec (u : Unicode) (narration reference : String) :
    ∃ r, detectGst u narration reference = some r ∧
      (r = some "GST" ↔ namesGst (gstText u narration reference) = true ∨
        HasGstinBeforeEnd (gstText u narration reference)) := by
  unfold detectGst
  obtain ⟨found, hscan, hiff⟩ := scan_spec (gstText u narration reference)
  dsimp only
  split
  · next hword => exact ⟨some "GST", rfl, iff_of_true rfl (Or.inl hword)⟩
  · next hword =>
    refine ⟨_, by rw [hscan]; rfl, ?_⟩
    rw [or_iff_right hword, ← hiff]
    cases found with
    | true => exact iff_of_true rfl rfl
    | false =>
      refine iff_of_false ?_ Bool.false_ne_true
      rw [if_neg Bool.false_ne_true]
      split
      · exact fun h => absurd (Option.some.inj h) (by decide)
      · exact nofun

/-! ## Where the scan is right -/

/-- The tag is found wherever the number stands, and no text panics. -/
def FindsGstin (u : Unicode) (narration reference : String) : Prop :=
  (∃ r, detectGst u narration reference = some r) ∧
    (HasGstin (gstText u narration reference) → detectGst u narration reference = some (some "GST"))

/-- The tag is found just where a number that ends the text is not the only sign of the tax. -/
theorem findsGstin_iff (u : Unicode) (narration reference : String) :
    FindsGstin u narration reference ↔
      (HasGstin (gstText u narration reference) →
        namesGst (gstText u narration reference) = true ∨
          HasGstinBeforeEnd (gstText u narration reference)) := by
  obtain ⟨r, hr, hiff⟩ := detectGst_spec u narration reference
  unfold FindsGstin
  rw [hr, ← hiff]
  constructor
  · rintro ⟨-, h⟩ hnumber
    exact Option.some.inj (h hnumber)
  · intro h
    exact ⟨⟨r, rfl⟩, fun hnumber => congrArg some (h hnumber)⟩

/-- A number that ends the reference is missed. -/
theorem gstin_at_end_is_missed : ¬FindsGstin .ascii "NEFT" "27AAPFU0939F1ZV" := by
  intro h
  have hnone : detectGst .ascii "NEFT" "27AAPFU0939F1ZV" = some none := by decide +kernel
  have hnumber : HasGstin (gstText .ascii "NEFT" "27AAPFU0939F1ZV") :=
    ⟨"NEFT ".toList, "27AAPFU0939F1ZV".toList, [], by decide +kernel,
      ⟨by decide +kernel, by decide +kernel, by decide +kernel, by decide +kernel,
        by decide +kernel⟩⟩
  rw [h.2 hnumber] at hnone
  exact absurd (Option.some.inj hnone) nofun

end

end Desktop
