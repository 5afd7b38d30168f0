import BankStatementProcessor.Desktop.Properties.BankTerms
import BankStatementProcessor.Infra.EditDistance

/-!
# The nearest term

What the table of `levenshtein` computes is the least number of letters to put in, leave out or
replace, and a word that is corrected becomes the first of the nearest terms. The terms that are
not compared, because of their lengths, are too far.
-/

namespace Desktop.Parser.OcrCorrection

open Infra

variable {w up : List Char} {len : ℕ} {term : String}

theorem isLeast_editDistance (a b : List Char) : IsLeast {n | Aligned a b n} (editDistance a b) := by
  induction a generalizing b with
  | nil => exact isLeast_nil b
  | cons a as ih =>
    rw [editDistance]
    induction b with
    | nil => exact isLeast_nil_right (a :: as)
    | cons b bs ihb =>
      rw [editRow]
      exact isLeast_cons (ih bs) (ih (b :: bs)) ihb

/-- `levenshtein` is the least number of characters to put in, leave out or replace. -/
theorem isLeast_levenshtein (a b : List Char) : IsLeast {n | Edits n a b} (levenshtein a b) := by
  have hreverse := isLeast_edits_iff.mpr (isLeast_editDistance a.reverse b.reverse)
  simpa only [levenshtein, Edits.reverse_iff] using hreverse

/-- The length of a term that is near is close: the terms that are not compared are too far. -/
theorem isCloseLength_of_near (hlen : up.length = len)
    (h : levenshtein up term.toList ≤ maxDist len) : isCloseLength len term = true := by
  have hlength := Edits.length_le (isLeast_levenshtein up term.toList).1
  rw [isCloseLength, decide_eq_true_eq]
  omega

theorem nearerTerm_eq (hlen : up.length = len) (best : Option (ℕ × String)) :
    nearerTerm up len best term =
      if (best.elim true fun b => levenshtein up term.toList < b.1) &&
          levenshtein up term.toList ≤ maxDist len then
        some (levenshtein up term.toList, term)
      else best := by
  unfold nearerTerm
  cases hclose : isCloseLength len term with
  | true => rfl
  | false =>
    have hfar : ¬levenshtein up term.toList ≤ maxDist len := fun hnear => by
      rw [isCloseLength_of_near hlen hnear] at hclose
      cases hclose
    simp [hfar]

/-- The loop over the terms has the first of the nearest ones so far. -/
theorem foldl_nearerTerm_cases (hlen : up.length = len) (terms : List String) :
    (terms.foldl (nearerTerm up len) none = none ∧
        ∀ t ∈ terms, maxDist len < levenshtein up t.toList) ∨
      ∃ pre term post, terms = pre ++ term :: post ∧
        terms.foldl (nearerTerm up len) none = some (levenshtein up term.toList, term) ∧
        levenshtein up term.toList ≤ maxDist len ∧
        (∀ t ∈ pre, levenshtein up term.toList < levenshtein up t.toList) ∧
        ∀ t ∈ post, levenshtein up term.toList ≤ levenshtein up t.toList := by
  induction terms using List.reverseRecOn with
  | nil => exact Or.inl ⟨rfl, by simp⟩
  | append_singleton terms last ih =>
    rw [List.foldl_append, List.foldl_cons, List.foldl_nil, nearerTerm_eq hlen]
    rcases ih with ⟨hnone, hfar⟩ | ⟨pre, term, post, rfl, hsome, hnear, hpre, hpost⟩
    · rw [hnone, Option.elim_none, Bool.true_and]
      by_cases hlast : levenshtein up last.toList ≤ maxDist len
      · refine Or.inr ⟨terms, last, [], rfl, by simp [hlast], hlast, fun t ht => ?_, by simp⟩
        exact hlast.trans_lt (hfar t ht)
      · refine Or.inl ⟨by simp [hlast], fun t ht => ?_⟩
        rcases List.mem_append.mp ht with ht | ht
        · exact hfar t ht
        · rw [List.mem_singleton.mp ht]
          exact Nat.lt_of_not_le hlast
    · rw [hsome, Option.elim_some]
      by_cases hlast : levenshtein up last.toList < levenshtein up term.toList
      · -- a term that is nearer than the one so far is nearer than all
        refine Or.inr ⟨pre ++ term :: post, last, [], rfl, ?_, by omega, fun t ht => ?_, by simp⟩
        · rw [if_pos]
          simp only [Bool.and_eq_true, decide_eq_true_eq]
          omega
        · rcases List.mem_append.mp ht with ht | ht
          · exact hlast.trans (hpre t ht)
          · rcases List.mem_cons.mp ht with rfl | ht
            · exact hlast
            · exact hlast.trans_le (hpost t ht)
      · refine Or.inr ⟨pre, term, post ++ [last], by simp, by simp [hlast], hnear, hpre, ?_⟩
        intro t ht
        rcases List.mem_append.mp ht with ht | ht
        · exact hpost t ht
        · rw [List.mem_singleton.mp ht]
          exact Nat.le_of_not_lt hlast

/-- Some changes within the limit make `term` of the word, and it takes more of them to make a
term that stands before it, and as many to make one behind it. -/
def IsFirstNearest (terms : List String) (up : List Char) (limit : ℕ) (term : String) : Prop :=
  ∃ pre post n, terms = pre ++ term :: post ∧ n ≤ limit ∧ Edits n up term.toList ∧
    (∀ t ∈ pre, ∀ m ≤ n, ¬Edits m up t.toList) ∧ ∀ t ∈ post, ∀ m < n, ¬Edits m up t.toList

/-- **A scanned word becomes the nearest term**, in the number of its letters that have to be put
in, left out or replaced, and the first of these in the dictionary. It stays as it is only if no
term is within the limit for its length. -/
theorem scanned_word_becomes_nearest_term (u : Unicode) (hletters : ∀ c ∈ w, c.isAlpha = true)
    (hlength : 4 ≤ w.length ∧ w.length ≤ 15) :
    (∃ term, IsFirstNearest bankTerms (w.map Char.toUpper) (maxDist w.length) term ∧
        fuzzyCorrectTerm u w = term.toList) ∨
      (∀ term ∈ bankTerms, ∀ n ≤ maxDist w.length, ¬Edits n (w.map Char.toUpper) term.toList) ∧
        fuzzyCorrectTerm u w = w := by
  have hupper : u.toUppercase w = w.map Char.toUpper :=
    toUppercase_eq_map u fun c hc => isAscii_of_isAlpha (hletters c hc)
  have hlen : (w.map Char.toUpper).length = w.length := List.length_map _
  generalize hup : w.map Char.toUpper = up at hupper hlen ⊢
  unfold fuzzyCorrectTerm
  rw [hupper]
  dsimp only
  by_cases hterm : bankTerms.any (fun t => t.toList = up) = true
  · rw [if_pos hterm]
    obtain ⟨term, hmem, heq⟩ := List.any_eq_true.mp hterm
    obtain rfl := of_decide_eq_true heq
    obtain ⟨pre, post, hsplit, hfirst⟩ := List.eq_append_cons_of_mem hmem
    refine Or.inl ⟨term, ⟨pre, post, 0, hsplit, Nat.zero_le _, .refl _, ?_, by simp⟩, rfl⟩
    intro t ht m hm hedits
    obtain rfl : m = 0 := Nat.le_zero.mp hm
    exact hfirst (String.toList_inj.mp hedits.eq_of_zero ▸ ht)
  · have hinside : (!(decide (4 ≤ w.length) && decide (w.length ≤ 15))) = false := by
      simp [hlength]
    rw [if_neg hterm, hinside, if_neg Bool.false_ne_true]
    have hleast := fun t : String => isLeast_levenshtein up t.toList
    rcases foldl_nearerTerm_cases hlen bankTerms with
      ⟨hnone, hfar⟩ | ⟨pre, term, post, hsplit, hsome, hnear, hpre, hpost⟩
    · rw [hnone]
      refine Or.inr ⟨fun t ht n hn hedits => ?_, rfl⟩
      exact absurd ((hleast t).2 hedits) (Nat.not_le_of_lt (hn.trans_lt (hfar t ht)))
    · rw [hsome]
      refine Or.inl ⟨term, ⟨pre, post, _, hsplit, hnear, (hleast term).1, ?_, ?_⟩, rfl⟩
      · intro t ht m hm hedits
        exact absurd ((hleast t).2 hedits) (Nat.not_le_of_lt (hm.trans_lt (hpre t ht)))
      · intro t ht m hm hedits
        exact absurd ((hleast t).2 hedits) (Nat.not_le_of_lt (hm.trans_le (hpost t ht)))

/-- A word with one letter that is not the one of a term. -/
theorem balence_becomes_term : ∃ term, IsFirstNearest bankTerms "BALENCE".toList 2 term ∧
    fuzzyCorrectTerm .ascii "BALENCE".toList = term.toList := by
  have hone : Edits 1 "BALENCE".toList "BALANCE".toList :=
    .step (.replace "BAL".toList "NCE".toList 'E' 'A') (.refl _)
  refine (scanned_word_becomes_nearest_term (w := "BALENCE".toList) .ascii
    (forall_mem_of_all (by decide)) (by decide)).resolve_right fun hfar => ?_
  exact hfar.1 "BALANCE" (by decide) 1 (by decide) hone

end Desktop.Parser.OcrCorrection
