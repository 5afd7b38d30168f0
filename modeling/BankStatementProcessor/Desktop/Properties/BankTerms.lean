import BankStatementProcessor.Desktop.Parser.DateParser
import BankStatementProcessor.Desktop.Parser.OcrCorrection
import BankStatementProcessor.Infra.Ascii

/-!
# Bank terms

A pass goes over a text word by word. It keeps every bank term but one, the term that is made of
letters that stand for digits.
-/

namespace Desktop.Parser.OcrCorrection

open Infra

/-! ## Words -/

section

variable {u : Unicode} {s tok x y w : List Char} {c : Char}

/-- What a pass makes of a word. -/
def correctWord (u : Unicode) (w : List Char) : List Char := correctTerm u (repairString w)

/-- At a separator a text is repaired on both sides of it. -/
theorem repairFrom_append_cons (tok x y : List Char) (hc : isTokenSep c = true) :
    repairFrom tok (x ++ c :: y) = repairFrom tok x ++ c :: repairString y := by
  induction x generalizing tok with
  | nil =>
    rw [List.nil_append, repairFrom.eq_2, if_pos hc]
    rfl
  | cons d x ih =>
    rw [List.cons_append, repairFrom, repairFrom]
    split
    · rw [ih, List.append_assoc, List.cons_append]
    · exact ih _

theorem length_repairToken (tok : List Char) : (repairToken tok).length = tok.length := by
  unfold repairToken
  split
  · exact List.length_map _
  · rfl

theorem length_repairFrom (tok s : List Char) :
    (repairFrom tok s).length = tok.length + s.length := by
  induction s generalizing tok with
  | nil => rw [repairFrom, length_repairToken, List.length_nil, Nat.add_zero]
  | cons c s ih =>
    rw [repairFrom]
    split
    · rw [List.length_append, List.length_cons, ih, length_repairToken, List.length_nil,
        List.length_cons]
      omega
    · rw [ih, List.length_append, List.length_singleton, List.length_cons]
      omega

/-- A repaired character is the one that stood there, or a digit. -/
theorem mem_repairToken (h : c ∈ repairToken tok) : c ∈ tok ∨ c.isDigit = true := by
  unfold repairToken at h
  split at h
  · obtain ⟨d, hd, rfl⟩ := List.mem_map.mp h
    have hchar : repairChar d = d ∨ (repairChar d).isDigit = true := by
      unfold repairChar
      split_ifs <;> simp
    exact hchar.imp_left fun heq => by rw [heq]; exact hd
  · exact Or.inl h

theorem mem_repairFrom (h : c ∈ repairFrom tok s) : c ∈ tok ++ s ∨ c.isDigit = true := by
  induction s generalizing tok with
  | nil =>
    rw [List.append_nil]
    exact mem_repairToken h
  | cons d s ih =>
    rw [repairFrom] at h
    split at h
    · rcases List.mem_append.mp h with h | h
      · exact (mem_repairToken h).imp_left (List.mem_append_left _)
      · rcases List.mem_cons.mp h with rfl | h
        · exact Or.inl (List.mem_append_right _ List.mem_cons_self)
        · refine (ih h).imp_left fun hmem => List.mem_append_right _ (List.mem_cons_of_mem _ ?_)
          simpa using hmem
    · simpa using ih h

theorem isWord_repairString (h : IsWord isWhitespace w) : IsWord isWhitespace (repairString w) := by
  refine ⟨fun hnil => h.1 ?_, fun c hc => ?_⟩
  · have hlength := length_repairFrom [] w
    rw [← repairString, hnil] at hlength
    simpa using hlength.symm
  · rcases mem_repairFrom hc with hmem | hdigit
    · exact h.2 c (by simpa using hmem)
    · exact not_isSpace_of_isDigit hdigit

/-- The words are repaired one by one. -/
theorem words_repairString (s : List Char) :
    words isWhitespace (repairString s) = (words isWhitespace s).map repairString := by
  have hfree : ∀ x : List Char, (∀ c ∈ x, isWhitespace c = false) →
      words isWhitespace (repairString x) = (words isWhitespace x).map repairString := by
    intro x hx
    cases x with
    | nil => rfl
    | cons c x =>
      have hword : IsWord isWhitespace (c :: x) := ⟨List.cons_ne_nil _ _, hx⟩
      have hrepaired := isWord_repairString hword
      rw [words_of_forall hx hword.1, words_of_forall hrepaired.2 hrepaired.1]
      rfl
  induction s using split_induction isWhitespace with
  | free x hx => exact hfree x hx
  | cut x c y hx hc ih =>
    have hsep : isTokenSep c = true := by rw [isTokenSep, hc, Bool.true_or]
    rw [repairString, repairFrom_append_cons [] x y hsep, words_append_cons _ _ hc,
      words_append_cons _ _ hc, List.map_append, ← repairString, hfree x hx, ih]

theorem isWord_bankTerm {term : String} (h : term ∈ bankTerms) : IsWord isWhitespace term.toList := by
  have hterms : ∀ term ∈ bankTerms, term.toList.isEmpty = false ∧
      term.toList.all (fun c => !isWhitespace c) = true := by decide +kernel
  obtain ⟨hne, hall⟩ := hterms term h
  refine ⟨List.isEmpty_eq_false_iff.mp hne, fun c hc => ?_⟩
  simpa using List.all_eq_true.mp hall c hc

/-- The nearest term is one that is close enough. -/
theorem mem_of_nearerTerm {up : List Char} {n : ℕ} {terms : List String} {best : ℕ × String}
    (h : terms.foldl (nearerTerm up n) none = some best) :
    best.2 ∈ terms ∧ isCloseLength n best.2 = true := by
  induction terms using List.reverseRecOn with
  | nil => cases h
  | append_singleton terms term ih =>
    rw [List.foldl_append, List.foldl_cons, List.foldl_nil] at h
    have hbefore : terms.foldl (nearerTerm up n) none = some best →
        best.2 ∈ terms ++ [term] ∧ isCloseLength n best.2 = true := fun hbest =>
      (ih hbest).imp_left (List.mem_append_left _)
    unfold nearerTerm at h
    split at h
    · exact hbefore h
    · next hclose =>
      dsimp only at h
      split at h
      · obtain rfl := Option.some.inj h
        exact ⟨by simp, by simpa using hclose⟩
      · exact hbefore h

/-- A word becomes itself or a term. -/
theorem correctTerm_cases (u : Unicode) (w : List Char) :
    correctTerm u w = w ∨ ∃ term ∈ bankTerms, correctTerm u w = term.toList := by
  unfold correctTerm
  split
  · exact Or.inl rfl
  · dsimp only
    split
    · next hfixed =>
      simp only [Bool.and_eq_true, bne_iff_ne] at hfixed
      unfold fuzzyCorrectTerm at hfixed ⊢
      dsimp only at hfixed ⊢
      split
      · next hany => exact absurd (if_pos hany) hfixed.1
      · split
        · exact Or.inl rfl
        · cases hbest : bankTerms.foldl (nearerTerm (u.toUppercase w) w.length) none with
          | none => exact Or.inl rfl
          | some best => exact Or.inr ⟨best.2, (mem_of_nearerTerm hbest).1, rfl⟩
    · exact Or.inl rfl

theorem isWord_correctWord (h : IsWord isWhitespace w) : IsWord isWhitespace (correctWord u w) := by
  rcases correctTerm_cases u (repairString w) with heq | ⟨term, hterm, heq⟩
  · rw [correctWord, heq]
    exact isWord_repairString h
  · rw [correctWord, heq]
    exact isWord_bankTerm hterm

/-! ## Texts -/

theorem words_correctLine (u : Unicode) (line : List Char) :
    words isWhitespace (correctLine u line) = (words isWhitespace line).map (correctWord u) := by
  unfold correctLine
  split
  · next hblank =>
    rw [← words_trim, List.isEmpty_iff.mp hblank]
    rfl
  · rw [words_repairString, List.map_map, words_join (by decide)]
    · rfl
    · intro w hw
      obtain ⟨v, hv, rfl⟩ := List.mem_map.mp hw
      exact isWord_correctWord (isWord_of_mem_words hv)

theorem words_textLines (s : List Char) :
    (textLines s).flatMap (words isWhitespace) = words isWhitespace s := by
  have hjoin : ['\n'].intercalate (s.splitOn '\n') = s := List.intercalate_splitOn '\n'
  have hne : s.splitOn '\n' ≠ [] := List.splitOn_ne_nil _ _
  have hended : ∀ l : List Char, words isWhitespace
      (if l.getLast? = some '\r' then l.dropLast else l) = words isWhitespace l := by
    intro l
    split
    · next hlast =>
      have hsplit : l = l.dropLast ++ ['\r'] := (List.dropLast_append_getLast? _ hlast).symm
      conv_rhs => rw [hsplit]
      rw [words_append_of_forall_right (List.forall_mem_singleton.mpr rfl)]
    · rfl
  conv_rhs => rw [← hjoin, words_intercalate (by decide)]
  unfold textLines
  dsimp only
  generalize s.splitOn '\n' = pieces at hne
  rcases List.eq_nil_or_concat pieces with rfl | ⟨ended, last, rfl⟩
  · exact absurd rfl hne
  · rw [List.concat_eq_append, List.dropLast_concat, List.getLast?_concat, List.flatMap_append,
      List.flatMap_append, List.flatMap_map, List.flatMap_singleton]
    simp only [hended]
    cases last with
    | nil => rfl
    | cons c last =>
      change _ ++ [c :: last].flatMap (words isWhitespace) = _
      rw [List.flatMap_singleton]

/-- A pass goes over the text word by word. -/
theorem words_correctPass (u : Unicode) (text : List Char) :
    words isWhitespace (correctPass u text) = (words isWhitespace text).map (correctWord u) := by
  rw [correctPass, words_intercalate (by decide), List.flatMap_map]
  simp only [words_correctLine]
  rw [← List.map_flatMap, words_textLines]

theorem words_correctText (u : Unicode) (text : List Char) (n : ℕ) :
    words isWhitespace (correctText u text n) =
      (words isWhitespace text).map (correctWord u)^[n] := by
  induction n with
  | zero => exact (List.map_id _).symm
  | succ n ih =>
    rw [correctText, Function.iterate_succ_apply', words_correctPass, ← correctText, ih,
      List.map_map, Function.iterate_succ']

end

/-! ## Terms -/

section

variable {u : Unicode} {s tok w : List Char} {c : Char}

/-- A term of the dictionary, in letters of any case. -/
def IsBankTerm (w : List Char) : Prop := w.map Char.toUpper ∈ bankTerms.map String.toList

/-- The same word up to case. -/
def SameWord (w w' : List Char) : Prop := w.map Char.toUpper = w'.map Char.toUpper

theorem isAlpha_of_isBankTerm (h : IsBankTerm w) (hc : c ∈ w) : c.isAlpha = true := by
  have hterms : ∀ term ∈ bankTerms, term.toList.all Char.isAlpha = true := by decide +kernel
  obtain ⟨term, hterm, heq⟩ := List.mem_map.mp h
  have hupper : c.toUpper.isAlpha = true := by
    refine List.all_eq_true.mp (hterms term hterm) _ ?_
    rw [heq]
    exact List.mem_map_of_mem hc
  by_contra halpha
  rw [(toUpper_eq_iff (eq_false_of_ne_true halpha)).mpr rfl] at hupper
  exact halpha hupper

theorem not_isTokenSep_of_isAlpha (hc : c.isAlpha = true) : isTokenSep c = false :=
  forall_isAscii (p := fun c => c.isAlpha = true → isTokenSep c = false) (by decide +kernel)
    (isAscii_of_isAlpha hc) hc

theorem not_isDigit_of_isAlpha (hc : c.isAlpha = true) : c.isDigit = false :=
  forall_isAscii (p := fun c => c.isAlpha = true → c.isDigit = false) (by decide +kernel)
    (isAscii_of_isAlpha hc) hc

theorem repairFrom_of_forall (h : ∀ c ∈ s, isTokenSep c = false) :
    repairFrom tok s = repairToken (tok ++ s) := by
  induction s generalizing tok with
  | nil => rw [List.append_nil]; rfl
  | cons c s ih =>
    obtain ⟨hc, hs⟩ := List.forall_mem_cons.mp h
    rw [repairFrom.eq_2, if_neg (ne_true_of_eq_false hc), ih hs, List.append_assoc]
    rfl

theorem repairString_of_isAlpha (h : ∀ c ∈ w, c.isAlpha = true) : repairString w = repairToken w :=
  repairFrom_of_forall fun c hc => not_isTokenSep_of_isAlpha (h c hc)

/-- Of the terms one is made of letters that stand for digits. -/
theorem eq_sbi_of_isPlausiblyNumeric (h : IsBankTerm w) (hnumeric : isPlausiblyNumeric w = true) :
    w = "SBI".toList := by
  have hlook : ∀ c ∈ w, c ∈ lookAlikes := by
    intro c hc
    rw [isPlausiblyNumeric, Bool.and_eq_true, List.all_eq_true] at hnumeric
    have hclass := hnumeric.2 c hc
    have halpha := isAlpha_of_isBankTerm h hc
    have hdigit := not_isDigit_of_isAlpha halpha
    simpa [hdigit] using hclass
  have hterms : ∀ term ∈ bankTerms,
      term.toList.all (lookAlikes.map Char.toUpper).contains = true → term = "SBI" := by
    decide +kernel
  obtain ⟨term, hterm, heq⟩ := List.mem_map.mp h
  have hsbi : w.map Char.toUpper = [ 'S', 'B', 'I'] := by
    rw [← heq, hterms term hterm]
    · rfl
    · rw [List.all_eq_true]
      intro d hd
      rw [heq] at hd
      obtain ⟨c, hc, rfl⟩ := List.mem_map.mp hd
      simpa using ⟨c, hlook c hc, rfl⟩
  have hcapital : ∀ c ∈ lookAlikes, (c.toUpper = 'S' → c = 'S') ∧ (c.toUpper = 'B' → c = 'B') ∧
      (c.toUpper = 'I' → c = 'I') := forall_mem_of_all (by decide)
  obtain ⟨a, b, c, rfl⟩ : ∃ a b c, w = [a, b, c] :=
    List.length_eq_three.mp (by rw [← List.length_map, hsbi]; rfl)
  simp only [List.map_cons, List.map_nil, List.cons.injEq, and_true] at hsbi
  obtain ⟨ha, hb, hc⟩ := hsbi
  rw [(hcapital a (hlook a (by simp))).1 ha, (hcapital b (hlook b (by simp))).2.1 hb,
    (hcapital c (hlook c (by simp))).2.2 hc]
  rfl

theorem fuzzyCorrectTerm_of_isBankTerm (u : Unicode) (h : IsBankTerm w) :
    fuzzyCorrectTerm u w = u.toUppercase w := by
  have hupper : u.toUppercase w = w.map Char.toUpper :=
    toUppercase_eq_map u fun c hc => isAscii_of_isAlpha (isAlpha_of_isBankTerm h hc)
  refine if_pos ?_
  obtain ⟨term, hterm, heq⟩ := List.mem_map.mp h
  exact List.any_eq_true.mpr ⟨term, hterm, by simpa [hupper] using heq⟩

/-- A pass keeps every term but that one. -/
theorem correctWord_of_isBankTerm (u : Unicode) (h : IsBankTerm w) (hne : w ≠ "SBI".toList) :
    correctWord u w = w := by
  have halpha : ∀ c ∈ w, c.isAlpha = true := fun c hc => isAlpha_of_isBankTerm h hc
  have hrepair : repairString w = w := by
    rw [repairString_of_isAlpha halpha, repairToken, if_neg]
    exact fun hnumeric => hne (eq_sbi_of_isPlausiblyNumeric h hnumeric)
  rw [correctWord, hrepair, correctTerm]
  split
  · rfl
  · simp [fuzzyCorrectTerm_of_isBankTerm u h]

theorem correctWord_sbi (u : Unicode) : correctWord u "SBI".toList = "581".toList := rfl

theorem correctWord_digits (u : Unicode) : correctWord u "581".toList = "581".toList := rfl

end

/-! ## The word that a pass makes that term of -/

section

variable {u : Unicode} {s tok w up : List Char} {c : Char}

/-- A token without digits in the end had none repaired. -/
theorem not_isPlausiblyNumeric (h : ∀ c ∈ repairToken tok, c.isDigit = false) :
    isPlausiblyNumeric tok = false := by
  refine eq_false_of_ne_true fun hnumeric => ?_
  rw [repairToken, if_pos hnumeric] at h
  have hclass := hnumeric
  rw [isPlausiblyNumeric, Bool.and_eq_true, Bool.and_eq_true, Bool.not_eq_true',
    List.isEmpty_eq_false_iff, List.all_eq_true] at hclass
  obtain ⟨c, hc⟩ := List.exists_mem_of_ne_nil _ hclass.1.1
  have hlook : ∀ c ∈ lookAlikes, (repairChar c).isDigit = true := forall_mem_of_all (by decide)
  have hkeeps : c.isDigit = true → repairChar c = c := by
    intro hdigit
    have hne : ∀ d : Char, d.isDigit = false → (c = d) = False :=
      fun d hd => eq_false fun heq => by rw [heq, hd] at hdigit; cases hdigit
    simp [repairChar, hne]
  have hdigit : (repairChar c).isDigit = true := by
    rcases Bool.or_eq_true_iff.mp (hclass.2 c hc) with hdigit | hmem
    · rw [hkeeps hdigit]
      exact hdigit
    · exact hlook c (by simpa using hmem)
  rw [h _ (List.mem_map_of_mem hc)] at hdigit
  cases hdigit

theorem repairToken_eq_self (h : ∀ c ∈ repairToken tok, c.isDigit = false) :
    repairToken tok = tok := if_neg (ne_true_of_eq_false (not_isPlausiblyNumeric h))

theorem repairFrom_eq_append (h : ∀ c ∈ repairFrom tok s, c.isDigit = false) :
    repairFrom tok s = tok ++ s := by
  induction s generalizing tok with
  | nil =>
    rw [List.append_nil]
    exact repairToken_eq_self h
  | cons c s ih =>
    rw [repairFrom.eq_2] at h ⊢
    split at h
    · next hsep =>
      rw [List.forall_mem_append, List.forall_mem_cons] at h
      rw [if_pos hsep, repairToken_eq_self h.1, ih h.2.2, List.nil_append]
    · next hsep =>
      rw [if_neg hsep, ih h, List.append_assoc]
      rfl

theorem eq_of_editDistance {a b : List Char} (h : editDistance a b = 0) : a = b := by
  induction a generalizing b with
  | nil => exact (List.length_eq_zero_iff.mp h).symm
  | cons a as ih =>
    rw [editDistance] at h
    cases b with
    | nil => cases h
    | cons b bs =>
      rw [editRow] at h
      split at h
      · next heq => rw [heq, ih h]
      · omega

theorem eq_of_levenshtein {a b : List Char} (h : levenshtein a b = 0) : a = b :=
  List.reverse_injective (eq_of_editDistance h)

/-- Where only one change is allowed, the first term in reach is taken. -/
theorem foldl_nearerTerm {n : ℕ} {terms : List String} (hn : maxDist n = 1)
    (hne : ∀ term ∈ terms, levenshtein up term.toList ≠ 0) :
    terms.foldl (nearerTerm up n) none =
      (terms.find? fun t => isCloseLength n t && levenshtein up t.toList ≤ 1).map
        fun t => (1, t) := by
  induction terms using List.reverseRecOn with
  | nil => rfl
  | append_singleton terms term ih =>
    rw [List.foldl_append, List.foldl_cons, List.foldl_nil,
      ih fun t ht => hne t (List.mem_append_left _ ht), List.find?_append]
    have hpos := hne term (by simp)
    cases terms.find? fun t => isCloseLength n t && levenshtein up t.toList ≤ 1 with
    | some t =>
      -- no later term is nearer than one change
      change nearerTerm up n (some (1, t)) term = some (1, t)
      unfold nearerTerm
      split
      · rfl
      · have hnot : ¬levenshtein up term.toList < 1 := by omega
        simp [hnot]
    | none =>
      rw [Option.map_none, Option.none_or]
      unfold nearerTerm
      cases hclose : isCloseLength n term with
      | false => simp [hclose]
      | true =>
        by_cases hnear : levenshtein up term.toList ≤ 1
        · have hone : levenshtein up term.toList = 1 := by omega
          simp [hclose, hn, hone]
        · simp [hclose, hn, hnear]

theorem find?_eq_some_iff_takeWhile {α : Type*} [DecidableEq α] {p : α → Bool} {l : List α} {a : α}
    (ha : a ∈ l) : l.find? p = some a ↔
      p a = true ∧ ∀ b ∈ l.takeWhile fun b => decide (b ≠ a), p b = false := by
  induction l with
  | nil => cases ha
  | cons b l ih =>
    by_cases hb : b = a
    · subst hb
      cases hp : p b with
      | true => simp [hp]
      | false =>
        rw [List.find?_cons, hp]
        constructor
        · intro hfind
          exact absurd (List.find?_some hfind) (by simp [hp])
        · rintro ⟨hfalse, -⟩
          cases hfalse
    · have hl : a ∈ l := (List.mem_cons.mp ha).resolve_left (Ne.symm hb)
      rw [List.takeWhile_cons_of_pos (by simpa using hb), List.forall_mem_cons, List.find?_cons]
      cases hp : p b with
      | true => simp [hb]
      | false => simpa using ih hl

/-- Four letters, not all of which stand for digits, that one change makes SBI and that one change
makes no term which stands before it. -/
structure IsNearSbi (w : List Char) : Prop where
  length : w.length = 4
  letters : ∀ c ∈ w, c.isAlpha = true
  text : isPlausiblyNumeric w = false
  near : levenshtein (w.map Char.toUpper) "SBI".toList = 1
  first : ∀ term ∈ bankTerms.takeWhile fun t => decide (t ≠ "SBI"), isCloseLength 4 term = true →
    1 < levenshtein (w.map Char.toUpper) term.toList

theorem not_isBankTerm_of_near (hlength : w.length = 4)
    (hnear : levenshtein (w.map Char.toUpper) "SBI".toList = 1) : ¬IsBankTerm w := by
  intro hterm
  have hterms : ∀ term ∈ bankTerms, term.toList.length = 4 →
      levenshtein term.toList "SBI".toList ≠ 1 := by decide +kernel
  obtain ⟨term, hmem, heq⟩ := List.mem_map.mp hterm
  refine hterms term hmem ?_ (heq ▸ hnear)
  rw [heq, List.length_map, hlength]

/-- A word of four letters that is no term becomes the first term in reach. -/
theorem fuzzyCorrectTerm_of_four (u : Unicode) (hlength : w.length = 4)
    (halpha : ∀ c ∈ w, c.isAlpha = true) (hterm : ¬IsBankTerm w) :
    fuzzyCorrectTerm u w = (bankTerms.find? fun t => isCloseLength 4 t &&
      levenshtein (w.map Char.toUpper) t.toList ≤ 1).elim w String.toList := by
  have hupper : u.toUppercase w = w.map Char.toUpper :=
    toUppercase_eq_map u fun c hc => isAscii_of_isAlpha (halpha c hc)
  have hany : ¬(bankTerms.any fun t => t.toList = w.map Char.toUpper) = true := by
    rw [List.any_eq_true]
    rintro ⟨term, hmem, heq⟩
    exact hterm (List.mem_map.mpr ⟨term, hmem, of_decide_eq_true heq⟩)
  have hne : ∀ term ∈ bankTerms, levenshtein (w.map Char.toUpper) term.toList ≠ 0 :=
    fun term hmem hzero => hterm (List.mem_map.mpr ⟨term, hmem, (eq_of_levenshtein hzero).symm⟩)
  unfold fuzzyCorrectTerm
  rw [hupper]
  dsimp only
  rw [if_neg hany, hlength, if_neg (by decide), foldl_nearerTerm rfl hne]
  cases bankTerms.find? fun t => isCloseLength 4 t &&
    levenshtein (w.map Char.toUpper) t.toList ≤ 1 <;> rfl

/-- A longer word that becomes SBI has four letters. -/
theorem length_of_fuzzyCorrectTerm (hlong : 4 ≤ w.length)
    (hfixed : fuzzyCorrectTerm u w = "SBI".toList) (hup : fuzzyCorrectTerm u w ≠ u.toUppercase w) :
    w.length = 4 := by
  have hlen : ∀ l : List Char, l = "SBI".toList → l.length = 3 := fun l hl => by rw [hl]; rfl
  unfold fuzzyCorrectTerm at hfixed hup
  dsimp only at hfixed hup
  split at hup
  · exact absurd rfl hup
  · next hany =>
    rw [if_neg hany] at hfixed
    split at hfixed
    · have hshort : w.length = 3 := hlen _ hfixed
      omega
    · cases hbest : bankTerms.foldl (nearerTerm (u.toUppercase w) w.length) none with
      | none =>
        rw [hbest] at hfixed
        have hshort : w.length = 3 := hlen _ hfixed
        omega
      | some best =>
        rw [hbest] at hfixed
        have hclose := (mem_of_nearerTerm hbest).2
        have hthree : best.2.toList.length = 3 := hlen _ hfixed
        rw [isCloseLength, hthree, decide_eq_true_eq, maxDist] at hclose
        split at hclose
        · omega
        · split at hclose <;> omega

/-- Which words a pass makes SBI. -/
theorem correctWord_eq_sbi_iff (u : Unicode) (hne : w ≠ "SBI".toList) :
    correctWord u w = "SBI".toList ↔ IsNearSbi w := by
  have hmem : "SBI" ∈ bankTerms := by decide
  constructor
  · intro h
    have hdigits : ∀ c ∈ repairString w, c.isDigit = false := by
      rw [correctWord, correctTerm] at h
      split at h
      · rw [h]
        exact forall_mem_of_all (by decide)
      · next hword =>
        rw [Bool.not_eq_true, Bool.not_eq_false', isAlphaWord, Bool.and_eq_true,
          List.all_eq_true] at hword
        exact fun c hc => not_isDigit_of_isAlpha (hword.2 c hc)
    have hrepair : repairString w = w := repairFrom_eq_append hdigits
    rw [correctWord, hrepair, correctTerm] at h
    split at h
    · exact absurd h hne
    · next hword =>
      rw [Bool.not_eq_true, Bool.not_eq_false', isAlphaWord, Bool.and_eq_true, decide_eq_true_eq,
        List.all_eq_true] at hword
      dsimp only at h
      split at h
      · next hfixed =>
        simp only [Bool.and_eq_true, bne_iff_ne] at hfixed
        have hlength := length_of_fuzzyCorrectTerm hword.1 h hfixed.1
        have hterm : ¬IsBankTerm w :=
          fun hterm => hfixed.1 (fuzzyCorrectTerm_of_isBankTerm u hterm)
        rw [fuzzyCorrectTerm_of_four u hlength hword.2 hterm] at h
        cases hfind : bankTerms.find? fun t => isCloseLength 4 t &&
            levenshtein (w.map Char.toUpper) t.toList ≤ 1 with
        | none =>
          rw [hfind] at h
          exact absurd h hne
        | some term =>
          rw [hfind] at h
          obtain rfl : term = "SBI" := String.toList_inj.mp h
          obtain ⟨hnear, hfirst⟩ := (find?_eq_some_iff_takeWhile hmem).mp hfind
          rw [Bool.and_eq_true, decide_eq_true_eq] at hnear
          have hpos : levenshtein (w.map Char.toUpper) "SBI".toList ≠ 0 := fun hzero =>
            hterm (List.mem_map.mpr ⟨"SBI", hmem, (eq_of_levenshtein hzero).symm⟩)
          refine ⟨hlength, hword.2, ?_, by omega, fun term hterm hclose => ?_⟩
          · refine not_isPlausiblyNumeric fun c hc => hdigits c ?_
            rw [repairString_of_isAlpha hword.2]
            exact hc
          · simpa [hclose] using hfirst term hterm
      · exact absurd h hne
  · intro h
    have hrepair : repairString w = w := by
      rw [repairString_of_isAlpha h.letters, repairToken, if_neg (ne_true_of_eq_false h.text)]
    have hword : isAlphaWord w = true := by
      rw [isAlphaWord, Bool.and_eq_true, decide_eq_true_eq, List.all_eq_true]
      exact ⟨h.length.ge, h.letters⟩
    have hfind : bankTerms.find? (fun t => isCloseLength 4 t &&
        levenshtein (w.map Char.toUpper) t.toList ≤ 1) = some "SBI" := by
      refine (find?_eq_some_iff_takeWhile hmem).mpr ⟨?_, fun term hterm => ?_⟩
      · rw [h.near]
        decide
      · cases hclose : isCloseLength 4 term with
        | false => rfl
        | true => simpa using h.first term hterm hclose
    have hfixed := fuzzyCorrectTerm_of_four u h.length h.letters
      (not_isBankTerm_of_near h.length h.near)
    rw [hfind, Option.elim_some] at hfixed
    have hupper : u.toUppercase w = w.map Char.toUpper :=
      toUppercase_eq_map u fun c hc => isAscii_of_isAlpha (h.letters c hc)
    have hchanged : ∀ l : List Char, l.length = 4 → "SBI".toList ≠ l := by
      rintro l hl rfl
      cases hl
    rw [correctWord, hrepair, correctTerm, hword, hfixed, hupper, if_neg (by decide)]
    refine if_pos ?_
    simp only [Bool.and_eq_true, bne_iff_ne]
    exact ⟨hchanged _ (by rw [List.length_map, h.length]), hchanged w h.length⟩

/-- Every term of the text, and every term that one pass has made, is still there. -/
def KeepsTerms (u : Unicode) (text : List Char) : Prop :=
  ∀ (k : ℕ) (w : List Char), (words isWhitespace text)[k]? = some w →
    ∃ w₁ w₂, (words isWhitespace (correctText u text 1))[k]? = some w₁ ∧
      (words isWhitespace (correctText u text 2))[k]? = some w₂ ∧
      (IsBankTerm w → SameWord w₂ w) ∧ (IsBankTerm w₁ → SameWord w₂ w₁)

theorem keepsTerms_iff_forall (u : Unicode) (text : List Char) : KeepsTerms u text ↔
    ∀ w ∈ words isWhitespace text,
      (IsBankTerm w → SameWord (correctWord u (correctWord u w)) w) ∧
      (IsBankTerm (correctWord u w) →
        SameWord (correctWord u (correctWord u w)) (correctWord u w)) := by
  have hget : ∀ (n k : ℕ) (w : List Char), (words isWhitespace text)[k]? = some w →
      (words isWhitespace (correctText u text n))[k]? = some ((correctWord u)^[n] w) := by
    intro n k w hk
    rw [words_correctText, List.getElem?_map, hk]
    rfl
  constructor
  · intro hkeeps w hw
    obtain ⟨k, hk⟩ := List.mem_iff_getElem?.mp hw
    obtain ⟨w₁, w₂, h₁, h₂, hterms⟩ := hkeeps k w hk
    rw [hget 1 k w hk] at h₁
    rw [hget 2 k w hk] at h₂
    obtain rfl := Option.some.inj h₁
    obtain rfl := Option.some.inj h₂
    exact hterms
  · intro hall k w hk
    exact ⟨_, _, hget 1 k w hk, hget 2 k w hk, hall w (List.mem_of_getElem? hk)⟩

theorem isBankTerm_sbi : IsBankTerm "SBI".toList :=
  List.mem_map.mpr ⟨"SBI", by decide, by decide⟩

theorem not_sameWord_digits : ¬SameWord "581".toList "SBI".toList := by
  rw [SameWord]
  decide

/-- The terms are still there just where the text has neither the word SBI nor one that a pass
makes SBI. -/
theorem keepsTerms_iff (u : Unicode) (text : List Char) : KeepsTerms u text ↔
    ∀ w ∈ words isWhitespace text, w ≠ "SBI".toList ∧ ¬IsNearSbi w := by
  rw [keepsTerms_iff_forall]
  refine forall₂_congr fun w hw => ⟨fun hterms => ?_, fun hnot => ?_⟩
  · have hne : w ≠ "SBI".toList := by
      rintro rfl
      have hsame := hterms.1 isBankTerm_sbi
      rw [correctWord_sbi, correctWord_digits] at hsame
      exact not_sameWord_digits hsame
    refine ⟨hne, fun hnear => ?_⟩
    have hsame := hterms.2
    rw [(correctWord_eq_sbi_iff u hne).mpr hnear, correctWord_sbi] at hsame
    exact not_sameWord_digits (hsame isBankTerm_sbi)
  · have hkept : IsBankTerm (correctWord u w) →
        correctWord u (correctWord u w) = correctWord u w := fun hterm =>
      correctWord_of_isBankTerm u hterm (mt (correctWord_eq_sbi_iff u hnot.1).mp hnot.2)
    refine ⟨fun hterm => ?_, fun hterm => congrArg _ (hkept hterm)⟩
    have hfirst := correctWord_of_isBankTerm u hterm hnot.1
    rw [hfirst, hfirst]
    rfl

/-- The word SBI is read as a number. -/
theorem sbi_is_not_kept : ¬KeepsTerms .ascii "SBI".toList := by
  rw [keepsTerms_iff_forall]
  intro hall
  have hsame := (hall "SBI".toList (by decide +kernel)).1 isBankTerm_sbi
  rw [correctWord_sbi, correctWord_digits] at hsame
  exact not_sameWord_digits hsame

end

end Desktop.Parser.OcrCorrection
