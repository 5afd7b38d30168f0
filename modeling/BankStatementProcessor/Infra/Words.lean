import Mathlib.Data.List.SplitBy

/-!
# The words of a text

What stands between the separators of a text, and what of it is left when texts are joined,
trimmed or split by fewer separators.
-/

namespace Infra

section

variable {α : Type} {p q : α → Bool} {x y : List α} {c : α}

def words (p : α → Bool) (x : List α) : List (List α) := (x.splitOnP p).filter (!·.isEmpty)

theorem words_nil : words p [] = [] := rfl

/-- At a separator the words fall into those before and those behind it. -/
theorem words_append_cons (x y : List α) (hc : p c = true) :
    words p (x ++ c :: y) = words p x ++ words p y := by
  rw [words, List.splitOnP_append_cons _ _ hc, List.filter_append]
  rfl

theorem words_cons_of_pos (y : List α) (hc : p c = true) : words p (c :: y) = words p y := by
  rw [← List.nil_append (c :: y), words_append_cons [] y hc, words_nil, List.nil_append]

/-- A text without separators is one word. -/
theorem words_of_forall (hx : ∀ a ∈ x, p a = false) (hne : x ≠ []) : words p x = [x] := by
  have hempty : x.isEmpty = false := List.isEmpty_eq_false_iff.mpr hne
  rw [words, List.splitOnP_eq_singleton hx]
  simp [hempty]

/-- A text has no separator, or it is cut at the first one. -/
theorem split_induction {motive : List α → Prop} (p : α → Bool)
    (free : ∀ x, (∀ a ∈ x, p a = false) → motive x)
    (cut : ∀ x c y, (∀ a ∈ x, p a = false) → p c = true → motive y → motive (x ++ c :: y))
    (x : List α) : motive x := by
  suffices h : ∀ w : List α, (∀ a ∈ w, p a = false) → motive (w ++ x) from h [] (by simp)
  induction x with
  | nil =>
    intro w hw
    rw [List.append_nil]
    exact free w hw
  | cons c x ih =>
    intro w hw
    by_cases hc : p c = true
    · exact cut w c x hw hc (ih [] (by simp))
    · rw [List.append_cons w c x]
      refine ih (w ++ [c]) fun a ha => ?_
      rcases List.mem_append.mp ha with ha | ha
      · exact hw a ha
      · rw [List.mem_singleton.mp ha]
        exact eq_false_of_ne_true hc

/-- The words hold every character but the separators. -/
theorem flatten_words (x : List α) : (words p x).flatten = x.filter (!p ·) := by
  induction x using split_induction p with
  | free x hx =>
    have hfilter : x.filter (!p ·) = x := List.filter_eq_self.mpr fun a ha => by simp [hx a ha]
    cases x with
    | nil => rfl
    | cons a x => rw [words_of_forall hx (by simp), hfilter, List.flatten_singleton]
  | cut x c y hx hc ih =>
    have hfilter : x.filter (!p ·) = x := List.filter_eq_self.mpr fun a ha => by simp [hx a ha]
    have hwords : (words p x).flatten = x := by
      cases x with
      | nil => rfl
      | cons a x => rw [words_of_forall hx (by simp), List.flatten_singleton]
    rw [words_append_cons x y hc, List.flatten_append, ih, hwords, List.filter_append, hfilter,
      List.filter_cons_of_neg (by simp [hc])]

theorem mem_flatten_words {a : α} : a ∈ (words p x).flatten ↔ a ∈ x ∧ p a = false := by
  rw [flatten_words, List.mem_filter, Bool.not_eq_true']

/-- A word is not empty and has no separator. -/
def IsWord (p : α → Bool) (w : List α) : Prop := w ≠ [] ∧ ∀ a ∈ w, p a = false

theorem isWord_of_mem_words {w : List α} (h : w ∈ words p x) : IsWord p w := by
  refine ⟨?_, fun a ha => (mem_flatten_words.mp (List.mem_flatten.mpr ⟨w, h, ha⟩)).2⟩
  have hnonempty := (List.mem_filter.mp h).2
  simpa using hnonempty

theorem mem_words_of_forall {w : List α} (hy : ∀ a ∈ y, p a = false) (hw : w ∈ words p y) :
    w = y := by
  cases y with
  | nil => cases hw
  | cons a y =>
    rw [words_of_forall hy (by simp)] at hw
    exact List.mem_singleton.mp hw

/-! ## Separators at the ends -/

theorem words_append_of_forall_left (hx : ∀ a ∈ x, p a = true) : words p (x ++ y) = words p y := by
  induction x with
  | nil => rfl
  | cons c x ih =>
    rw [List.cons_append, words_cons_of_pos _ (hx c List.mem_cons_self)]
    exact ih fun a ha => hx a (List.mem_cons_of_mem _ ha)

theorem words_append_of_forall_right (hy : ∀ a ∈ y, p a = true) :
    words p (x ++ y) = words p x := by
  induction y generalizing x with
  | nil => rw [List.append_nil]
  | cons c y ih =>
    have hc := hy c List.mem_cons_self
    have hrest := ih (x := []) fun a ha => hy a (List.mem_cons_of_mem _ ha)
    rw [List.nil_append, words_nil] at hrest
    rw [words_append_cons x y hc, hrest, List.append_nil]

/-- A further character makes the last word longer, or it is a word of its own behind a
separator. -/
theorem words_snoc (x : List α) (hc : p c = false) :
    (words p (x ++ [c]) = words p x ++ [[c]] ∧ ∀ a ∈ x.getLast?, p a = true) ∨
      ∃ ws w, words p x = ws ++ [w] ∧ words p (x ++ [c]) = ws ++ [w ++ [c]] := by
  induction x using split_induction p with
  | free x hx =>
    cases x with
    | nil => exact Or.inl ⟨words_of_forall (by simpa using hc) (by simp), by simp⟩
    | cons a x =>
      refine Or.inr ⟨[], a :: x, words_of_forall hx (by simp), words_of_forall ?_ (by simp)⟩
      intro b hb
      rcases List.mem_append.mp hb with hb | hb
      · exact hx b hb
      · rw [List.mem_singleton.mp hb]
        exact hc
  | cut x d y hx hd ih =>
    rw [List.append_assoc, List.cons_append, words_append_cons x _ hd, words_append_cons x _ hd]
    rcases ih with ⟨ih, hlast⟩ | ⟨ws, w, hy, ih⟩
    · refine Or.inl ⟨by rw [ih, List.append_assoc], fun a ha => ?_⟩
      rw [List.getLast?_append, List.getLast?_cons] at ha
      cases hy : y.getLast? with
      | none =>
        rw [hy] at ha
        cases ha
        exact hd
      | some b =>
        rw [hy] at ha hlast
        exact hlast a ha
    · exact Or.inr ⟨words p x ++ ws, w, by rw [hy, List.append_assoc],
        by rw [ih, List.append_assoc]⟩

/-! ## The end of a joined text -/

theorem intercalate_snoc_append (s : List α) (ws : List (List α)) (w y : List α) :
    s.intercalate (ws ++ [w ++ y]) = s.intercalate (ws ++ [w]) ++ y := by
  match ws with
  | [] => simp
  | [v] => simp [List.intercalate_cons_cons, List.append_assoc]
  | v :: v' :: ws =>
    have ih := intercalate_snoc_append s (v' :: ws) w y
    rw [List.cons_append, List.cons_append] at ih
    rw [List.cons_append, List.cons_append, List.intercalate_cons_cons, ih, List.cons_append,
      List.cons_append, List.intercalate_cons_cons, List.append_assoc (v ++ s)]

theorem intercalate_append (s : List α) (ws vs : List (List α)) (hws : ws ≠ []) (hvs : vs ≠ []) :
    s.intercalate (ws ++ vs) = s.intercalate ws ++ s ++ s.intercalate vs := by
  match ws with
  | [w] =>
    obtain ⟨v, vs, rfl⟩ := List.exists_cons_of_ne_nil hvs
    rw [List.singleton_append, List.intercalate_cons_cons, List.intercalate_singleton]
  | w :: w' :: ws =>
    have ih := intercalate_append s (w' :: ws) vs (by simp) hvs
    rw [List.cons_append] at ih
    rw [List.cons_append, List.cons_append, List.intercalate_cons_cons, ih,
      List.intercalate_cons_cons]
    simp only [List.append_assoc]

theorem intercalate_snoc (s : List α) (ws : List (List α)) (hws : ws ≠ []) (w : List α) :
    s.intercalate (ws ++ [w]) = s.intercalate ws ++ s ++ w := by
  rw [intercalate_append s ws [w] hws (by simp), List.intercalate_singleton]

/-! ## Two kinds of separators -/

/-- Further separators split the words. -/
theorem words_flatMap (h : ∀ a, q a = true → p a = true) (x : List α) :
    (words q x).flatMap (words p) = words p x := by
  induction x using split_induction q with
  | free x hx =>
    cases x with
    | nil => rfl
    | cons a x => rw [words_of_forall hx (by simp), List.flatMap_singleton]
  | cut x c y hx hc ih =>
    have hwords : (words q x).flatMap (words p) = words p x := by
      cases x with
      | nil => rfl
      | cons a x => rw [words_of_forall hx (by simp), List.flatMap_singleton]
    rw [words_append_cons x y hc, List.flatMap_append, ih, hwords, words_append_cons x y (h c hc)]

theorem words_intercalate (hc : p c = true) (xs : List (List α)) :
    words p ([c].intercalate xs) = xs.flatMap (words p) := by
  match xs with
  | [] => rfl
  | [x] => rw [List.intercalate_singleton, List.flatMap_singleton]
  | x :: y :: xs =>
    rw [List.intercalate_cons_cons, List.append_assoc, List.singleton_append,
      words_append_cons _ _ hc, words_intercalate hc (y :: xs)]
    rfl

/-- Words that are joined are the words of the text. -/
theorem words_join (hc : p c = true) {ws : List (List α)} (h : ∀ w ∈ ws, IsWord p w) :
    words p ([c].intercalate ws) = ws := by
  rw [words_intercalate hc]
  induction ws with
  | nil => rfl
  | cons w ws ih =>
    obtain ⟨hw, hws⟩ := List.forall_mem_cons.mp h
    rw [List.flatMap_cons, words_of_forall hw.2 hw.1, ih hws, List.singleton_append]

/-! ## Runs -/

/-- The elements of a run are all of one kind. -/
theorem forall_eq_of_isChain {a : α} {run : List α}
    (h : (a :: run).IsChain fun a b => (p a == p b) = true) : ∀ b ∈ run, p b = p a := by
  induction run generalizing a with
  | nil => simp
  | cons b run ih =>
    obtain ⟨hab, hrun⟩ := List.isChain_cons_cons.mp h
    have hb : p b = p a := (beq_iff_eq.mp hab).symm
    intro d hd
    rcases List.mem_cons.mp hd with rfl | hd
    · exact hb
    · rw [ih hrun d hd, hb]

/-- Where runs of one kind are next to runs of the other, the words are the runs without
separators. -/
theorem mem_words_of_mem_runs {runs : List (List α)}
    (hrun : ∀ run ∈ runs, (∀ a ∈ run, p a = true) ∨ ∀ a ∈ run, p a = false)
    (hchain : runs.IsChain fun r s => ∃ hr hs, (p (r.getLast hr) == p (s.head hs)) = false) :
    ∀ run ∈ runs, run ≠ [] → (∀ a ∈ run, p a = false) → run ∈ words p runs.flatten := by
  induction runs with
  | nil => simp
  | cons r runs ih =>
    intro run hmem hne hfree
    have ih := ih (fun s hs => hrun s (List.mem_cons_of_mem _ hs)) hchain.tail
    rw [List.flatten_cons]
    rcases hrun r List.mem_cons_self with hr | hr
    · rw [words_append_of_forall_left hr]
      rcases List.mem_cons.mp hmem with rfl | hmem
      · obtain ⟨a, ha⟩ := List.exists_mem_of_ne_nil _ hne
        have hfalse := hfree a ha
        rw [hr a ha] at hfalse
        cases hfalse
      · exact ih run hmem hne hfree
    · cases runs with
      | nil =>
        rw [List.mem_singleton.mp hmem] at hne ⊢
        rw [List.flatten_nil, List.append_nil, words_of_forall hr hne]
        exact List.mem_singleton_self _
      | cons s runs =>
        obtain ⟨⟨hrne, hsne, hdiff⟩, -⟩ := List.isChain_cons_cons.mp hchain
        rw [hr _ (List.getLast_mem hrne)] at hdiff
        have hs : p (s.head hsne) = true := by simpa using hdiff
        obtain ⟨a, s, rfl⟩ := List.exists_cons_of_ne_nil hsne
        rw [List.head_cons] at hs
        have ih' := ih run
        rw [List.flatten_cons, List.cons_append, words_cons_of_pos _ hs] at ih'
        rw [List.flatten_cons, List.cons_append, words_append_cons _ _ hs, words_of_forall hr hrne]
        rcases List.mem_cons.mp hmem with rfl | hmem
        · exact List.mem_append_left _ (List.mem_singleton_self _)
        · exact List.mem_append_right _ (ih' hmem hne hfree)

theorem mem_words_of_mem_splitBy {run : List α} (h : run ∈ x.splitBy fun a b => p a == p b)
    (hfree : ∀ a ∈ run, p a = false) : run ∈ words p x := by
  have hkinds : ∀ s ∈ x.splitBy fun a b => p a == p b,
      (∀ a ∈ s, p a = true) ∨ ∀ a ∈ s, p a = false := by
    intro s hs
    obtain ⟨a, s, rfl⟩ := List.exists_cons_of_ne_nil (List.ne_nil_of_mem_splitBy hs)
    have hall := forall_eq_of_isChain (List.isChain_of_mem_splitBy hs)
    cases ha : p a with
    | true =>
      left
      intro b hb
      rcases List.mem_cons.mp hb with rfl | hb
      · exact ha
      · rw [hall b hb, ha]
    | false =>
      right
      intro b hb
      rcases List.mem_cons.mp hb with rfl | hb
      · exact ha
      · rw [hall b hb, ha]
  have hmem := mem_words_of_mem_runs hkinds
    (List.isChain_getLast_head_splitBy (fun a b => p a == p b) x) run h
    (List.ne_nil_of_mem_splitBy h) hfree
  rwa [List.flatten_splitBy] at hmem

end

end Infra
