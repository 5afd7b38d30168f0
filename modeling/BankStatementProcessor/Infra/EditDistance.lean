import Mathlib.Order.Bounds.Basic
import Mathlib.Order.MinMax

/-!
# The distance of two words

How many characters have to be put in, left out or replaced to make one word of another.
`Edits` makes the changes one after the other, at any places. `Aligned` goes along both words
once, and is what a distance can be computed by: `isLeast_cons` is the rule for two characters.
-/

namespace Infra

variable {α : Type*} {a b c : List α} {x y : α} {m n d e f : ℕ}

/-- One character is put in, left out or replaced. -/
inductive Edit : List α → List α → Prop
  | insert (pre post : List α) (x : α) : Edit (pre ++ post) (pre ++ x :: post)
  | delete (pre post : List α) (x : α) : Edit (pre ++ x :: post) (pre ++ post)
  | replace (pre post : List α) (x y : α) : Edit (pre ++ x :: post) (pre ++ y :: post)

inductive Edits : ℕ → List α → List α → Prop
  | refl (a : List α) : Edits 0 a a
  | step {n : ℕ} {a b c : List α} : Edit a b → Edits n b c → Edits (n + 1) a c

/-- Going along both words, `n` places are not the same. -/
inductive Aligned : List α → List α → ℕ → Prop
  | nil : Aligned [] [] 0
  | keep {a b : List α} {n : ℕ} (x : α) : Aligned a b n → Aligned (x :: a) (x :: b) n
  | replace {a b : List α} {n : ℕ} (x y : α) : Aligned a b n → Aligned (x :: a) (y :: b) (n + 1)
  | insert {a b : List α} {n : ℕ} (y : α) : Aligned a b n → Aligned a (y :: b) (n + 1)
  | delete {a b : List α} {n : ℕ} (x : α) : Aligned a b n → Aligned (x :: a) b (n + 1)

/-! ## One change after the other -/

namespace Edit

theorem cons (x : α) (h : Edit a b) : Edit (x :: a) (x :: b) := by
  cases h with
  | insert pre post y => exact insert (x :: pre) post y
  | delete pre post y => exact delete (x :: pre) post y
  | replace pre post y z => exact replace (x :: pre) post y z

theorem reverse (h : Edit a b) : Edit a.reverse b.reverse := by
  cases h with
  | insert pre post y => simpa using insert post.reverse pre.reverse y
  | delete pre post y => simpa using delete post.reverse pre.reverse y
  | replace pre post y z => simpa using replace post.reverse pre.reverse y z

end Edit

namespace Edits

theorem cons (x : α) (h : Edits n a b) : Edits n (x :: a) (x :: b) := by
  induction h with
  | refl a => exact refl (x :: a)
  | step hedit _ ih => exact step (hedit.cons x) ih

theorem reverse (h : Edits n a b) : Edits n a.reverse b.reverse := by
  induction h with
  | refl a => exact refl a.reverse
  | step hedit _ ih => exact step hedit.reverse ih

theorem eq_of_zero (h : Edits 0 a b) : a = b := by
  cases h
  rfl

theorem reverse_iff : Edits n a.reverse b.reverse ↔ Edits n a b :=
  ⟨fun h => by simpa using h.reverse, reverse⟩

end Edits

/-! ## Alignments -/

namespace Aligned

theorem refl (a : List α) : Aligned a a 0 := by
  induction a with
  | nil => exact nil
  | cons x a ih => exact keep x ih

theorem inserted (b : List α) : Aligned [] b b.length := by
  induction b with
  | nil => exact nil
  | cons y b ih => exact insert y ih

theorem deleted (a : List α) : Aligned a [] a.length := by
  induction a with
  | nil => exact nil
  | cons x a ih => exact delete x ih

theorem length_le (h : Aligned a b n) : a.length ≤ b.length + n ∧ b.length ≤ a.length + n := by
  induction h with
  | nil => simp
  | keep x _ ih => grind
  | replace x y _ ih => grind
  | insert y _ ih => grind
  | delete x _ ih => grind

/-- Where one word is aligned with the next, and that with a third, the first is with the third. -/
theorem trans : ∀ {a b c : List α} {m n : ℕ}, Aligned a b m → Aligned b c n →
    ∃ k ≤ m + n, Aligned a c k
  | _, _, _, _, _, h, .insert z h' => by
    obtain ⟨k, hk, hac⟩ := trans h h'
    exact ⟨k + 1, by omega, hac.insert z⟩
  | _, _, _, _, _, .delete x h, h' => by
    obtain ⟨k, hk, hac⟩ := trans h h'
    exact ⟨k + 1, by omega, hac.delete x⟩
  | _, _, _, _, _, .nil, .nil => ⟨0, le_rfl, nil⟩
  | _, _, _, _, _, .keep x h, .keep _ h' => by
    obtain ⟨k, hk, hac⟩ := trans h h'
    exact ⟨k, hk, hac.keep x⟩
  | _, _, _, _, _, .keep x h, .replace _ z h' => by
    obtain ⟨k, hk, hac⟩ := trans h h'
    exact ⟨k + 1, by omega, hac.replace x z⟩
  | _, _, _, _, _, .keep x h, .delete _ h' => by
    obtain ⟨k, hk, hac⟩ := trans h h'
    exact ⟨k + 1, by omega, hac.delete x⟩
  | _, _, _, _, _, .replace x y h, .keep _ h' => by
    obtain ⟨k, hk, hac⟩ := trans h h'
    exact ⟨k + 1, by omega, hac.replace x y⟩
  | _, _, _, _, _, .replace x _ h, .replace _ z h' => by
    obtain ⟨k, hk, hac⟩ := trans h h'
    exact ⟨k + 1, by omega, hac.replace x z⟩
  | _, _, _, _, _, .replace x _ h, .delete _ h' => by
    obtain ⟨k, hk, hac⟩ := trans h h'
    exact ⟨k + 1, by omega, hac.delete x⟩
  | _, _, _, _, _, .insert y h, .keep _ h' => by
    obtain ⟨k, hk, hac⟩ := trans h h'
    exact ⟨k + 1, by omega, hac.insert y⟩
  | _, _, _, _, _, .insert _ h, .replace _ z h' => by
    obtain ⟨k, hk, hac⟩ := trans h h'
    exact ⟨k + 1, by omega, hac.insert z⟩
  | _, _, _, _, _, .insert _ h, .delete _ h' => by
    obtain ⟨k, hk, hac⟩ := trans h h'
    exact ⟨k, by omega, hac⟩

theorem of_edit (h : Edit a b) : Aligned a b 1 := by
  have hpre : ∀ (pre : List α) {a b : List α}, Aligned a b 1 → Aligned (pre ++ a) (pre ++ b) 1 := by
    intro pre a b h
    induction pre with
    | nil => exact h
    | cons x pre ih => exact keep x ih
  cases h with
  | insert pre post x => exact hpre pre ((refl post).insert x)
  | delete pre post x => exact hpre pre ((refl post).delete x)
  | replace pre post x y => exact hpre pre ((refl post).replace x y)

theorem edits (h : Aligned a b n) : Edits n a b := by
  induction h with
  | nil => exact .refl []
  | keep x _ ih => exact ih.cons x
  | replace x y _ ih => exact .step (.replace [] _ x y) (ih.cons y)
  | insert y _ ih => exact .step (.insert [] _ y) (ih.cons y)
  | delete x _ ih => exact .step (.delete [] _ x) ih

end Aligned

/-- Changes made at any places can be made along the words. -/
theorem Edits.exists_aligned (h : Edits n a b) : ∃ k ≤ n, Aligned a b k := by
  induction h with
  | refl a => exact ⟨0, le_rfl, .refl a⟩
  | step hedit _ ih =>
    obtain ⟨k, hk, halign⟩ := ih
    obtain ⟨k', hk', htrans⟩ := (Aligned.of_edit hedit).trans halign
    exact ⟨k', by omega, htrans⟩

/-- The length alone is a bound. -/
theorem Edits.length_le (h : Edits n a b) : a.length ≤ b.length + n ∧ b.length ≤ a.length + n := by
  obtain ⟨k, hk, halign⟩ := h.exists_aligned
  have := halign.length_le
  omega

/-! ## The least number of changes -/

theorem isLeast_edits_iff : IsLeast {n | Edits n a b} d ↔ IsLeast {n | Aligned a b n} d := by
  constructor
  · rintro ⟨hedits, hlower⟩
    obtain ⟨k, hk, halign⟩ := hedits.exists_aligned
    obtain rfl : k = d := le_antisymm hk (hlower halign.edits)
    exact ⟨halign, fun n h => hlower h.edits⟩
  · rintro ⟨halign, hlower⟩
    refine ⟨halign.edits, fun n h => ?_⟩
    obtain ⟨k, hk, halign'⟩ := Edits.exists_aligned h
    exact (hlower halign').trans hk

theorem isLeast_nil (b : List α) : IsLeast {n | Aligned [] b n} b.length :=
  ⟨.inserted b, fun n h => by simpa using h.length_le.2⟩

theorem isLeast_nil_right (a : List α) : IsLeast {n | Aligned a [] n} a.length :=
  ⟨.deleted a, fun n h => by simpa using h.length_le.1⟩

/-- A character that is the same in both words is kept, without a look at the other ways. -/
theorem isLeast_cons [DecidableEq α] (hkeep : IsLeast {n | Aligned a b n} d)
    (hdelete : IsLeast {n | Aligned a (y :: b) n} e)
    (hinsert : IsLeast {n | Aligned (x :: a) b n} f) :
    IsLeast {n | Aligned (x :: a) (y :: b) n} (if x = y then d else 1 + min (min e f) d) := by
  -- leaving out one character changes the distance by one at most
  have hleft : ∀ {n}, Aligned a (y :: b) n → d ≤ n + 1 := fun h => by
    obtain ⟨k, hk, halign⟩ := h.trans ((Aligned.refl b).delete y)
    exact (hkeep.2 halign).trans hk
  have hright : ∀ {n}, Aligned (x :: a) b n → d ≤ n + 1 := fun h => by
    obtain ⟨k, hk, halign⟩ := ((Aligned.refl a).insert x).trans h
    have := hkeep.2 halign
    omega
  by_cases hxy : x = y
  · subst hxy
    rw [if_pos rfl]
    refine ⟨hkeep.1.keep x, fun n h => ?_⟩
    cases h with
    | keep _ h => exact hkeep.2 h
    | replace _ _ h => exact (hkeep.2 h).trans (Nat.le_succ _)
    | insert _ h => exact hright h
    | delete _ h => exact hleft h
  · rw [if_neg hxy]
    refine ⟨?_, fun n h => ?_⟩
    · rcases min_choice (min e f) d with hmin | hmin
      · rcases min_choice e f with hmin' | hmin'
        · rw [hmin, hmin', Nat.add_comm]
          exact hdelete.1.delete x
        · rw [hmin, hmin', Nat.add_comm]
          exact hinsert.1.insert y
      · rw [hmin, Nat.add_comm]
        exact hkeep.1.replace x y
    · cases h with
      | keep _ h => exact absurd rfl hxy
      | replace _ _ h =>
        have := hkeep.2 h
        omega
      | insert _ h =>
        have := hinsert.2 h
        omega
      | delete _ h =>
        have := hdelete.2 h
        omega

end Infra
