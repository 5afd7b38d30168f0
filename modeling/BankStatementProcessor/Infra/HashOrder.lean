import Mathlib.Data.List.Induction
import Mathlib.Data.List.Perm.Basic

/-!
# The order of hash tables

A hash table lists what it holds in an order that nothing determines. What is taken from such a
list is the same in every order only where the list itself determines it.
-/

namespace Infra

/-- An order in which hash tables list what they hold. -/
structure HashOrder (α : Type*) where
  order : List α → List α
  perm : ∀ l, (order l).Perm l

namespace HashOrder

section

variable {α : Type*} {l : List α} {a : α}

/-- The order in which the entries were made. -/
def asMade : HashOrder α := ⟨id, fun _ => .rfl⟩

/-- The other way round. -/
def backwards : HashOrder α := ⟨List.reverse, List.reverse_perm⟩

instance : Nonempty (HashOrder α) := ⟨asMade⟩

theorem mem_order (h : HashOrder α) : a ∈ h.order l ↔ a ∈ l := (h.perm l).mem_iff

/-- An order that lists one table in a given way. -/
def listing [DecidableEq α] (l l' : List α) (h : l'.Perm l) : HashOrder α where
  order := fun m => if m = l then l' else m
  perm m := by
    split
    · next heq => exact heq ▸ h
    · exact .rfl

theorem listing_order [DecidableEq α] {l' : List α} (h : l'.Perm l) :
    (listing l l' h).order l = l' := if_pos rfl

end

end HashOrder

/-! ## The best -/

section

variable {α : Type*} {better : α → α → Bool} {worse : α → α → Prop} {l l' : List α} {a b : α}

/-- A loop that keeps the best so far. -/
def bestBy (better : α → α → Bool) (l : List α) : Option α :=
  l.foldl (fun best x => match best with
    | none => some x
    | some b => if better x b then some x else some b) none

theorem bestBy_snoc (better : α → α → Bool) (l : List α) (a : α) :
    bestBy better (l ++ [a]) = match bestBy better l with
      | none => some a
      | some b => if better a b then some a else some b := by
  rw [bestBy, List.foldl_append]
  rfl

/-- What the loop asks decides an order. -/
structure Ranks (better : α → α → Bool) (worse : α → α → Prop) : Prop where
  refl : ∀ a, worse a a
  trans : ∀ a b c, worse a b → worse b c → worse a c
  of_true : ∀ a b, better a b = true → worse b a
  of_false : ∀ a b, better a b = false → worse a b

/-- None is better than what is kept. -/
theorem bestBy_spec (h : Ranks better worse) (hne : l ≠ []) :
    ∃ a, bestBy better l = some a ∧ a ∈ l ∧ ∀ b ∈ l, worse b a := by
  induction l using List.reverseRecOn with
  | nil => exact absurd rfl hne
  | append_singleton l c ih =>
    rw [bestBy_snoc]
    by_cases hl : l = []
    · subst hl
      exact ⟨c, rfl, by simp, by simpa using h.refl c⟩
    · obtain ⟨a, hbest, ha, hworse⟩ := ih hl
      rw [hbest]
      dsimp only
      split
      · next hca =>
        refine ⟨c, rfl, by simp, List.forall_mem_append.mpr ⟨fun b hb => ?_, ?_⟩⟩
        · exact h.trans b a c (hworse b hb) (h.of_true c a hca)
        · simpa using h.refl c
      · next hca =>
        refine ⟨a, rfl, List.mem_append_left _ ha, List.forall_mem_append.mpr ⟨hworse, ?_⟩⟩
        simpa using h.of_false c a (eq_false_of_ne_true hca)

/-- In every order one that none is better than is kept. -/
theorem bestBy_order (h : Ranks better worse) (o : HashOrder α) (hne : l ≠ []) :
    ∃ a, bestBy better (o.order l) = some a ∧ a ∈ l ∧ ∀ b ∈ l, worse b a := by
  have horder : o.order l ≠ [] := fun hnil => hne (List.nil_perm.mp (hnil ▸ o.perm l))
  obtain ⟨a, hbest, ha, hworse⟩ := bestBy_spec h horder
  exact ⟨a, hbest, o.mem_order.mp ha, fun b hb => hworse b (o.mem_order.mpr hb)⟩

theorem HashOrder.order_nil (o : HashOrder α) : o.order [] = [] := List.perm_nil.mp (o.perm [])

end

/-! ## The greatest -/

section

variable {α : Type*} {f : α → ℕ} {l l' : List α} {a b : α}

/-- `iter().max_by_key(f)`: of several greatest ones, the last. -/
def maxByKey (f : α → ℕ) (l : List α) : Option α := bestBy (fun x b => f b ≤ f x) l

theorem ranks_key (f : α → ℕ) : Ranks (fun x b => decide (f b ≤ f x)) fun b a => f b ≤ f a where
  refl a := Nat.le_refl (f a)
  trans _ _ _ := Nat.le_trans
  of_true _ _ h := of_decide_eq_true h
  of_false _ _ h := Nat.le_of_lt (Nat.lt_of_not_le (of_decide_eq_false h))

/-- A greatest one that stands last is found. -/
theorem maxByKey_of_last (h : ∀ b ∈ l, f b ≤ f a) : maxByKey f (l ++ [a]) = some a := by
  rw [maxByKey, bestBy_snoc]
  by_cases hl : l = []
  · subst hl
    rfl
  · obtain ⟨b, hmax, hb, -⟩ := bestBy_spec (ranks_key f) hl
    rw [hmax]
    exact if_pos (decide_eq_true (h b hb))

/-- One of the greatest. -/
def IsGreatest (f : α → ℕ) (l : List α) (a : α) : Prop := a ∈ l ∧ ∀ b ∈ l, f b ≤ f a

/-- In every order one of the greatest is found. -/
theorem maxByKey_order (h : HashOrder α) (hne : l ≠ []) :
    ∃ a, maxByKey f (h.order l) = some a ∧ IsGreatest f l a := bestBy_order (ranks_key f) h hne

/-- In every order the same one is found just where there is one greatest. -/
theorem maxByKey_order_iff [DecidableEq α] :
    (∀ h h' : HashOrder α, maxByKey f (h.order l) = maxByKey f (h'.order l)) ↔
      ∀ a b, IsGreatest f l a → IsGreatest f l b → a = b := by
  constructor
  · intro hsame a b ha hb
    have hlast : ∀ c, IsGreatest f l c → ∃ h : HashOrder α, maxByKey f (h.order l) = some c := by
      rintro c ⟨hc, hle⟩
      have hperm : (l.erase c ++ [c]).Perm l :=
        (List.perm_append_singleton _ _).trans (List.perm_cons_erase hc).symm
      refine ⟨.listing l _ hperm, ?_⟩
      rw [HashOrder.listing_order hperm]
      exact maxByKey_of_last fun b hb => hle b (List.mem_of_mem_erase hb)
    obtain ⟨h, hfound⟩ := hlast a ha
    obtain ⟨h', hfound'⟩ := hlast b hb
    have heq := hsame h h'
    rw [hfound, hfound'] at heq
    exact Option.some.inj heq
  · intro hone h h'
    by_cases hl : l = []
    · subst hl
      rw [h.order_nil, h'.order_nil]
    · obtain ⟨a, hmax, ha⟩ := maxByKey_order (f := f) h hl
      obtain ⟨b, hmax', hb⟩ := maxByKey_order (f := f) h' hl
      rw [hmax, hmax', hone a b ha hb]

end

end Infra
