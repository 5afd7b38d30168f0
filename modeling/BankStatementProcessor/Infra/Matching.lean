import Mathlib.Data.List.Perm.Subperm
import Mathlib.Data.List.Forall2

/-!
# Matching by first fit

Each of a list is given the first thing left that it fits. What is found is an assignment; one
that exists is found where an element that can take what an earlier one can, can take all that
the earlier one can.
-/

namespace Infra

section

variable {α β : Type*}

/-- Each of `xs` has a place in `ys` of its own that it fits. -/
def Assigns (r : α → β → Prop) (xs : List α) (ys : List β) : Prop :=
  ∃ picks : List β, picks.Subperm ys ∧ List.Forall₂ r xs picks

/-- Each in turn takes the first thing left that it fits. -/
def firstFit (r : α → β → Bool) : List α → List β → Bool
  | [], _ => true
  | x :: xs, ys =>
    match ys.findIdx? (r x) with
    | some k => firstFit r xs (ys.eraseIdx k)
    | none => false

variable {r : α → β → Prop} {x : α} {xs : List α} {y y' : β} {ys ys' : List β}

theorem assigns_nil (r : α → β → Prop) (ys : List β) : Assigns r [] ys :=
  ⟨[], List.nil_subperm, .nil⟩

theorem Assigns.perm (h : Assigns r xs ys) (hperm : ys.Perm ys') : Assigns r xs ys' := by
  obtain ⟨picks, hpicks, hfits⟩ := h
  exact ⟨picks, hperm.subperm_left.mp hpicks, hfits⟩

/-- The first takes one, the others are given places in what is left. -/
theorem assigns_cons_iff :
    Assigns r (x :: xs) ys ↔ ∃ (k : ℕ) (h : k < ys.length), r x ys[k] ∧
      Assigns r xs (ys.eraseIdx k) := by
  constructor
  · rintro ⟨picks, hpicks, hfits⟩
    obtain ⟨y, rest, hy, hrest, rfl⟩ := List.forall₂_cons_left_iff.mp hfits
    obtain ⟨k, hk, rfl⟩ := List.getElem_of_mem (hpicks.subset List.mem_cons_self)
    have hperm : (ys[k] :: ys.eraseIdx k).Perm ys := List.getElem_cons_eraseIdx_perm hk
    refine ⟨k, hk, hy, rest, ?_, hrest⟩
    exact (List.subperm_cons _).mp (hperm.symm.subperm_left.mp hpicks)
  · rintro ⟨k, hk, hy, picks, hpicks, hfits⟩
    have hperm : (ys[k] :: ys.eraseIdx k).Perm ys := List.getElem_cons_eraseIdx_perm hk
    exact ⟨ys[k] :: picks, hperm.subperm_left.mp ((List.subperm_cons _).mpr hpicks),
      .cons hy hfits⟩

/-- A thing may be exchanged for one that fits wherever it does. -/
theorem Assigns.exchange (hfits : ∀ x ∈ xs, r x y → r x y') (h : Assigns r xs (y :: ys)) :
    Assigns r xs (y' :: ys) := by
  induction xs generalizing ys with
  | nil => exact assigns_nil r _
  | cons x xs ih =>
    obtain ⟨hx, hxs⟩ := List.forall_mem_cons.mp hfits
    obtain ⟨k, hk, htake, hrest⟩ := assigns_cons_iff.mp h
    rw [assigns_cons_iff]
    cases k with
    | zero => exact ⟨0, Nat.succ_pos _, hx htake, hrest⟩
    | succ k => exact ⟨k + 1, hk, htake, ih hxs hrest⟩

end

section

variable {α β : Type*} {r : α → β → Bool} {xs : List α} {ys : List β}

/-- What first fit finds is an assignment. -/
theorem assigns_of_firstFit (h : firstFit r xs ys = true) :
    Assigns (fun x y => r x y = true) xs ys := by
  induction xs generalizing ys with
  | nil => exact assigns_nil _ ys
  | cons x xs ih =>
    rw [firstFit] at h
    split at h
    · next k hfind =>
      obtain ⟨hk, htake, -⟩ := List.findIdx?_eq_some_iff_getElem.mp hfind
      exact assigns_cons_iff.mpr ⟨k, hk, htake, ih h⟩
    · cases h

/-- First fit finds one, if it exists, where a later element that can take what an earlier one can,
can take all that the earlier one can. -/
theorem firstFit_of_assigns
    (hnested : xs.Pairwise fun x x' => ∀ y y', r x y → r x' y → r x y' → r x' y')
    (h : Assigns (fun x y => r x y = true) xs ys) : firstFit r xs ys = true := by
  induction xs generalizing ys with
  | nil => rfl
  | cons x xs ih =>
    obtain ⟨hlater, hxs⟩ := List.pairwise_cons.mp hnested
    obtain ⟨j, hj, htake, hrest⟩ := assigns_cons_iff.mp h
    rw [firstFit]
    split
    · next k hfind =>
      obtain ⟨hk, hfirst, -⟩ := List.findIdx?_eq_some_iff_getElem.mp hfind
      refine ih hxs ?_
      by_cases hkj : k = j
      · subst hkj
        exact hrest
      · -- the one that took the first thing takes the other instead
        have hmem : ys[k] ∈ ys.eraseIdx j :=
          List.mem_eraseIdx_iff_getElem.mpr ⟨k, hk, hkj, rfl⟩
        obtain ⟨before, behind, hsplit⟩ := List.append_of_mem hmem
        have hleft : (ys.eraseIdx j).Perm (ys[k] :: (before ++ behind)) :=
          hsplit ▸ List.perm_middle
        have hright : (ys.eraseIdx k).Perm (ys[j] :: (before ++ behind)) := by
          have hall : (ys[k] :: ys.eraseIdx k).Perm (ys[j] :: ys.eraseIdx j) :=
            (List.getElem_cons_eraseIdx_perm hk).trans (List.getElem_cons_eraseIdx_perm hj).symm
          exact (hall.trans ((hleft.cons _).trans (.swap _ _ _))).cons_inv
        have hexchange : Assigns (fun x y => r x y = true) xs (ys[j] :: (before ++ behind)) :=
          (hrest.perm hleft).exchange fun x' hx' hfits => hlater x' hx' _ _ hfirst hfits htake
        exact hexchange.perm hright.symm
    · next hnone =>
      rw [List.findIdx?_eq_none_iff] at hnone
      rw [hnone _ (List.getElem_mem hj)] at htake
      cases htake

end

end Infra
