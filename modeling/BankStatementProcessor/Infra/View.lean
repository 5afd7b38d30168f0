import Mathlib.Data.List.Basic

/-!
# Filtered views of a list

A view shows the elements of a list that pass a predicate, in order. A row of it is a
reference: the element together with its index in the list. `rowsAgree_iff` says when two
predicates number the rows the same way.
-/

namespace Infra

variable {α : Type*} {p q : α → Bool} {xs : List α}

/-- The rows of the view of `xs` through `p`. -/
def view (p : α → Bool) (xs : List α) : List (α × ℕ) :=
  xs.zipIdx.filter (fun r => p r.1)

theorem mem_view {x : α} {k : ℕ} : (x, k) ∈ view p xs ↔ xs[k]? = some x ∧ p x = true := by
  simp [view, List.mk_mem_zipIdx_iff_getElem?]

/-- A row refers to the element it shows. -/
theorem getElem?_of_view {i k : ℕ} {x : α} (h : (view p xs)[i]? = some (x, k)) :
    xs[k]? = some x :=
  (mem_view.mp (List.mem_of_getElem? h)).1

/-- Filtering a view further shows the elements that pass both predicates. -/
theorem filter_view : (view p xs).filter (fun r => q r.1) = view (fun x => p x && q x) xs := by
  simp [view, List.filter_filter, Bool.and_comm]

/-- Row by row, the view through `q` refers to the same index as the view through `p`. -/
def RowsAgree (p q : α → Bool) (xs : List α) : Prop :=
  ∀ i k : ℕ, (∃ x, (view q xs)[i]? = some (x, k)) ↔ ∃ x, (view p xs)[i]? = some (x, k)

theorem RowsAgree.symm (h : RowsAgree p q xs) : RowsAgree q p xs := fun i k => (h i k).symm

theorem RowsAgree.passes {x : α} (h : RowsAgree p q xs) (hx : x ∈ xs) (hp : p x = true) :
    q x = true := by
  obtain ⟨k, hk⟩ := List.mem_iff_getElem?.mp hx
  obtain ⟨i, hi⟩ := List.mem_iff_getElem?.mp (mem_view.mpr ⟨hk, hp⟩)
  obtain ⟨y, hy⟩ := (h i k).mpr ⟨x, hi⟩
  obtain ⟨hky, hq⟩ := mem_view.mp (List.mem_of_getElem? hy)
  rw [hk] at hky
  rw [Option.some.inj hky]
  exact hq

/-- Two predicates number the rows of a list alike exactly when they agree on its elements. -/
theorem rowsAgree_iff : RowsAgree p q xs ↔ ∀ x ∈ xs, p x = q x := by
  constructor
  · intro h x hx
    rw [Bool.eq_iff_iff]
    exact ⟨h.passes hx, h.symm.passes hx⟩
  · intro h
    have hview : view p xs = view q xs :=
      List.filter_congr fun r hr => h r.1 (List.fst_mem_of_mem_zipIdx hr)
    intro i k
    rw [hview]

theorem view_eq_view_iff : view p xs = view q xs ↔ ∀ x ∈ xs, p x = q x := by
  constructor
  · intro h
    rw [← rowsAgree_iff]
    intro i k
    rw [h]
  · exact fun h => List.filter_congr fun r hr => h r.1 (List.fst_mem_of_mem_zipIdx hr)

/-! ## Counting without the rows -/

theorem length_view : (view p xs).length = xs.countP p := by
  have hfst : xs.zipIdx.map Prod.fst = xs := List.zipIdx_map_fst 0 xs
  conv_rhs => rw [← hfst]
  rw [List.countP_map, List.countP_eq_length_filter]
  rfl

/-- A narrower count is as large exactly when it misses nothing. -/
theorem countP_eq_countP_iff (himp : ∀ x ∈ xs, p x = true → q x = true) :
    xs.countP p = xs.countP q ↔ ∀ x ∈ xs, q x = true → p x = true := by
  constructor
  · intro h x hx hq
    have hfilter : xs.filter p = (xs.filter q).filter p := by
      rw [List.filter_filter]
      refine List.filter_congr fun y hy => ?_
      cases hp : p y with
      | false => rfl
      | true => exact (himp y hy hp).symm
    rw [List.countP_eq_length_filter, List.countP_eq_length_filter, hfilter,
      List.length_filter_eq_length_iff] at h
    exact h x (List.mem_filter.mpr ⟨hx, hq⟩)
  · exact fun h => List.countP_congr fun x hx => ⟨himp x hx, h x hx⟩

end Infra
