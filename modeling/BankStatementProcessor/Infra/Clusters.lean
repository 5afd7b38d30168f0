import Mathlib.Data.List.Perm.Basic
import Mathlib.Data.List.Pairwise

/-!
# Clusters around a moving reference

A list is cut into clusters: an element that is near the first one of its cluster joins it, and
any other begins the next one. Of a list in order the clusters are in order.
-/

namespace Infra

section

variable {α : Type*} (near : α → α → Bool)

/-- The clusters of a list behind `cluster`, which `ref` began. -/
def clustersFrom (ref : α) (cluster : List α) : List α → List (List α)
  | [] => [cluster]
  | a :: l =>
    if near ref a then clustersFrom ref (cluster ++ [a]) l else cluster :: clustersFrom a [a] l

def clusters : List α → List (List α)
  | [] => []
  | a :: l => clustersFrom near a [a] l

variable {near} {ref : α} {cluster l : List α}

theorem flatten_clustersFrom : (clustersFrom near ref cluster l).flatten = cluster ++ l := by
  induction l generalizing ref cluster with
  | nil => simp [clustersFrom]
  | cons a l ih =>
    rw [clustersFrom]
    split
    · rw [ih, List.append_assoc, List.singleton_append]
    · rw [List.flatten_cons, ih, List.singleton_append]

/-- **Nothing is lost and nothing moves.** -/
theorem flatten_clusters (near : α → α → Bool) (l : List α) : (clusters near l).flatten = l := by
  cases l with
  | nil => rfl
  | cons a l => exact flatten_clustersFrom

/-- A cluster is the element that began it, and others near it. -/
def IsCluster (near : α → α → Bool) (c : List α) : Prop :=
  ∃ r rest, c = r :: rest ∧ ∀ a ∈ rest, near r a = true

theorem isCluster_of_mem_clustersFrom {rest : List α} (hnear : ∀ a ∈ rest, near ref a = true) :
    ∀ c ∈ clustersFrom near ref (ref :: rest) l, IsCluster near c := by
  induction l generalizing ref rest with
  | nil =>
    intro c hc
    rw [List.mem_singleton.mp hc]
    exact ⟨ref, rest, rfl, hnear⟩
  | cons a l ih =>
    rw [clustersFrom]
    split
    · next ha =>
      refine @ih ref (rest ++ [a]) fun b hb => ?_
      rcases List.mem_append.mp hb with hb | hb
      · exact hnear b hb
      · rw [List.mem_singleton.mp hb]
        exact ha
    · intro c hc
      rcases List.mem_cons.mp hc with rfl | hc
      · exact ⟨ref, rest, rfl, hnear⟩
      · exact @ih a [] (List.forall_mem_nil _) c hc

theorem isCluster_of_mem_clusters : ∀ c ∈ clusters near l, IsCluster near c := by
  cases l with
  | nil => exact fun c hc => nomatch hc
  | cons a l => exact isCluster_of_mem_clustersFrom (List.forall_mem_nil _)

/-- Where all that is not near lies ahead, and what is near is not ahead of it, the clusters of a
list in order are in strict order. -/
theorem pairwise_clustersFrom {le lt : α → α → Prop} (hle : (cluster ++ l).Pairwise le)
    (hlt : ∀ r a b, le a b → near r b = false → (a = r ∨ near r a = true) → lt a b)
    (hltle : ∀ a b c, lt a b → le b c → lt a c)
    (hnear : ∀ a ∈ cluster, a = ref ∨ near ref a = true) :
    (clustersFrom near ref cluster l).Pairwise fun c c' => ∀ a ∈ c, ∀ b ∈ c', lt a b := by
  induction l generalizing ref cluster with
  | nil => exact List.pairwise_singleton _ _
  | cons a l ih =>
    rw [clustersFrom]
    split
    · next ha =>
      refine ih (by rwa [List.append_assoc, List.singleton_append]) fun b hb => ?_
      rcases List.mem_append.mp hb with hb | hb
      · exact hnear b hb
      · rw [List.mem_singleton.mp hb]
        exact Or.inr ha
    · next ha =>
      obtain ⟨-, hrest, hbetween⟩ := List.pairwise_append.mp hle
      refine List.pairwise_cons.mpr ⟨fun c hc b hb d hd => ?_, ih hrest fun b hb =>
        Or.inl (List.mem_singleton.mp hb)⟩
      -- `a` is not near, and what comes behind it is not before it
      have hba : lt b a := hlt ref b a (hbetween b hb a List.mem_cons_self)
        (eq_false_of_ne_true ha) (hnear b hb)
      have hmem : d ∈ a :: l := by
        have hflat := List.mem_flatten.mpr ⟨c, hc, hd⟩
        rwa [flatten_clustersFrom] at hflat
      rcases List.mem_cons.mp hmem with rfl | hmem
      · exact hba
      · exact hltle b a d hba (List.rel_of_pairwise_cons hrest hmem)

theorem pairwise_clusters (le lt : α → α → Prop) (hle : l.Pairwise le)
    (hlt : ∀ r a b, le a b → near r b = false → (a = r ∨ near r a = true) → lt a b)
    (hltle : ∀ a b c, lt a b → le b c → lt a c) :
    (clusters near l).Pairwise fun c c' => ∀ a ∈ c, ∀ b ∈ c', lt a b := by
  cases l with
  | nil => exact List.Pairwise.nil
  | cons a l =>
    exact pairwise_clustersFrom hle hlt hltle fun b hb => Or.inl (List.mem_singleton.mp hb)

end

end Infra
