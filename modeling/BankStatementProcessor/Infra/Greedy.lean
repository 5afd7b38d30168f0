import BankStatementProcessor.Infra.StateMachine
import Mathlib.Data.Finset.Dedup
import Mathlib.Data.List.Nodup
import Mathlib.Data.List.Perm.Basic

/-!
# Greedy assignment

Candidates join a left and a right key. They are gone through in order, and a candidate is
taken unless one of its keys has been used. Whatever the order is, each key is used at most
once, and the keys that are not used are left over.
-/

namespace Infra

structure Assignment (α β γ : Type*) where
  usedLeft : α → Bool
  usedRight : β → Bool
  taken : List γ

namespace Assignment

variable {α β γ : Type*}

def start : Assignment α β γ := ⟨fun _ => false, fun _ => false, []⟩

variable [DecidableEq α] [DecidableEq β] (left : γ → α) (right : γ → β)

/-- Take a candidate whose keys are free. -/
def take (s : Assignment α β γ) (c : γ) : Assignment α β γ :=
  if s.usedLeft (left c) || s.usedRight (right c) then s
  else {
    usedLeft := Function.update s.usedLeft (left c) true
    usedRight := Function.update s.usedRight (right c) true
    taken := s.taken ++ [c] }

def greedy (cs : List γ) : Assignment α β γ := run (take left right) start cs

variable {left right}

/-- The used keys are those of the candidates taken, and no two of these share one. -/
structure Consistent (left : γ → α) (right : γ → β) (s : Assignment α β γ) : Prop where
  usedLeft_iff : ∀ a, s.usedLeft a = true ↔ a ∈ s.taken.map left
  usedRight_iff : ∀ b, s.usedRight b = true ↔ b ∈ s.taken.map right
  nodup_left : (s.taken.map left).Nodup
  nodup_right : (s.taken.map right).Nodup

theorem update_true_iff {κ : Type*} [DecidableEq κ] {used : κ → Bool} {ks : List κ} {k : κ}
    (h : ∀ x, used x = true ↔ x ∈ ks) (x : κ) :
    Function.update used k true x = true ↔ x ∈ ks ++ [k] := by
  rw [List.mem_append, List.mem_singleton]
  by_cases hx : x = k
  · simp [hx]
  · rw [Function.update_of_ne hx, h x]
    simp [hx]

theorem nodup_concat {κ : Type*} {used : κ → Bool} {ks : List κ} {k : κ}
    (h : ∀ x, used x = true ↔ x ∈ ks) (hnodup : ks.Nodup) (hfree : used k = false) :
    (ks ++ [k]).Nodup := by
  have hnew : k ∉ ks := by
    rw [← h k, hfree]
    exact Bool.false_ne_true
  rw [List.nodup_append]
  refine ⟨hnodup, List.nodup_singleton k, ?_⟩
  rintro a ha b hb rfl
  rw [List.mem_singleton.mp hb] at ha
  exact hnew ha

theorem Consistent.take {s : Assignment α β γ} (h : Consistent left right s) (c : γ) :
    Consistent left right (s.take left right c) := by
  rw [Assignment.take]
  split
  · exact h
  · next hused =>
    rw [Bool.not_eq_true, Bool.or_eq_false_iff] at hused
    constructor
    · intro a
      rw [List.map_append]
      exact update_true_iff h.usedLeft_iff a
    · intro b
      rw [List.map_append]
      exact update_true_iff h.usedRight_iff b
    · rw [List.map_append]
      exact nodup_concat h.usedLeft_iff h.nodup_left hused.1
    · rw [List.map_append]
      exact nodup_concat h.usedRight_iff h.nodup_right hused.2

theorem consistent_greedy (cs : List γ) : Consistent left right (greedy left right cs) := by
  refine invariant_run (fun s c h => h.take c) cs ?_
  exact ⟨by simp [start], by simp [start], List.nodup_nil, List.nodup_nil⟩

/-- The candidates taken are some of all, in their order. -/
theorem taken_sublist (cs : List γ) : (greedy left right cs).taken.Sublist cs := by
  have hrun : ∀ s : Assignment α β γ,
      (run (take left right) s cs).taken.Sublist (s.taken ++ cs) := by
    induction cs with
    | nil => intro s; simp
    | cons c cs ih =>
      intro s
      refine (ih (s.take left right c)).trans ?_
      rw [take]
      split
      · exact List.Sublist.append_left (List.sublist_cons_self c cs) s.taken
      · simp
  exact hrun start

theorem mem_taken_run {s : Assignment α β γ} {d : γ} (h : d ∈ s.taken) (cs : List γ) :
    d ∈ (run (take left right) s cs).taken := by
  refine invariant_run (I := fun s : Assignment α β γ => d ∈ s.taken) ?_ cs h
  intro s c hd
  rw [take]
  split
  · exact hd
  · exact List.mem_append_left [c] hd

/-- A candidate that is not free has a key of one taken already. -/
theorem Consistent.taken_or_blocked {s : Assignment α β γ} (h : Consistent left right s) (c : γ) :
    c ∈ (s.take left right c).taken ∨ ∃ d ∈ s.taken, left d = left c ∨ right d = right c := by
  rw [Assignment.take]
  split
  · next hused =>
    right
    rw [Bool.or_eq_true, h.usedLeft_iff, h.usedRight_iff, List.mem_map, List.mem_map] at hused
    rcases hused with ⟨d, hd, heq⟩ | ⟨d, hd, heq⟩
    · exact ⟨d, hd, Or.inl heq⟩
    · exact ⟨d, hd, Or.inr heq⟩
  · left
    exact List.mem_append_right s.taken (List.mem_singleton_self c)

/-- Every candidate is taken, or blocked by one that comes before it in the order. -/
theorem taken_or_blocked {before : γ → γ → Prop} {cs : List γ} (hsorted : cs.Pairwise before)
    {c : γ} (hc : c ∈ cs) :
    c ∈ (greedy left right cs).taken ∨
      ∃ d ∈ (greedy left right cs).taken, (left d = left c ∨ right d = right c) ∧ before d c := by
  obtain ⟨earlier, later, rfl⟩ := List.append_of_mem hc
  -- What has been taken when `c` is reached is among those before it.
  have hconsistent : Consistent left right (greedy left right earlier) :=
    consistent_greedy earlier
  have hrun : greedy left right (earlier ++ c :: later) =
      run (take left right) ((greedy left right earlier).take left right c) later := by
    rw [greedy, run_append, run_cons]
    rfl
  rw [hrun]
  rcases hconsistent.taken_or_blocked c with htaken | ⟨d, hd, hkey⟩
  · exact Or.inl (mem_taken_run htaken later)
  · right
    have hbefore : before d c :=
      (List.pairwise_append.mp hsorted).2.2 d ((taken_sublist earlier).subset hd) c
        List.mem_cons_self
    exact ⟨d, mem_taken_run (mem_taken_run hd [c]) later, hkey, hbefore⟩

/-- The keys taken and the keys left over are all keys, each of them once. -/
theorem taken_append_rest_perm {used : ℕ → Bool} {ks : List ℕ} {n : ℕ}
    (hused : ∀ k, used k = true ↔ k ∈ ks) (hnodup : ks.Nodup) (hlt : ∀ k ∈ ks, k < n) :
    (ks ++ (List.range n).filter (fun k => !used k)).Perm (List.range n) := by
  have htaken : ks.Perm ((List.range n).filter used) := by
    refine (List.perm_ext_iff_of_nodup hnodup (List.nodup_range.filter _)).mpr fun k => ?_
    rw [List.mem_filter, List.mem_range, hused]
    exact ⟨fun hk => ⟨hlt k hk, hk⟩, fun hk => hk.2⟩
  exact (htaken.append_right _).trans (List.filter_append_perm used (List.range n))

end Assignment

end Infra
