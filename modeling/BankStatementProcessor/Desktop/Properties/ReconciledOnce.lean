import BankStatementProcessor.Desktop.Reconciliation

/-!
# Reconciliation accounts for everything once

A greedy assignment over all candidates, whatever the scores are: each transaction and each
voucher is in one pair or left over, and the pairs keep the order they were sorted into.
-/

namespace Desktop

open Infra

section

variable {u : Unicode} {fl : F64 → F64} {bank : List BankEntry} {vouchers : List Voucher}
  {cfg : ReconConfig}

/-- The pair at these places has this score. -/
def ScoredAs (u : Unicode) (fl : F64 → F64) (bank : List BankEntry) (vouchers : List Voucher)
    (cfg : ReconConfig) (bi vi : ℕ) (score : F64) : Prop :=
  ∃ b v, bank[bi]? = some b ∧ vouchers[vi]? = some v ∧ score = scoreMatch u fl b v cfg

theorem candidate?_eq_some {bi vi : ℕ} {score : F64} {c : Candidate}
    (h : candidate? bi vi score = some c) :
    c.bankIdx = bi ∧ c.voucherIdx = vi ∧ c.score = score := by
  unfold candidate? at h
  split at h
  · rw [← Option.some.inj h]
    exact ⟨rfl, rfl, rfl⟩
  · cases h

theorem scored_of_mem_candidates {c : Candidate} (h : c ∈ candidates u fl bank vouchers cfg) :
    ScoredAs u fl bank vouchers cfg c.bankIdx c.voucherIdx c.score := by
  obtain ⟨⟨b, bi⟩, hb, hc⟩ := List.mem_flatMap.mp h
  obtain ⟨⟨v, vi⟩, hv, hscore⟩ := List.mem_filterMap.mp hc
  obtain ⟨rfl, rfl, heq⟩ := candidate?_eq_some hscore
  exact ⟨b, v, List.mem_zipIdx_iff_getElem?.mp hb, List.mem_zipIdx_iff_getElem?.mp hv, heq⟩

/-- A pair is of two rows that there are. -/
theorem ScoredAs.lt_length {bi vi : ℕ} {score : F64}
    (h : ScoredAs u fl bank vouchers cfg bi vi score) :
    bi < bank.length ∧ vi < vouchers.length := by
  obtain ⟨b, v, hb, hv, -⟩ := h
  exact ⟨(List.getElem?_eq_some_iff.mp hb).1, (List.getElem?_eq_some_iff.mp hv).1⟩

/-- The best score comes first. -/
theorem candidates_sorted (cs : List Candidate) :
    (cs.mergeSort Candidate.before).Pairwise (fun c d => c.score.lt d.score = false) := by
  have htrans : ∀ a b c : Candidate, a.before b = true → b.before c = true → a.before c = true := by
    intro a b c hab hbc
    simp only [Candidate.before, Bool.not_eq_true'] at hab hbc ⊢
    exact F64.not_lt_trans b.positive hab hbc
  have htotal : ∀ a b : Candidate, (a.before b || b.before a) = true := by
    intro a b
    simp only [Candidate.before]
    cases hab : a.score.lt b.score with
    | false => rfl
    | true => rw [F64.lt_asymm hab]; rfl
  refine (List.pairwise_mergeSort htrans htotal cs).imp ?_
  intro a b hab
  simpa [Candidate.before] using hab

/-- What one side of the report accounts for. -/
def AccountsOnce (n : ℕ) (paired unmatched : List ℕ) : Prop :=
  (paired ++ unmatched).Perm (List.range n)

/-- **Each transaction and each voucher is in exactly one pair or left over, every pair carries
its own score, which is above 0, and the status of that score, and no pair comes before one with
a higher score.** -/
theorem reconcile_accounts_once (u : Unicode) (fl : F64 → F64) (bank : List BankEntry)
    (vouchers : List Voucher) (cfg : ReconConfig) :
    AccountsOnce bank.length ((reconcile u fl bank vouchers cfg).pairs.map MatchPair.bankIdx)
      (reconcile u fl bank vouchers cfg).unmatchedBank ∧
    AccountsOnce vouchers.length
      ((reconcile u fl bank vouchers cfg).pairs.map MatchPair.voucherIdx)
      (reconcile u fl bank vouchers cfg).unmatchedVouchers ∧
    (∀ m ∈ (reconcile u fl bank vouchers cfg).pairs,
      ScoredAs u fl bank vouchers cfg m.bankIdx m.voucherIdx m.score ∧
      F64.lt (.finite 0) m.score = true ∧ m.status = statusFromScore m.score cfg) ∧
    (reconcile u fl bank vouchers cfg).pairs.Pairwise (fun m m' => m.score.lt m'.score = false) := by
  generalize hsorted :
    (candidates u fl bank vouchers cfg).mergeSort Candidate.before = sorted
  generalize hfinal :
    Assignment.greedy Candidate.bankIdx Candidate.voucherIdx sorted = final
  have hreport : reconcile u fl bank vouchers cfg =
      { pairs := final.taken.map (Candidate.toPair cfg)
        unmatchedBank := (List.range bank.length).filter (fun i => !final.usedLeft i)
        unmatchedVouchers := (List.range vouchers.length).filter (fun i => !final.usedRight i) } := by
    rw [← hfinal, ← hsorted]
    rfl
  have hconsistent : Assignment.Consistent Candidate.bankIdx Candidate.voucherIdx final :=
    hfinal ▸ Assignment.consistent_greedy sorted
  have hsub : final.taken.Sublist sorted := hfinal ▸ Assignment.taken_sublist sorted
  have hscored : ∀ c ∈ final.taken,
      ScoredAs u fl bank vouchers cfg c.bankIdx c.voucherIdx c.score := by
    intro c hc
    have hmem := hsub.subset hc
    rw [← hsorted, List.mem_mergeSort] at hmem
    exact scored_of_mem_candidates hmem
  have hbank : (final.taken.map (Candidate.toPair cfg)).map MatchPair.bankIdx =
      final.taken.map Candidate.bankIdx := List.map_map
  have hvoucher : (final.taken.map (Candidate.toPair cfg)).map MatchPair.voucherIdx =
      final.taken.map Candidate.voucherIdx := List.map_map
  rw [hreport]
  refine ⟨?_, ?_, ?_, ?_⟩
  · rw [AccountsOnce, hbank]
    refine Assignment.taken_append_rest_perm hconsistent.usedLeft_iff hconsistent.nodup_left ?_
    intro i hi
    obtain ⟨c, hc, rfl⟩ := List.mem_map.mp hi
    exact (hscored c hc).lt_length.1
  · rw [AccountsOnce, hvoucher]
    refine Assignment.taken_append_rest_perm hconsistent.usedRight_iff hconsistent.nodup_right ?_
    intro i hi
    obtain ⟨c, hc, rfl⟩ := List.mem_map.mp hi
    exact (hscored c hc).lt_length.2
  · intro m hm
    obtain ⟨c, hc, rfl⟩ := List.mem_map.mp hm
    exact ⟨hscored c hc, c.positive, rfl⟩
  · rw [List.pairwise_map]
    have hbest := candidates_sorted (candidates u fl bank vouchers cfg)
    rw [hsorted] at hbest
    exact hbest.sublist hsub

end

end Desktop
