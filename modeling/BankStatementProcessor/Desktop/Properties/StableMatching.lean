import BankStatementProcessor.Desktop.Properties.ReconciledOnce

/-!
# The greedy assignment is stable

A pair that could have been matched was not only when one of its two rows got a pair with at
least its score. Candidates are gone through from the best score down, so whatever had used a
row by then was no worse.
-/

namespace Desktop

open Infra

variable {u : Unicode} {fl : F64 → F64} {bank : List BankEntry} {vouchers : List Voucher}
  {cfg : ReconConfig}

theorem candidate?_of_positive (bi vi : ℕ) {score : F64} (h : F64.lt (.finite 0) score = true) :
    candidate? bi vi score = some ⟨bi, vi, score, h⟩ :=
  dif_pos h

/-- Every pair with a score above 0 is a candidate. -/
theorem mem_candidates_of_scored {bi vi : ℕ} {score : F64}
    (h : ScoredAs u fl bank vouchers cfg bi vi score) (hpos : F64.lt (.finite 0) score = true) :
    (⟨bi, vi, score, hpos⟩ : Candidate) ∈ candidates u fl bank vouchers cfg := by
  obtain ⟨b, v, hb, hv, rfl⟩ := h
  refine List.mem_flatMap.mpr ⟨(b, bi), List.mem_zipIdx_iff_getElem?.mpr hb, ?_⟩
  refine List.mem_filterMap.mpr ⟨(v, vi), List.mem_zipIdx_iff_getElem?.mpr hv, ?_⟩
  exact candidate?_of_positive bi vi hpos

/-- No two rows block the report: of two with a score above 0, either they are a pair of it, or
one of them is in a pair whose score is at least theirs. -/
structure Stable (u : Unicode) (fl : F64 → F64) (bank : List BankEntry) (vouchers : List Voucher)
    (cfg : ReconConfig) (report : ReconReport) : Prop where
  unblocked : ∀ bi vi score, ScoredAs u fl bank vouchers cfg bi vi score →
    F64.lt (.finite 0) score = true →
    (∃ m ∈ report.pairs, m.bankIdx = bi ∧ m.voucherIdx = vi) ∨
    (∃ m ∈ report.pairs, m.bankIdx = bi ∧ score.le m.score = true) ∨
    (∃ m ∈ report.pairs, m.voucherIdx = vi ∧ score.le m.score = true)
  maximal : ∀ bi ∈ report.unmatchedBank, ∀ vi ∈ report.unmatchedVouchers, ∀ score,
    ScoredAs u fl bank vouchers cfg bi vi score → F64.lt (.finite 0) score = false

/-- **The report is stable**, for all rows of both sides and every configuration. -/
theorem reconcile_stable (u : Unicode) (fl : F64 → F64) (bank : List BankEntry)
    (vouchers : List Voucher) (cfg : ReconConfig) :
    Stable u fl bank vouchers cfg (reconcile u fl bank vouchers cfg) := by
  generalize hfinal : Assignment.greedy Candidate.bankIdx Candidate.voucherIdx
    ((candidates u fl bank vouchers cfg).mergeSort Candidate.before) = final
  have hpairs : (reconcile u fl bank vouchers cfg).pairs =
      final.taken.map (Candidate.toPair cfg) := by
    rw [← hfinal]
    rfl
  have hblocked : ∀ c ∈ candidates u fl bank vouchers cfg, c ∈ final.taken ∨
      ∃ d ∈ final.taken, (d.bankIdx = c.bankIdx ∨ d.voucherIdx = c.voucherIdx) ∧
        d.score.lt c.score = false := by
    intro c hc
    rw [← hfinal]
    exact Assignment.taken_or_blocked (candidates_sorted (candidates u fl bank vouchers cfg))
      (List.mem_mergeSort.mpr hc)
  refine ⟨?_, ?_⟩
  · intro bi vi score hscored hpos
    rw [hpairs]
    rcases hblocked _ (mem_candidates_of_scored hscored hpos) with htaken | ⟨d, hd, hkey, hbest⟩
    · exact Or.inl ⟨_, List.mem_map_of_mem htaken, rfl, rfl⟩
    · have hscore : score.le d.score = true :=
        F64.le_of_not_lt (F64.ne_nan_of_lt hpos) (F64.ne_nan_of_lt d.positive) hbest
      right
      rcases hkey with hbank | hvoucher
      · exact Or.inl ⟨_, List.mem_map_of_mem hd, hbank, hscore⟩
      · exact Or.inr ⟨_, List.mem_map_of_mem hd, hvoucher, hscore⟩
  · intro bi hbi vi hvi score hscored
    by_contra hpos
    rw [Bool.not_eq_false] at hpos
    have hconsistent : Assignment.Consistent Candidate.bankIdx Candidate.voucherIdx final :=
      hfinal ▸ Assignment.consistent_greedy _
    have hbi' : bi ∈ (List.range bank.length).filter (fun i => !final.usedLeft i) := by
      rw [← hfinal]
      exact hbi
    have hvi' : vi ∈ (List.range vouchers.length).filter (fun i => !final.usedRight i) := by
      rw [← hfinal]
      exact hvi
    have hfreeBank : ∀ d ∈ final.taken, d.bankIdx ≠ bi := by
      rintro d hd rfl
      have hused := (hconsistent.usedLeft_iff d.bankIdx).mpr (List.mem_map_of_mem hd)
      simp [hused] at hbi'
    have hfreeVoucher : ∀ d ∈ final.taken, d.voucherIdx ≠ vi := by
      rintro d hd rfl
      have hused := (hconsistent.usedRight_iff d.voucherIdx).mpr (List.mem_map_of_mem hd)
      simp [hused] at hvi'
    rcases hblocked _ (mem_candidates_of_scored hscored hpos) with htaken | ⟨d, hd, hkey, -⟩
    · exact hfreeBank _ htaken rfl
    · rcases hkey with hbank | hvoucher
      · exact hfreeBank d hd hbank
      · exact hfreeVoucher d hd hvoucher

end Desktop
