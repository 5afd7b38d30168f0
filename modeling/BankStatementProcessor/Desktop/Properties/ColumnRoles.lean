import BankStatementProcessor.Desktop.Parser.ColumnDetector
import BankStatementProcessor.Desktop.Properties.GridRows

/-!
# One role for each column

The fields claim their columns one after the other, and none claims a column that is taken. An
index is kept in 32 bits, so this holds for rows of up to `2 ^ 31` cells.
-/

namespace Desktop.Parser

open Infra

/-! ## Claims -/

/-- Every field has no column or a valid one, and no two have the same. -/
structure ColumnMap.Distinct (valid : ℕ → Prop) (m : ColumnMap) : Prop where
  valid : ∀ f, m.get f = -1 ∨ ∃ c, valid c ∧ m.get f = (c : ℤ)
  injective : ∀ f g, m.get f ≠ -1 → m.get f = m.get g → f = g

section

variable {valid : ℕ → Prop} {m : ColumnMap} {s : Claims} {f : ColField} {c : ℕ}

theorem ColumnMap.distinct_unassigned : unassigned.Distinct valid where
  valid f := Or.inl (get_unassigned f)
  injective f _ h := absurd (get_unassigned f) h

theorem ColumnMap.Distinct.imp {valid' : ℕ → Prop} (h : m.Distinct valid)
    (himp : ∀ c, valid c → valid' c) : m.Distinct valid' where
  valid f := (h.valid f).imp_right fun ⟨c, hc, heq⟩ => ⟨c, himp c hc, heq⟩
  injective := h.injective

theorem ColumnMap.Distinct.set (h : m.Distinct valid) (hc : valid c)
    (hfree : ∀ g, m.get g ≠ (c : ℤ)) : (m.set f c).Distinct valid := by
  constructor
  · intro g
    by_cases hg : g = f
    · subst hg
      exact Or.inr ⟨c, hc, get_set m g c⟩
    · rw [get_set_of_ne m _ hg]
      exact h.valid g
  · intro g g' hne heq
    by_cases hg : g = f <;> by_cases hg' : g' = f
    · rw [hg, hg']
    · subst hg
      rw [get_set, get_set_of_ne m _ hg'] at heq
      exact absurd heq.symm (hfree g')
    · subst hg'
      rw [get_set, get_set_of_ne m _ hg] at heq
      exact absurd heq (hfree g)
    · rw [get_set_of_ne m _ hg] at hne heq
      rw [get_set_of_ne m _ hg'] at heq
      exact h.injective g g' hne heq

/-- The columns assigned are distinct, and they are taken. -/
structure Claims.Consistent (valid : ℕ → Prop) (s : Claims) : Prop where
  distinct : s.map.Distinct valid
  taken : ∀ f, 0 ≤ s.map.get f → s.map.get f ∈ s.taken

theorem Claims.Consistent.claim (h : s.Consistent valid) (hc : valid c)
    (hfree : (c : ℤ) ∉ s.taken) : (s.claim f c).Consistent valid := by
  have hnew : ∀ g, s.map.get g ≠ (c : ℤ) := by
    intro g heq
    have hmem := h.taken g (by omega)
    rw [heq] at hmem
    exact hfree hmem
  refine ⟨h.distinct.set hc hnew, fun g hg => ?_⟩
  rw [Claims.claim] at hg ⊢
  by_cases heq : g = f
  · subst heq
    rw [ColumnMap.get_set]
    exact List.mem_cons_self
  · rw [ColumnMap.get_set_of_ne _ _ heq] at hg ⊢
    exact List.mem_cons_of_mem _ (h.taken g hg)

theorem colIndex_eq_self (h : c < 2 ^ 31) : colIndex c = c := by
  unfold colIndex Int.bmod
  have hmod : ((c : ℤ) % (2 ^ 32 : ℕ)) = c := by
    rw [Int.emod_eq_of_lt] <;> omega
  rw [hmod, if_pos (by omega)]

end

/-! ## The header row -/

section

variable {score : ColField → ℕ → ℕ} {n : ℕ} {taken : List ℤ} {f : ColField} {s : Claims}

/-- What has been found so far is nothing or a column that is free. -/
def IsFree (n : ℕ) (taken : List ℤ) (best : ℤ × ℕ) : Prop :=
  best.1 = -1 ∨ ∃ c, c < n ∧ (c : ℤ) ∉ taken ∧ best.1 = c

theorem IsFree.stepBest {best : ℤ × ℕ} {col : ℕ} (h : IsFree n taken best) (hcol : col < n)
    (hn : n ≤ 2 ^ 31) : IsFree n taken (stepBest score taken f best col) := by
  rw [Parser.stepBest]
  split
  · next hbetter =>
    simp only [Bool.and_eq_true, Bool.not_eq_true', List.contains_eq_mem,
      decide_eq_false_iff_not] at hbetter
    have hfree := hbetter.1.2
    rw [colIndex_eq_self (hcol.trans_le hn)]
    exact Or.inr ⟨col, hcol, hfree, rfl⟩
  · exact h

theorem isFree_bestColumn (score : ColField → ℕ → ℕ) (taken : List ℤ) (f : ColField)
    (hn : n ≤ 2 ^ 31) : IsFree n taken (bestColumn score n taken f) := by
  have hrun : ∀ cols : List ℕ, (∀ c ∈ cols, c < n) → ∀ best, IsFree n taken best →
      IsFree n taken (run (stepBest score taken f) best cols) := by
    intro cols
    induction cols with
    | nil => exact fun _ _ h => h
    | cons c rest ih =>
      intro hcols best h
      exact ih (fun d hd => hcols d (List.mem_cons_of_mem _ hd)) _
        (h.stepBest (hcols c List.mem_cons_self) hn)
  exact hrun _ (fun c hc => List.mem_range.mp hc) _ (Or.inl rfl)

theorem Claims.Consistent.claimBest (h : s.Consistent (· < n)) (hn : n ≤ 2 ^ 31) :
    (claimBest score n s f).Consistent (· < n) := by
  rw [Parser.claimBest]
  rcases isFree_bestColumn score s.taken f hn with hnone | hfree
  · rw [hnone]
    exact h
  · obtain ⟨c, hc, hfree, hbest⟩ := hfree
    rw [hbest]
    simp only [Int.natCast_nonneg, if_true]
    exact h.claim hc hfree

end

theorem distinct_detectExcelCols (u : Unicode) {row : List (List Char)}
    (hrow : row.length ≤ 2 ^ 31) : (detectExcelCols u row).Distinct (· < row.length) := by
  have hstart : Claims.Consistent (· < row.length) ⟨.unassigned, []⟩ := by
    refine ⟨ColumnMap.distinct_unassigned, fun f hf => ?_⟩
    rw [ColumnMap.get_unassigned] at hf
    omega
  exact (invariant_run (fun _ _ h => h.claimBest hrow) ColField.assignOrder hstart).distinct

/-! ## The rows below -/

section

variable {stats : ℕ → ColStats} {maxCol : ℕ} {valid : ℕ → Prop} {s : Claims}

theorem lastMax_mem {α : Type} {less : α → α → Bool} {xs : List α} {x : α}
    (h : lastMax less xs = some x) : x ∈ xs := by
  have hrun : ∀ y ∈ lastMax less xs, y ∈ xs := by
    refine List.foldlRecOn (motive := fun best => ∀ y ∈ best, y ∈ xs) xs _
      (fun y hy => by cases hy) fun best hbest y hy z hz => ?_
    cases best with
    | none =>
      cases hz
      exact hy
    | some b =>
      simp only at hz
      split at hz
      · exact hbest z hz
      · cases hz
        exact hy
  exact hrun x h

theorem mem_freeColumns {taken : List ℤ} {fits : ColStats → Bool} {c : ℕ} :
    c ∈ freeColumns stats maxCol taken fits ↔
      c < maxCol ∧ colIndex c ∉ taken ∧ fits (stats c) = true := by
  simp [freeColumns]

theorem Claims.Consistent.inferColumn {fits : ColStats → Bool} {less : ColStats → ColStats → Bool}
    {f : ColField} (h : s.Consistent valid) (hvalid : ∀ c < maxCol, valid c)
    (hmax : maxCol ≤ 2 ^ 31) : (inferColumn stats maxCol f fits less s).Consistent valid := by
  rw [Parser.inferColumn]
  split
  · split
    · next c hbest =>
      obtain ⟨hc, hfree, -⟩ := mem_freeColumns.mp (lastMax_mem hbest)
      rw [colIndex_eq_self (hc.trans_le hmax)] at hfree ⊢
      exact h.claim (hvalid c hc) hfree
    · exact h
  · exact h

theorem Claims.Consistent.inferAmounts (h : s.Consistent valid) (hvalid : ∀ c < maxCol, valid c)
    (hmax : maxCol ≤ 2 ^ 31) : (inferAmounts stats maxCol s).Consistent valid := by
  rw [Parser.inferAmounts]
  split
  · have hmem : ∀ c ∈ freeColumns stats maxCol s.taken (fun s => s.total * 3 < s.numCnt * 10),
        valid c ∧ colIndex c = c ∧ (c : ℤ) ∉ s.taken := by
      intro c hc
      obtain ⟨hlt, hfree, -⟩ := mem_freeColumns.mp hc
      rw [colIndex_eq_self (hlt.trans_le hmax)] at hfree ⊢
      exact ⟨hvalid c hlt, rfl, hfree⟩
    have hnodup : (freeColumns stats maxCol s.taken
        (fun s => s.total * 3 < s.numCnt * 10)).Nodup := List.nodup_range.filter _
    split
    · next c d rest hcols =>
      rw [hcols] at hmem hnodup
      obtain ⟨hc, hindex, hfree⟩ := hmem c List.mem_cons_self
      obtain ⟨hd, hindex', hfree'⟩ := hmem d (List.mem_cons_of_mem _ List.mem_cons_self)
      have hne : d ≠ c := fun heq => (List.nodup_cons.mp hnodup).1 (heq ▸ List.mem_cons_self)
      rw [hindex, hindex']
      refine (h.claim hc hfree).claim hd ?_
      rw [Claims.claim, List.mem_cons, not_or]
      exact ⟨by exact_mod_cast hne, hfree'⟩
    · next c hcols =>
      rw [hcols] at hmem
      obtain ⟨hc, hindex, hfree⟩ := hmem c List.mem_cons_self
      rw [hindex]
      exact h.claim hc hfree
    · exact h
  · exact h

end

theorem lt_foldl_max {ns : List ℕ} {c : ℕ} : c < ns.foldl max 0 ↔ ∃ n ∈ ns, c < n := by
  have hrun : ∀ (ns : List ℕ) (m : ℕ), c < ns.foldl max m ↔ c < m ∨ ∃ n ∈ ns, c < n := by
    intro ns
    induction ns with
    | nil => simp
    | cons n rest ih =>
      intro m
      rw [List.foldl_cons, ih, lt_max_iff]
      simp [or_assoc]
  rw [hrun]
  simp

theorem mem_of_mem_sampleRows {grid : List (List GridCell)} {hdrIdx : ℕ} {row : List GridCell}
    (h : row ∈ sampleRows grid hdrIdx) : row ∈ grid.drop (hdrIdx + 1) :=
  (List.mem_filter.mp (List.mem_of_mem_take h)).1

theorem ColumnMap.Distinct.detectColsFromContent {parts : TextParts} {grid : List (List GridCell)}
    {hdrIdx : ℕ} {m : ColumnMap} {valid : ℕ → Prop} (h : m.Distinct valid)
    (hvalid : ∀ r ∈ grid.drop (hdrIdx + 1), ∀ c < r.length, valid c)
    (hgrid : ∀ r ∈ grid, r.length ≤ 2 ^ 31) :
    (detectColsFromContent parts grid hdrIdx m).Distinct valid := by
  unfold Parser.detectColsFromContent
  simp only
  split
  · exact h
  · have hmax : ∀ c < ((sampleRows grid hdrIdx).map List.length).foldl max 0,
        ∃ r ∈ grid.drop (hdrIdx + 1), c < r.length := by
      intro c hc
      obtain ⟨n, hn, hlt⟩ := lt_foldl_max.mp hc
      obtain ⟨r, hr, rfl⟩ := List.mem_map.mp hn
      exact ⟨r, mem_of_mem_sampleRows hr, hlt⟩
    have hbound : ((sampleRows grid hdrIdx).map List.length).foldl max 0 ≤ 2 ^ 31 := by
      by_contra hlt
      obtain ⟨r, hr, hlong⟩ := hmax (2 ^ 31) (not_le.mp hlt)
      exact absurd (hgrid r (List.mem_of_mem_drop hr)) (not_le.mpr hlong)
    have hcolumns : ∀ c < ((sampleRows grid hdrIdx).map List.length).foldl max 0, valid c := by
      intro c hc
      obtain ⟨r, hr, hlt⟩ := hmax c hc
      exact hvalid r hr c hlt
    have hstart : Claims.Consistent valid ⟨m, (ColField.all.map m.get).filter (0 ≤ ·)⟩ := by
      refine ⟨h, fun f hf => List.mem_filter.mpr ⟨List.mem_map_of_mem ?_, decide_eq_true hf⟩⟩
      cases f <;> decide
    exact ((((hstart.inferColumn hcolumns hbound).inferColumn hcolumns hbound).inferAmounts
      hcolumns hbound).inferColumn hcolumns hbound).distinct

/-- A column of the header row, or of a row below it. -/
def IsColumn (row : List (List Char)) (grid : List (List GridCell)) (hdrIdx c : ℕ) : Prop :=
  c < row.length ∨ ∃ r ∈ grid.drop (hdrIdx + 1), c < r.length

/-- **No column has two roles.** -/
theorem detected_distinct (parts : TextParts) (row : List (List Char))
    (grid : List (List GridCell)) (hdrIdx : ℕ) (hrow : row.length ≤ 2 ^ 31)
    (hgrid : ∀ r ∈ grid, r.length ≤ 2 ^ 31) :
    (detectExcelCols parts.unicode row).Distinct (· < row.length) ∧
      (detectColsFromContent parts grid hdrIdx (detectExcelCols parts.unicode row)).Distinct
        (IsColumn row grid hdrIdx) := by
  have hkeywords := distinct_detectExcelCols parts.unicode hrow
  exact ⟨hkeywords, (hkeywords.imp fun c hc => Or.inl hc).detectColsFromContent
    (fun r hr c hc => Or.inr ⟨r, hr, hc⟩) hgrid⟩

theorem detected_distinct_header :
    (detectExcelCols asciiParts.unicode ["Date".toList, "Particulars".toList]).Distinct (· < 2) ∧
      (detectColsFromContent asciiParts [[], [.text "01/02/2024", .text "RENT", .text "500"]] 0
        (detectExcelCols asciiParts.unicode ["Date".toList, "Particulars".toList])).Distinct
        (IsColumn ["Date".toList, "Particulars".toList]
          [[], [.text "01/02/2024", .text "RENT", .text "500"]] 0) :=
  detected_distinct asciiParts ["Date".toList, "Particulars".toList]
    [[], [.text "01/02/2024", .text "RENT", .text "500"]] 0 (by decide) (by decide)

/-- The columns with which a sheet is read. -/
theorem distinct_detectHeader {parts : TextParts} {grid : List (List GridCell)} {hdrIdx : ℕ}
    {colMap : ColumnMap} (hgrid : ∀ r ∈ grid, r.length ≤ 2 ^ 31)
    (h : detectHeader parts grid = some (hdrIdx, colMap)) :
    colMap.Distinct fun c => ∃ r ∈ grid, c < r.length := by
  obtain ⟨⟨idx, keywords⟩, hheader, hcontent⟩ := Option.bind_eq_some_iff.mp h
  have hkeywords : keywords.Distinct fun c => ∃ r ∈ grid, c < r.length := by
    have hmem : (idx, keywords) ∈ (grid.take 50).zipIdx.map fun p =>
        (p.2, detectExcelCols parts.unicode (p.1.map (detectStr parts))) := by
      rw [keywordHeader, Option.orElse_eq_orElse, Option.orElse_eq_or] at hheader
      rcases Option.or_eq_some_iff.mp hheader with hfound | ⟨-, hfound⟩
      · exact List.mem_of_find?_eq_some hfound
      · exact List.mem_of_find?_eq_some hfound
    obtain ⟨⟨row, i⟩, hp, heq⟩ := List.mem_map.mp hmem
    have hrow : row ∈ grid := List.mem_of_mem_take (List.fst_mem_of_mem_zipIdx hp)
    cases heq
    have hlength : (row.map (detectStr parts)).length = row.length := List.length_map _
    exact (distinct_detectExcelCols parts.unicode (hlength.trans_le (hgrid row hrow))).imp
      fun c hc => ⟨row, hrow, hlength ▸ hc⟩
  simp only at hcontent
  split at hcontent
  · cases hcontent
    exact hkeywords.detectColsFromContent
      (fun r hr c hc => ⟨r, List.mem_of_mem_drop hr, hc⟩) hgrid
  · cases hcontent

/-! ## Rows that are too wide -/

/-- A date in column `n`, in three rows. -/
def wideRow (n : ℕ) : List GridCell := List.replicate n .empty ++ [.text "01/02/2024"]

def wideGrid (n : ℕ) : List (List GridCell) := [[], wideRow n, wideRow n, wideRow n]

section

variable {stats : ℕ → ColStats} {maxCol : ℕ} {s : Claims}

theorem date_inferColumn {f : ColField} {fits : ColStats → Bool}
    {less : ColStats → ColStats → Bool} (hf : ColField.date ≠ f) :
    (inferColumn stats maxCol f fits less s).map.get .date = s.map.get .date := by
  rw [inferColumn]
  split
  · split
    · exact ColumnMap.get_set_of_ne _ _ hf
    · rfl
  · rfl

theorem date_inferAmounts : (inferAmounts stats maxCol s).map.get .date = s.map.get .date := by
  rw [inferAmounts]
  split
  · split
    · rw [Claims.claim, ColumnMap.get_set_of_ne _ _ (by decide), Claims.claim,
        ColumnMap.get_set_of_ne _ _ (by decide)]
    · rw [Claims.claim, ColumnMap.get_set_of_ne _ _ (by decide)]
    · rfl
  · rfl

end

theorem sampleRows_wideGrid (n : ℕ) :
    sampleRows (wideGrid n) 0 = [wideRow n, wideRow n, wideRow n] := by
  simp [sampleRows, wideGrid, wideRow]

theorem freeColumns_wideGrid (n : ℕ) :
    freeColumns (colStats asciiParts [wideRow n, wideRow n, wideRow n]) (n + 1) []
      (fun s => s.total < s.dateCnt * 2) = [n] := by
  have hdate : colStats asciiParts [wideRow n, wideRow n, wideRow n] n =
      colStats asciiParts [wideRow 0, wideRow 0, wideRow 0] 0 := by
    simp [colStats, wideRow]
  have hblank : ∀ c < n, (colStats asciiParts [wideRow n, wideRow n, wideRow n] c).dateCnt = 0 := by
    intro c hc
    have hcell : (wideRow n)[c]?.getD .empty = .empty := by
      rw [wideRow, List.getElem?_append_left (by simpa using hc)]
      simp [hc]
    simp [colStats, hcell, GridCell.rawStr]
  rw [freeColumns, List.range_succ, List.filter_append]
  have hbefore : (List.range n).filter (fun c => !([] : List ℤ).contains (colIndex c) &&
      decide ((colStats asciiParts [wideRow n, wideRow n, wideRow n] c).total <
        (colStats asciiParts [wideRow n, wideRow n, wideRow n] c).dateCnt * 2)) = [] := by
    rw [List.filter_eq_nil_iff]
    intro c hc
    simp [hblank c (List.mem_range.mp hc)]
  have hfits : decide ((colStats asciiParts [wideRow 0, wideRow 0, wideRow 0] 0).total <
      (colStats asciiParts [wideRow 0, wideRow 0, wideRow 0] 0).dateCnt * 2) = true := by
    decide +kernel
  rw [hbefore, List.nil_append, List.filter_singleton, hdate, hfits]
  rfl

theorem date_wideGrid (n : ℕ) :
    (detectColsFromContent asciiParts (wideGrid n) 0 .unassigned).get .date = colIndex n := by
  have htaken : (ColField.all.map ColumnMap.unassigned.get).filter (0 ≤ ·) = [] := by decide
  have hmax : ([wideRow n, wideRow n, wideRow n].map List.length).foldl max 0 = n + 1 := by
    simp [wideRow]
  unfold detectColsFromContent
  simp only [sampleRows_wideGrid, hmax, htaken]
  rw [if_neg (by simp), inferNarration, date_inferColumn (by decide), date_inferAmounts,
    inferBalance, date_inferColumn (by decide), inferDate, inferColumn, freeColumns_wideGrid,
    ColumnMap.get_unassigned, if_pos (by decide)]
  exact ColumnMap.get_set .unassigned .date (colIndex n)

/-- A date in column `2 ^ 31` is assigned a negative index that is not `-1`. -/
theorem not_detected_distinct :
    ¬ ∀ (parts : TextParts) (row : List (List Char)) (grid : List (List GridCell)) (hdrIdx : ℕ),
      (detectColsFromContent parts grid hdrIdx (detectExcelCols parts.unicode row)).Distinct
        (IsColumn row grid hdrIdx) := by
  intro h
  have hwide : ∀ n, colIndex n = -1 ∨ ∃ c : ℕ, colIndex n = c := by
    intro n
    have hvalid := (h asciiParts [] (wideGrid n) 0).valid .date
    have hnone : detectExcelCols asciiParts.unicode [] = .unassigned := rfl
    rw [hnone, date_wideGrid] at hvalid
    exact hvalid.imp_right fun ⟨c, _, hc⟩ => ⟨c, hc⟩
  have hindex : colIndex (2 ^ 31) = -2147483648 := by decide +kernel
  rcases hwide (2 ^ 31) with heq | ⟨c, heq⟩
  · rw [hindex] at heq
    exact absurd heq (by decide)
  · rw [hindex] at heq
    omega

end Desktop.Parser
