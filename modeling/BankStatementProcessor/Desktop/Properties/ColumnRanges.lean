import BankStatementProcessor.Desktop.Parser.ColumnBoundaries

/-!
# The ranges of the columns

The fences divide the page into slots, and the range of a column is the slot of the fence it
stands on. Sums of doubles are rounded, so this holds where half points are doubles.
-/

namespace Desktop.Parser

open Infra

/-- A double from 0 to where half points end. -/
def IsPlace (x : F64) : Prop := x.IsExact ∧ ∃ q, x = .finite q ∧ 0 ≤ q ∧ q ≤ 2 ^ 52

/-- Two fences are equal or at least one point apart. -/
def Spread (raw : List F64) : Prop :=
  ∀ p q, .finite p ∈ raw → .finite q ∈ raw → p < q → p + 1 ≤ q

/-- All positions are fit, the fences are spread, and each column stands on one of them. -/
structure OnFences (fit : F64 → Prop) (colX : PdfColX) (hdrRow : List PdfItem) : Prop where
  columns : ∀ c ∈ colX.detected, fit c.2
  header : ∀ item ∈ hdrRow, fit item.x
  spread : Spread (rawFences colX hdrRow)
  stand : ∀ c ∈ colX.detected, c.2 ∈ rawFences colX hdrRow

/-- Each column has one range, and shares a place only with columns on its own fence. -/
structure HoldsColumns (colX : PdfColX) (hdrRow : List PdfItem) (bs : List ColBoundary) :
    Prop where
  fields : (bs.map (·.field)).Perm (colX.detected.map (·.1))
  own : ∀ c ∈ colX.detected, ∀ b ∈ bs, b.field = c.1 →
    ∀ x ∈ rawFences colX hdrRow, b.covers x = true ↔ x = c.2
  apart : ∀ c ∈ colX.detected, ∀ c' ∈ colX.detected, c.2 ≠ c'.2 →
    ∀ b ∈ bs, ∀ b' ∈ bs, b.field = c.1 → b'.field = c'.1 →
      ∀ x, ¬(b.covers x = true ∧ b'.covers x = true)
  same : ∀ c ∈ colX.detected, ∀ c' ∈ colX.detected, c.2 = c'.2 →
    ∀ b ∈ bs, ∀ b' ∈ bs, b.field = c.1 → b'.field = c'.1 → b.xMin = b'.xMin ∧ b.xMax = b'.xMax

/-- Every place from 0 on is in a range, and `assign_cells` reads an item there in one column. -/
structure CoversPage (bs : List ColBoundary) : Prop where
  covered : ∀ q : ℚ, 0 ≤ q → ∃ b ∈ bs, b.covers (.finite q) = true
  assigned : ∀ (item : PdfItem) (q : ℚ), item.x = .finite q → 0 ≤ q →
    ∃ b ∈ bs, ∀ before after field,
      bucket bs (before ++ item :: after) field = bucket bs before field ++
        (if field = b.field then [item.text.toList] else []) ++ bucket bs after field

/-! ## Sorted fences -/

section

variable {raw : List F64} {qs : List ℚ} {p q : ℚ}

theorem isClose_finite (hp : 0 ≤ p) (hq : q ≤ 2 ^ 52) (hle : p ≤ q)
    (hspread : p < q → p + 1 ≤ q) : isClose (.finite q) (.finite p) = decide (q = p) := by
  unfold isClose
  rw [F64.sub_finite]
  rcases hle.lt_or_eq with hlt | rfl
  · have hone : F64.HasBits 1 := ⟨1, 0, by norm_num, by norm_num, by norm_num⟩
    have hlarge : F64.HasBits (2 ^ 52) := ⟨1, 52, by norm_num, by norm_num, by norm_num⟩
    obtain ⟨r, hr, hle', -⟩ := F64.toDouble_between (q := q - p) hone hlarge one_pos
      (by linarith [hspread hlt]) (by linarith)
      (pow_lt_pow_right₀ one_lt_two (by norm_num))
    rw [hr, F64.abs_finite, abs_of_pos (by linarith), decide_eq_false hlt.ne']
    exact decide_eq_false (not_lt.mpr (le_trans (by norm_num) hle'))
  · rw [sub_self, decide_eq_true rfl]
    decide +kernel

/-- Sorted fences lose their repetitions and nothing else. -/
theorem dropClose_finite (hp : 0 ≤ p) (hqs : ∀ q ∈ qs, p ≤ q ∧ q ≤ 2 ^ 52)
    (hsorted : qs.Pairwise (· ≤ ·))
    (hspread : ∀ q ∈ p :: qs, ∀ q' ∈ p :: qs, q < q' → q + 1 ≤ q') :
    ∃ kept, dropClose (some (.finite p)) (qs.map .finite) = kept.map .finite ∧
      (p :: kept).Pairwise (· < ·) ∧ ∀ q, q ∈ p :: kept ↔ q ∈ p :: qs := by
  induction qs generalizing p with
  | nil => exact ⟨[], rfl, List.pairwise_singleton _ _, fun _ => Iff.rfl⟩
  | cons q rest ih =>
    obtain ⟨hpq, hq⟩ := hqs q List.mem_cons_self
    rw [List.pairwise_cons] at hsorted
    have hclose := isClose_finite hp hq hpq
      (hspread p List.mem_cons_self q (List.mem_cons_of_mem _ List.mem_cons_self))
    have hspread' : ∀ r ∈ q :: rest, ∀ r' ∈ q :: rest, r < r' → r + 1 ≤ r' :=
      fun r hr r' hr' =>
        hspread r (List.mem_cons_of_mem _ hr) r' (List.mem_cons_of_mem _ hr')
    obtain ⟨kept, hkept, hpairwise, hmem⟩ := ih (hp.trans hpq)
      (fun r hr => ⟨hsorted.1 r hr, (hqs r (List.mem_cons_of_mem _ hr)).2⟩) hsorted.2 hspread'
    rw [List.map_cons, dropClose, hclose]
    by_cases heq : q = p
    · subst heq
      rw [if_pos (decide_eq_true rfl)]
      refine ⟨kept, hkept, hpairwise, fun r => ?_⟩
      rw [hmem]
      simp
    · rw [if_neg (by simpa using heq), hkept]
      have hlt : p < q := lt_of_le_of_ne hpq (Ne.symm heq)
      refine ⟨q :: kept, rfl, List.pairwise_cons.mpr ⟨fun r hr => ?_, hpairwise⟩, fun r => ?_⟩
      · rcases List.mem_cons.mp hr with rfl | hr
        · exact hlt
        · exact hlt.trans ((List.pairwise_cons.mp hpairwise).1 r hr)
      · rw [List.mem_cons, hmem, ← List.mem_cons]

theorem notAfter_finite : notAfter (.finite p) (.finite q) = decide (p ≤ q) := by
  rw [notAfter, F64.lt, ← decide_not, decide_eq_decide]
  exact not_lt

theorem exists_sortedFences (hplace : ∀ x ∈ raw, IsPlace x) (hspread : Spread raw) :
    ∃ qs : List ℚ, sortedFences raw = qs.map .finite ∧ qs.Pairwise (· < ·) ∧
      ∀ q, q ∈ qs ↔ .finite q ∈ raw := by
  obtain ⟨rs, rfl⟩ : ∃ rs : List ℚ, raw = rs.map .finite := by
    refine ⟨raw.map F64.toRat, ?_⟩
    rw [List.map_map]
    refine (List.map_id raw).symm.trans (List.map_congr_left fun x hx => ?_)
    obtain ⟨-, q, rfl, -⟩ := hplace x hx
    rfl
  have hmem : ∀ q, .finite q ∈ rs.map F64.finite ↔ q ∈ rs := by simp
  have hsort : (rs.map F64.finite).mergeSort notAfter =
      (rs.mergeSort fun p q => decide (p ≤ q)).map F64.finite :=
    (List.map_mergeSort fun p _ q _ =>
      (notAfter_finite : notAfter (.finite p) (.finite q) = _).symm).symm
  have hpairwise : (rs.mergeSort fun p q => decide (p ≤ q)).Pairwise (· ≤ ·) := by
    refine (List.pairwise_mergeSort ?_ ?_ rs).imp fun h => of_decide_eq_true h
    · intro a b c hab hbc
      exact decide_eq_true ((of_decide_eq_true hab).trans (of_decide_eq_true hbc))
    · intro a b
      simpa using le_total a b
  have hperm : ∀ q, q ∈ (rs.mergeSort fun p q => decide (p ≤ q)) ↔ q ∈ rs := fun q =>
    List.mem_mergeSort
  rw [sortedFences, hsort]
  generalize (rs.mergeSort fun p q => decide (p ≤ q)) = sorted at hpairwise hperm
  cases sorted with
  | nil =>
    refine ⟨[], rfl, List.Pairwise.nil, fun q => ?_⟩
    rw [hmem, ← hperm]
  | cons p rest =>
    have hplace' : ∀ q ∈ p :: rest, 0 ≤ q ∧ q ≤ 2 ^ 52 := by
      intro q hq
      obtain ⟨-, q', hq', hbounds⟩ := hplace (.finite q) ((hmem q).mpr ((hperm q).mp hq))
      rw [F64.finite.inj hq']
      exact hbounds
    rw [List.pairwise_cons] at hpairwise
    obtain ⟨kept, hkept, hsorted, hiff⟩ := dropClose_finite (hplace' p List.mem_cons_self).1
      (fun q hq => ⟨hpairwise.1 q hq, (hplace' q (List.mem_cons_of_mem _ hq)).2⟩) hpairwise.2
      (fun q hq q' hq' => hspread q q' ((hmem q).mpr ((hperm q).mp hq))
        ((hmem q').mpr ((hperm q').mp hq')))
    refine ⟨p :: kept, ?_, hsorted, fun q => ?_⟩
    · rw [List.map_cons, dropClose, hkept, List.map_cons]
    · rw [hiff, hmem, ← hperm]

end

/-! ## Ranges and slots -/

/-- The midpoint of two finite positions. -/
def cut (a b : ℚ) : ℚ := (midpoint (.finite a) (.finite b)).toRat

section

variable {qs : List ℚ} {f : ColField} {c q : ℚ} {x : F64}

theorem separates_cut (hplace : ∀ q ∈ qs, IsPlace (.finite q))
    (hspread : ∀ p ∈ qs, ∀ q ∈ qs, p < q → p + 1 ≤ q) : Fences.Separates cut qs := by
  intro a ha b hb hab
  obtain ⟨-, a', ha', hnonneg, -⟩ := hplace a ha
  obtain ⟨hexact, b', hb', -, hle⟩ := hplace b hb
  cases ha'
  cases hb'
  obtain ⟨m, hm, hbetween⟩ := midpoint_between hnonneg hexact hle (hspread a ha b hb hab)
  rw [cut, hm]
  exact hbetween

theorem boundaryOf_finite (hplace : ∀ q ∈ qs, IsPlace (.finite q))
    (hspread : ∀ p ∈ qs, ∀ q ∈ qs, p < q → p + 1 ≤ q) (hc : c ∈ qs) :
    boundaryOf (qs.map .finite) (f, .finite c) =
      ⟨f, ((Fences.lower cut qs c).map .finite).getD (.finite 0),
        ((Fences.upper cut qs c).map .finite).getD (.infinite false)⟩ := by
  have hmid : ∀ a ∈ qs, ∀ b ∈ qs, a < b →
      midpoint (.finite a) (.finite b) = .finite (cut a b) := by
    intro a ha b hb hab
    obtain ⟨-, a', ha', hnonneg, -⟩ := hplace a ha
    obtain ⟨hexact, b', hb', -, hle⟩ := hplace b hb
    cases ha'
    cases hb'
    obtain ⟨m, hm, -⟩ := midpoint_between hnonneg hexact hle (hspread a ha b hb hab)
    rw [cut, hm]
    rfl
  have hleft : (qs.map F64.finite).filter (·.lt (.finite c)) =
      (qs.filter (· < c)).map .finite := by
    rw [List.filter_map]
    rfl
  have hright : (qs.map F64.finite).find? (F64.lt (.finite c) ·) =
      (qs.find? (c < ·)).map .finite := by
    rw [List.find?_map]
    rfl
  rw [boundaryOf, hleft, hright, List.getLast?_map, Fences.lower, Fences.upper]
  congr 2
  · cases hlast : (qs.filter (· < c)).getLast? with
    | none => rfl
    | some p =>
      have hmem := List.mem_filter.mp (List.mem_of_getLast? hlast)
      exact congrArg some (hmid p hmem.1 c hc (by simpa using hmem.2))
  · cases hfound : qs.find? (c < ·) with
    | none => rfl
    | some p =>
      have hlt : c < p := by simpa using List.find?_some hfound
      exact congrArg some (hmid c hc p (List.mem_of_find?_eq_some hfound) hlt)

/-- **A range holds what is in the slot of the column's fence.** -/
theorem covers_boundaryOf (hplace : ∀ q ∈ qs, IsPlace (.finite q)) (hsorted : qs.Pairwise (· < ·))
    (hspread : ∀ p ∈ qs, ∀ q ∈ qs, p < q → p + 1 ≤ q) (hc : c ∈ qs) :
    (boundaryOf (qs.map .finite) (f, .finite c)).covers x = true ↔
      ∃ q, x = .finite q ∧ 0 ≤ q ∧ Fences.InSlot cut qs c q := by
  have hseparates := separates_cut hplace hspread
  have hlower : ∀ l ∈ Fences.lower cut qs c, 0 ≤ l := by
    intro l hl
    obtain ⟨p, hp, rfl⟩ := Option.mem_map.mp hl
    obtain ⟨⟨hmem, hpc⟩, -⟩ := (Fences.mem_getLast?_filter hsorted).mp hp
    obtain ⟨-, p', hp', hnonneg, -⟩ := hplace p hmem
    cases hp'
    exact hnonneg.trans (hseparates p hmem c hc hpc).1.le
  rw [boundaryOf_finite hplace hspread hc, ColBoundary.covers, Bool.and_eq_true]
  unfold Fences.InSlot
  cases x with
  | nan => simp [F64.lt]
  | infinite negative =>
    refine iff_of_false ?_ (by simp)
    rintro ⟨hle, hlt⟩
    cases hl : Fences.lower cut qs c <;> cases hu : Fences.upper cut qs c <;>
      cases negative <;> simp [hl, hu, F64.le, F64.lt] at hle hlt
  | finite q =>
    have hle : (((Fences.lower cut qs c).map F64.finite).getD (.finite 0)).le (.finite q) = true ↔
        0 ≤ q ∧ ∀ l ∈ Fences.lower cut qs c, l ≤ q := by
      cases hl : Fences.lower cut qs c with
      | none => simp
      | some l =>
        have := hlower l hl
        simp only [Option.map_some, Option.getD_some, F64.le_finite, Option.mem_some_iff,
          forall_eq']
        exact ⟨fun h => ⟨this.trans h, h⟩, And.right⟩
    have hlt : (F64.finite q).lt (((Fences.upper cut qs c).map F64.finite).getD
        (.infinite false)) = true ↔ ∀ h ∈ Fences.upper cut qs c, q < h := by
      cases hu : Fences.upper cut qs c with
      | none => simp [F64.lt]
      | some h => simp
    rw [hle, hlt]
    simp [and_assoc]

end

/-! ## The page -/

theorem bucket_append_cons {bs : List ColBoundary} {item : PdfItem} {b : ColBoundary}
    (h : bs.find? (·.covers item.x) = some b) (before after : List PdfItem) (field : ColField) :
    bucket bs (before ++ item :: after) field = bucket bs before field ++
      (if field = b.field then [item.text.toList] else []) ++ bucket bs after field := by
  have hfield : (bs.find? fun b => b.xMin.le item.x && item.x.lt b.xMax) = some b := h
  unfold bucket
  simp only [List.filter_append, List.filter_cons, hfield, Option.map_some, List.map_append,
    List.append_assoc]
  congr 1
  by_cases heq : field = b.field
  · simp [heq]
  · have : ¬ b.field = field := fun h => heq h.symm
    simp [heq, this]

/-- The boundaries are the slots of the columns' fences `qs`. -/
structure SlotRanges (colX : PdfColX) (hdrRow : List PdfItem) (qs : List ℚ)
    (bs : List ColBoundary) : Prop where
  sorted : qs.Pairwise (· < ·)
  separates : Fences.Separates cut qs
  fences : ∀ x, x ∈ rawFences colX hdrRow ↔ ∃ q ∈ qs, x = .finite q
  nonneg : ∀ q ∈ qs, 0 ≤ q
  stand : ∀ c ∈ colX.detected, c.2 ∈ rawFences colX hdrRow
  columns : ∃ columns : List (ColField × F64), columns.Perm colX.detected ∧
    bs = columns.map (boundaryOf (qs.map .finite))
  slots : ∀ c ∈ colX.detected, ∀ q ∈ qs, c.2 = .finite q → ∀ x,
    (boundaryOf (qs.map .finite) c).covers x = true ↔
      ∃ r, x = .finite r ∧ 0 ≤ r ∧ Fences.InSlot cut qs q r

theorem OnFences.exists_slotRanges {colX : PdfColX} {hdrRow : List PdfItem}
    (h : OnFences IsPlace colX hdrRow) :
    ∃ qs bs, calcColBoundaries colX hdrRow = some bs ∧ SlotRanges colX hdrRow qs bs := by
  have hraw : ∀ x ∈ rawFences colX hdrRow, IsPlace x := by
    intro x hx
    rw [rawFences] at hx
    split at hx
    · obtain ⟨c, hc, rfl⟩ := List.mem_map.mp hx
      exact h.columns c hc
    · obtain ⟨item, hitem, rfl⟩ := List.mem_map.mp hx
      exact h.header item hitem
  obtain ⟨qs, hqs, hsorted, hmem⟩ := exists_sortedFences hraw h.spread
  have hplace : ∀ q ∈ qs, IsPlace (.finite q) := fun q hq => hraw _ ((hmem q).mp hq)
  have hspread : ∀ p ∈ qs, ∀ q ∈ qs, p < q → p + 1 ≤ q := fun p hp q hq =>
    h.spread p q ((hmem p).mp hp) ((hmem q).mp hq)
  have hnan : ¬(1 < colX.detected.length && colX.detected.any (·.2 == .nan)) = true := by
    rw [Bool.and_eq_true, List.any_eq_true]
    rintro ⟨-, c, hc, hbad⟩
    obtain ⟨-, q, hq, -⟩ := h.columns c hc
    rw [hq] at hbad
    cases hbad
  refine ⟨qs, _, by rw [calcColBoundaries, if_neg hnan, hqs], ?_⟩
  refine ⟨hsorted, separates_cut hplace hspread, fun x => ⟨fun hx => ?_, ?_⟩, fun q hq => ?_,
    h.stand, ⟨_, List.mergeSort_perm _ _, rfl⟩, ?_⟩
  · obtain ⟨-, q, rfl, -⟩ := hraw x hx
    exact ⟨q, (hmem q).mpr hx, rfl⟩
  · rintro ⟨q, hq, rfl⟩
    exact (hmem q).mp hq
  · obtain ⟨-, q', hq', hnonneg, -⟩ := hplace q hq
    rwa [F64.finite.inj hq']
  · rintro ⟨f, x⟩ - q hq rfl y
    exact covers_boundaryOf hplace hsorted hspread hq

namespace SlotRanges

variable {colX : PdfColX} {hdrRow : List PdfItem} {qs : List ℚ} {bs : List ColBoundary}

theorem exists_fence (h : SlotRanges colX hdrRow qs bs) {c : ColField × F64}
    (hc : c ∈ colX.detected) : ∃ q ∈ qs, c.2 = .finite q :=
  (h.fences c.2).mp (h.stand c hc)

/-- The boundary of a column is known by its field. -/
theorem eq_boundaryOf (h : SlotRanges colX hdrRow qs bs) {c : ColField × F64}
    (hc : c ∈ colX.detected) {b : ColBoundary} (hb : b ∈ bs) (hfield : b.field = c.1) :
    b = boundaryOf (qs.map .finite) c := by
  obtain ⟨columns, hperm, rfl⟩ := h.columns
  obtain ⟨c', hc', rfl⟩ := List.mem_map.mp hb
  have : c' = c := List.inj_on_of_nodup_map colX.nodup_fields_detected (hperm.mem_iff.mp hc') hc
    hfield
  rw [this]

theorem holdsColumns (h : SlotRanges colX hdrRow qs bs) : HoldsColumns colX hdrRow bs where
  fields := by
    obtain ⟨columns, hperm, rfl⟩ := h.columns
    rw [List.map_map]
    exact hperm.map _
  own := by
    intro c hc b hb hfield x hx
    obtain ⟨q, hq, hcq⟩ := h.exists_fence hc
    obtain ⟨r, hr, rfl⟩ := (h.fences x).mp hx
    rw [h.eq_boundaryOf hc hb hfield, h.slots c hc q hq hcq, hcq, F64.finite.injEq,
      ← Fences.inSlot_iff_of_mem h.sorted h.separates hq hr]
    constructor
    · rintro ⟨r', hr', -, hslot⟩
      cases hr'
      exact hslot
    · exact fun hslot => ⟨r, rfl, h.nonneg r hr, hslot⟩
  apart := by
    intro c hc c' hc' hne b hb b' hb' hfield hfield' x
    obtain ⟨q, hq, hcq⟩ := h.exists_fence hc
    obtain ⟨q', hq', hcq'⟩ := h.exists_fence hc'
    rw [h.eq_boundaryOf hc hb hfield, h.eq_boundaryOf hc' hb' hfield', h.slots c hc q hq hcq,
      h.slots c' hc' q' hq' hcq']
    rintro ⟨⟨r, rfl, -, hslot⟩, r', hr', -, hslot'⟩
    cases hr'
    rcases lt_trichotomy q q' with hlt | heq | hgt
    · exact Fences.not_inSlot_of_lt h.sorted h.separates hq hq' hlt ⟨hslot, hslot'⟩
    · exact hne (hcq.trans (heq ▸ hcq'.symm))
    · exact Fences.not_inSlot_of_lt h.sorted h.separates hq' hq hgt ⟨hslot', hslot⟩
  same := by
    intro c hc c' hc' heq b hb b' hb' hfield hfield'
    rw [h.eq_boundaryOf hc hb hfield, h.eq_boundaryOf hc' hb' hfield', boundaryOf, boundaryOf, heq]
    exact ⟨rfl, rfl⟩

theorem coversPage (h : SlotRanges colX [] qs bs) (hdetected : colX.detected ≠ []) :
    CoversPage bs := by
  obtain ⟨columns, hperm, hbs⟩ := h.columns
  have hne : qs ≠ [] := by
    obtain ⟨c, hc⟩ := List.exists_mem_of_ne_nil _ hdetected
    obtain ⟨q, hq, -⟩ := h.exists_fence hc
    exact List.ne_nil_of_mem hq
  have hcovered : ∀ q : ℚ, 0 ≤ q → ∃ b ∈ bs, b.covers (.finite q) = true := by
    intro q hq
    obtain ⟨x, hx, hslot⟩ := Fences.exists_inSlot cut h.sorted hne q
    -- without a header row each fence is a column
    have hfence : .finite x ∈ colX.detected.map (·.2) := (h.fences _).mpr ⟨x, hx, rfl⟩
    obtain ⟨c, hc, hcx⟩ := List.mem_map.mp hfence
    refine ⟨boundaryOf (qs.map .finite) c, ?_, (h.slots c hc x hx hcx _).mpr ⟨q, rfl, hq, hslot⟩⟩
    rw [hbs]
    exact List.mem_map_of_mem (hperm.mem_iff.mpr hc)
  refine ⟨hcovered, fun item q hitem hq => ?_⟩
  obtain ⟨b, hb, hbq⟩ := hcovered q hq
  rw [← hitem] at hbq
  obtain ⟨first, hfirst⟩ : ∃ first, bs.find? (·.covers item.x) = some first :=
    Option.isSome_iff_exists.mp (List.find?_isSome.mpr ⟨b, hb, hbq⟩)
  exact ⟨first, List.mem_of_find?_eq_some hfirst, bucket_append_cons hfirst⟩

end SlotRanges

/-- **The columns divide the page.** -/
theorem calcColBoundaries_divides (colX : PdfColX) (hdrRow : List PdfItem)
    (h : OnFences IsPlace colX hdrRow) :
    ∃ bs, calcColBoundaries colX hdrRow = some bs ∧ HoldsColumns colX hdrRow bs ∧
      (hdrRow = [] → colX.detected ≠ [] → CoversPage bs) := by
  obtain ⟨qs, bs, hbs, hslots⟩ := h.exists_slotRanges
  refine ⟨bs, hbs, hslots.holdsColumns, ?_⟩
  rintro rfl hdetected
  exact hslots.coversPage hdetected

def noColumns : PdfColX := ⟨none, none, none, none, none, none, none⟩

/-- A page without a header row. -/
def pageColumns : PdfColX :=
  { noColumns with
    date := some (.finite (81 / 2)), narration := some (.finite 120),
    debitCredit := some (.finite (1281 / 4)) }

theorem calcColBoundaries_divides_page :
    ∃ bs, calcColBoundaries pageColumns [] = some bs ∧ HoldsColumns pageColumns [] bs ∧
      (([] : List PdfItem) = [] → pageColumns.detected ≠ [] → CoversPage bs) := by
  refine calcColBoundaries_divides pageColumns [] ⟨?_, by simp, ?_, fun c hc =>
    List.mem_map_of_mem hc⟩
  · intro c hc
    have hc' : c ∈ [(ColField.date, F64.finite (81 / 2)), (ColField.narration, F64.finite 120),
      (ColField.debitCredit, F64.finite (1281 / 4))] := hc
    simp only [List.mem_cons, List.not_mem_nil, or_false] at hc'
    rcases hc' with rfl | rfl | rfl <;>
      exact ⟨by unfold F64.IsExact; decide +kernel, _, rfl, by norm_num, by norm_num⟩
  · intro p q hp hq hlt
    have hmem : ∀ r, F64.finite r ∈ rawFences pageColumns [] →
        r = 81 / 2 ∨ r = 120 ∨ r = 1281 / 4 := by
      intro r hr
      have hr' : F64.finite r ∈
        [F64.finite (81 / 2), F64.finite 120, F64.finite (1281 / 4)] := hr
      simpa using hr'
    rcases hmem p hp with rfl | rfl | rfl <;> rcases hmem q hq with rfl | rfl | rfl <;> linarith

/-! ## Where it fails -/

/-- A position without an upper bound. -/
def IsPosition (x : F64) : Prop := x.IsExact ∧ ∃ q, x = .finite q ∧ 0 ≤ q

/-- Two columns a point apart where half points are no doubles. -/
def farColumns : PdfColX :=
  { noColumns with date := some (.finite (2 ^ 52)), debit := some (.finite (2 ^ 52 + 1)) }

/-- Debit and credit on one fence. -/
def sharedColumns : PdfColX :=
  { noColumns with debit := some (.finite 100), credit := some (.finite 100) }

theorem calcColBoundaries_of_sorted (colX : PdfColX)
    (hnan : ¬(1 < colX.detected.length && colX.detected.any (·.2 == .nan)) = true)
    (hsorted : colX.detected.Pairwise fun a b => notAfter a.2 b.2) :
    calcColBoundaries colX [] =
      some (colX.detected.map (boundaryOf (dropClose none (colX.detected.map (·.2))))) := by
  have hfences : (colX.detected.map (·.2)).mergeSort notAfter = colX.detected.map (·.2) :=
    List.mergeSort_of_pairwise (List.pairwise_map.mpr hsorted)
  rw [calcColBoundaries, if_neg hnan, rawFences,
    if_pos (show ([] : List PdfItem).isEmpty = true from rfl), sortedFences, hfences,
    List.mergeSort_of_pairwise hsorted]

/-- Far out a column loses its own place, columns on one fence have one range, and without
columns nothing is covered. -/
theorem not_calcColBoundaries_divides :
    (¬ ∀ colX hdrRow, OnFences IsPosition colX hdrRow →
      ∀ bs, calcColBoundaries colX hdrRow = some bs → HoldsColumns colX hdrRow bs) ∧
    (¬ ∀ colX hdrRow, OnFences IsPlace colX hdrRow →
      ∀ bs, calcColBoundaries colX hdrRow = some bs →
        bs.Pairwise fun b b' => ∀ x, ¬(b.covers x = true ∧ b'.covers x = true)) ∧
    ¬ ∀ colX, OnFences IsPlace colX [] →
      ∀ bs, calcColBoundaries colX [] = some bs → CoversPage bs := by
  refine ⟨fun h => ?_, fun h => ?_, fun h => ?_⟩
  · have hfences : OnFences IsPosition farColumns [] := by
      refine ⟨?_, by simp, ?_, fun c hc => List.mem_map_of_mem hc⟩
      · intro c hc
        have hc' : c ∈ [(ColField.date, F64.finite (2 ^ 52)),
          (ColField.debit, F64.finite (2 ^ 52 + 1))] := hc
        rcases List.mem_pair.mp hc' with rfl | rfl
        · exact ⟨by unfold F64.IsExact; decide +kernel, _, rfl, by norm_num⟩
        · exact ⟨by unfold F64.IsExact; decide +kernel, _, rfl, by norm_num⟩
      · intro p q hp hq hlt
        have hmem : ∀ r, F64.finite r ∈ rawFences farColumns [] → r = 2 ^ 52 ∨ r = 2 ^ 52 + 1 := by
          intro r hr
          have hr' : F64.finite r ∈ [F64.finite (2 ^ 52), F64.finite (2 ^ 52 + 1)] := hr
          simpa using hr'
        rcases hmem p hp with rfl | rfl <;> rcases hmem q hq with rfl | rfl <;> linarith
    have hbs := calcColBoundaries_of_sorted farColumns (by decide +kernel)
      (by decide +kernel)
    have hown := (h _ _ hfences _ hbs).own (.date, .finite (2 ^ 52)) (by decide +kernel)
      ⟨.date, .finite 0, .finite (2 ^ 52)⟩ (by decide +kernel) rfl (.finite (2 ^ 52))
      (by decide +kernel)
    exact absurd (hown.mpr rfl) (by decide +kernel)
  · have hfences : OnFences IsPlace sharedColumns [] := by
      have hplace : IsPlace (.finite 100) :=
        ⟨by unfold F64.IsExact; decide +kernel, _, rfl, by norm_num, by norm_num⟩
      refine ⟨?_, by simp, ?_, fun c hc => List.mem_map_of_mem hc⟩
      · intro c hc
        have hc' : c ∈ [(ColField.debit, F64.finite 100), (ColField.credit, F64.finite 100)] := hc
        rcases List.mem_pair.mp hc' with rfl | rfl <;> exact hplace
      · intro p q hp hq hlt
        have hmem : ∀ r, F64.finite r ∈ rawFences sharedColumns [] → r = 100 := by
          intro r hr
          have hr' : F64.finite r ∈ [F64.finite 100, F64.finite 100] := hr
          simpa using hr'
        rw [hmem p hp, hmem q hq] at hlt
        exact absurd hlt (lt_irrefl _)
    have hbs := calcColBoundaries_of_sorted sharedColumns (by decide +kernel)
      (by decide +kernel)
    have hpairwise := h _ _ hfences _ hbs
    have hfirst : sharedColumns.detected.map (boundaryOf (dropClose none
        (sharedColumns.detected.map (·.2)))) =
        [⟨.debit, .finite 0, .infinite false⟩, ⟨.credit, .finite 0, .infinite false⟩] := by
      decide +kernel
    rw [hfirst, List.pairwise_pair] at hpairwise
    exact hpairwise (.finite 100) ⟨by decide +kernel, by decide +kernel⟩
  · have hfences : OnFences IsPlace noColumns [] := by
      have hnone : noColumns.detected = [] := rfl
      refine ⟨by simp [hnone], by simp, ?_, by simp [hnone]⟩
      intro p q hp
      have hp' : F64.finite p ∈ ([] : List F64) := hp
      cases hp'
    have hbs := calcColBoundaries_of_sorted noColumns (by decide +kernel)
      (by decide +kernel)
    obtain ⟨b, hb, -⟩ := (h _ hfences _ hbs).covered 0 le_rfl
    cases hb

end Desktop.Parser
