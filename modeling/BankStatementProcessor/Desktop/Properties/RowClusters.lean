import BankStatementProcessor.Desktop.Parser.RowBuilder
import BankStatementProcessor.Infra.Clusters
import BankStatementProcessor.Infra.Rounding
import Mathlib.Data.Prod.Lex
import Mathlib.Order.Compare

/-!
# The rows keep all items

The loop over the sorted items makes the clusters of `Infra.clusters`, and sorts each by `x`.
-/

namespace Desktop.Parser

open Infra

def RawPdfItem.IsPlaced (item : RawPdfItem) : Prop :=
  item.x.isFinite = true ∧ item.y.isFinite = true

/-- The test that puts an item into the row that `ref` began. -/
def nearY (fl : F64 → F64) (yTolerance : F64) (ref item : RawPdfItem) : Bool :=
  (fl (item.y.sub ref.y)).abs.le yTolerance

/-- The items of each row, as they were. -/
structure AreRowsOf (fl : F64 → F64) (yTolerance : F64) (items : List RawPdfItem)
    (groups : List (List RawPdfItem)) : Prop where
  perm : groups.flatten.Perm items
  sorted : ∀ g ∈ groups, g.Pairwise fun a b => a.x.le b.x = true
  increasing : groups.Pairwise fun g g' => ∀ a ∈ g, ∀ b ∈ g', a.y.lt b.y = true
  near : ∀ g ∈ groups, ∃ ref ∈ g, ∀ a ∈ g, ref.y.le a.y = true ∧ nearY fl yTolerance ref a = true

/-! ## Sorting -/

theorem cmpF64_finite (p q : ℚ) : cmpF64 (.finite p) (.finite q) = compare p q := by
  unfold cmpF64
  rcases lt_trichotomy p q with h | rfl | h
  · simp [F64.lt, h, compare_lt_iff_lt.mpr h]
  · simp [F64.lt]
  · simp [F64.lt, h, h.not_gt, compare_gt_iff_gt.mpr h]

theorem isLE_cmpF64_finite (p q : ℚ) :
    (cmpF64 (.finite p) (.finite q)).isLE = true ↔ p ≤ q := by
  rw [cmpF64_finite]
  rcases lt_trichotomy p q with h | rfl | h
  · simp [compare_lt_iff_lt.mpr h, h.le]
  · simp
  · simp [compare_gt_iff_gt.mpr h, h.not_ge]

theorem exists_finite {x : F64} (h : x.isFinite = true) : ∃ q, x = .finite q := by
  cases x with
  | finite q => exact ⟨q, rfl⟩
  | nan => cases h
  | infinite negative => cases h

/-- A sort by a key is one of the keys, on elements where the two orders agree. -/
theorem pairwise_mergeSort_of_key {α κ : Type} [LinearOrder κ] (key : α → κ)
    (before : α → α → Bool) {l : List α} (h : ∀ a ∈ l, ∀ b ∈ l, (before a b = true ↔ key a ≤ key b)) :
    (l.mergeSort before).Pairwise fun a b => key a ≤ key b := by
  have hsort : l.mergeSort before = l.mergeSort fun a b => decide (key a ≤ key b) := by
    have hmap := List.map_mergeSort (r := before) (s := fun a b => decide (key a ≤ key b))
      (f := id) (l := l) fun a ha b hb => by
        rw [Bool.eq_iff_iff, h a ha b hb, decide_eq_true_iff]
        rfl
    rwa [List.map_id, List.map_id] at hmap
  rw [hsort]
  refine (List.pairwise_mergeSort ?_ ?_ l).imp fun hab => of_decide_eq_true hab
  · intro a b c hab hbc
    exact decide_eq_true ((of_decide_eq_true hab).trans (of_decide_eq_true hbc))
  · intro a b
    simpa using le_total (key a) (key b)

section

variable {a b : RawPdfItem}

def RawPdfItem.place (a : RawPdfItem) : ℚ ×ₗ ℚ := toLex (a.y.toRat, a.x.toRat)

theorem notAfter_iff (ha : a.IsPlaced) (hb : b.IsPlaced) :
    a.notAfter b = true ↔ a.place ≤ b.place := by
  obtain ⟨text, x, y, w⟩ := a
  obtain ⟨text', x', y', w'⟩ := b
  obtain ⟨⟨p, rfl⟩, q, rfl⟩ := And.intro (exists_finite ha.1) (exists_finite ha.2)
  obtain ⟨⟨p', rfl⟩, q', rfl⟩ := And.intro (exists_finite hb.1) (exists_finite hb.2)
  rw [RawPdfItem.notAfter, cmpF64_finite, cmpF64_finite, RawPdfItem.place, RawPdfItem.place,
    Prod.Lex.toLex_le_toLex]
  show _ ↔ q < q' ∨ q = q' ∧ p ≤ p'
  rcases lt_trichotomy q q' with h | rfl | h
  · simp [compare_lt_iff_lt.mpr h, h]
  · simp [← cmpF64_finite, isLE_cmpF64_finite]
  · simp [compare_gt_iff_gt.mpr h, h.not_gt, h.ne']

theorem toRat_le_of_place_le (h : a.place ≤ b.place) : a.y.toRat ≤ b.y.toRat := by
  rw [RawPdfItem.place, RawPdfItem.place, Prod.Lex.toLex_le_toLex] at h
  exact h.elim le_of_lt fun h => h.1.le

theorem le_of_place_le (ha : a.IsPlaced) (hb : b.IsPlaced) (h : a.place ≤ b.place) :
    a.y.le b.y = true := by
  have hle := toRat_le_of_place_le h
  obtain ⟨⟨q, hq⟩, q', hq'⟩ := And.intro (exists_finite ha.2) (exists_finite hb.2)
  rw [hq, hq'] at hle ⊢
  exact F64.le_finite.mpr hle

end

/-! ## The loop -/

section

variable {fl : F64 → F64} {yTolerance : F64} {items : List RawPdfItem}

theorem sortByX_map (row : List RawPdfItem) : sortByX (row.map RawPdfItem.intoPdfItem) =
    (row.mergeSort fun a b => (cmpF64 a.x b.x).isLE).map RawPdfItem.intoPdfItem :=
  (List.map_mergeSort (f := RawPdfItem.intoPdfItem)
    (r := fun a b : RawPdfItem => (cmpF64 a.x b.x).isLE)
    (s := fun a b : PdfItem => (cmpF64 a.x b.x).isLE) fun _ _ _ _ => rfl).symm

/-- From where it stands the loop makes the clusters behind the current row. -/
theorem flush_foldl_push (rows : List (List PdfItem)) (ref : RawPdfItem)
    {cur : List RawPdfItem} (hcur : cur ≠ []) :
    (items.foldl (RowBuilder.push fl yTolerance)
      ⟨rows, ref.y, cur.map RawPdfItem.intoPdfItem⟩).flush =
        rows ++ (clustersFrom (nearY fl yTolerance) ref cur items).map
          fun c => sortByX (c.map RawPdfItem.intoPdfItem) := by
  have hflush : ∀ (rows : List (List PdfItem)) (y : F64) {cur : List RawPdfItem}, cur ≠ [] →
      (RowBuilder.mk rows y (cur.map RawPdfItem.intoPdfItem)).flush =
        rows ++ [sortByX (cur.map RawPdfItem.intoPdfItem)] := by
    intro rows y cur hcur
    exact if_neg (by simpa using hcur)
  induction items generalizing rows ref cur with
  | nil => exact hflush rows ref.y hcur
  | cons item items ih =>
    rw [List.foldl_cons, clustersFrom]
    cases hnear : nearY fl yTolerance ref item with
    | true =>
      have hpush : RowBuilder.push fl yTolerance ⟨rows, ref.y, cur.map RawPdfItem.intoPdfItem⟩
          item = ⟨rows, ref.y, (cur ++ [item]).map RawPdfItem.intoPdfItem⟩ := by
        rw [RowBuilder.push, List.map_append]
        exact if_pos hnear
      rw [hpush, ih rows ref (by simp)]
      rfl
    | false =>
      have hpush : RowBuilder.push fl yTolerance ⟨rows, ref.y, cur.map RawPdfItem.intoPdfItem⟩
          item = ⟨rows ++ [sortByX (cur.map RawPdfItem.intoPdfItem)], item.y,
            [item].map RawPdfItem.intoPdfItem⟩ := by
        rw [RowBuilder.push, ← hflush rows ref.y hcur]
        exact if_neg (by rw [← nearY, hnear]; exact Bool.false_ne_true)
      rw [hpush, ih _ item (List.cons_ne_nil _ _), List.append_assoc]
      rfl

theorem nearY_self (hfl : F64.Rounds fl) (htol : (F64.finite 0).le yTolerance = true)
    {item : RawPdfItem} (h : item.IsPlaced) : nearY fl yTolerance item item = true := by
  obtain ⟨q, hq⟩ := exists_finite h.2
  have hzero : fl (.finite 0) = .finite 0 := by exact_mod_cast hfl.whole 0 (by norm_num)
  rw [nearY, hq, F64.sub_finite, sub_self, hzero]
  exact htol

theorem clusterIntoRows_eq (hfl : F64.Rounds fl) (htol : (F64.finite 0).le yTolerance = true)
    (h : ∀ item ∈ items, item.IsPlaced) : clusterIntoRows fl items yTolerance =
      (clusters (nearY fl yTolerance) (items.mergeSort RawPdfItem.notAfter)).map
        fun c => sortByX (c.map RawPdfItem.intoPdfItem) := by
  unfold clusterIntoRows
  cases hsorted : items.mergeSort RawPdfItem.notAfter with
  | nil => rfl
  | cons first rest =>
    have hfirst : first ∈ items := by
      have hmem : first ∈ items.mergeSort RawPdfItem.notAfter := hsorted ▸ List.mem_cons_self
      exact List.mem_mergeSort.mp hmem
    have hpush : RowBuilder.push fl yTolerance ⟨[], first.y, []⟩ first =
        ⟨[], first.y, [first].map RawPdfItem.intoPdfItem⟩ :=
      if_pos (nearY_self hfl htol (h first hfirst))
    dsimp only
    rw [List.foldl_cons, hpush, flush_foldl_push _ _ (List.cons_ne_nil _ _), List.nil_append]
    rfl

/-- **The rows are the items, none lost, from top to bottom and from left to right, and each near
to the first of its row.** -/
theorem clusterIntoRows_keeps (hfl : F64.Rounds fl) (htol : (F64.finite 0).le yTolerance = true)
    (h : ∀ item ∈ items, item.IsPlaced) :
    ∃ groups, clusterIntoRows fl items yTolerance =
        groups.map (List.map RawPdfItem.intoPdfItem) ∧
      AreRowsOf fl yTolerance items groups := by
  have hmem : ∀ item, item ∈ items.mergeSort RawPdfItem.notAfter ↔ item ∈ items :=
    fun item => List.mem_mergeSort
  have hsorted := pairwise_mergeSort_of_key RawPdfItem.place RawPdfItem.notAfter
    fun a ha b hb => notAfter_iff (h a ha) (h b hb)
  have hperm := items.mergeSort_perm RawPdfItem.notAfter
  rw [clusterIntoRows_eq hfl htol h]
  generalize items.mergeSort RawPdfItem.notAfter = sorted at hmem hsorted hperm ⊢
  have hplaced : ∀ c ∈ clusters (nearY fl yTolerance) sorted, ∀ a ∈ c, a ∈ sorted := by
    intro c hc a ha
    rw [← flatten_clusters (nearY fl yTolerance) sorted]
    exact List.mem_flatten.mpr ⟨c, hc, ha⟩
  let byX : List RawPdfItem → List RawPdfItem :=
    fun c => c.mergeSort fun a b => (cmpF64 a.x b.x).isLE
  have hbyX : ∀ c, (byX c).Perm c := fun c => c.mergeSort_perm _
  refine ⟨(clusters (nearY fl yTolerance) sorted).map byX, ?_, ?_, ?_, ?_, ?_⟩
  · rw [List.map_map]
    exact List.map_congr_left fun c _ => sortByX_map c
  · have hflat : ((clusters (nearY fl yTolerance) sorted).map byX).flatten.Perm
        (clusters (nearY fl yTolerance) sorted).flatten :=
      List.Perm.flatten_congr (List.forall₂_map_left_iff.mpr
        (List.forall₂_same.mpr fun c _ => hbyX c))
    rw [flatten_clusters] at hflat
    exact hflat.trans hperm
  · intro g hg
    obtain ⟨c, hc, rfl⟩ := List.mem_map.mp hg
    have hitems : ∀ a ∈ c, a.IsPlaced := fun a ha => h a ((hmem a).mp (hplaced c hc a ha))
    have hkey := pairwise_mergeSort_of_key (fun a : RawPdfItem => a.x.toRat)
      (fun a b => (cmpF64 a.x b.x).isLE) (l := c) fun a ha b hb => by
        obtain ⟨⟨p, hp⟩, q, hq⟩ :=
          And.intro (exists_finite (hitems a ha).1) (exists_finite (hitems b hb).1)
        rw [hp, hq, isLE_cmpF64_finite]
        rfl
    refine hkey.imp_of_mem fun {a b} ha hb hab => ?_
    obtain ⟨⟨p, hp⟩, q, hq⟩ := And.intro (exists_finite (hitems a ((hbyX c).mem_iff.mp ha)).1)
      (exists_finite (hitems b ((hbyX c).mem_iff.mp hb)).1)
    rw [hp, hq] at hab ⊢
    exact F64.le_finite.mpr hab
  · have hstrict := @pairwise_clusters _ (nearY fl yTolerance) sorted
      (fun a b : RawPdfItem => a.IsPlaced ∧ b.IsPlaced ∧ a.place ≤ b.place)
      (fun a b => a.IsPlaced ∧ b.IsPlaced ∧ a.y.toRat < b.y.toRat)
      (hsorted.imp_of_mem fun ha hb hab => ⟨h _ ((hmem _).mp ha), h _ ((hmem _).mp hb), hab⟩)
      (by
        rintro r a b ⟨ha, hb, hab⟩ hfar hnear
        refine ⟨ha, hb, lt_of_le_of_ne (toRat_le_of_place_le hab) fun heq => ?_⟩
        -- items of one height are near to the same items
        have hy : a.y = b.y := by
          obtain ⟨⟨p, hp⟩, q, hq⟩ := And.intro (exists_finite ha.2) (exists_finite hb.2)
          rw [hp, hq] at heq ⊢
          exact congrArg _ heq
        have hsame : nearY fl yTolerance r a = false := by
          rw [nearY, hy]
          exact hfar
        rcases hnear with rfl | hnear
        · rw [nearY_self hfl htol ha] at hsame
          cases hsame
        · rw [hnear] at hsame
          cases hsame)
      (fun a b c hab hbc => ⟨hab.1, hbc.2.1, hab.2.2.trans_le (toRat_le_of_place_le hbc.2.2)⟩)
    rw [List.pairwise_map]
    refine hstrict.imp fun hab a ha b hb => ?_
    obtain ⟨ha', hb', hlt⟩ := hab a ((hbyX _).mem_iff.mp ha) b ((hbyX _).mem_iff.mp hb)
    obtain ⟨⟨p, hp⟩, q, hq⟩ := And.intro (exists_finite ha'.2) (exists_finite hb'.2)
    rw [hp, hq] at hlt ⊢
    exact F64.lt_finite.mpr hlt
  · intro g hg
    obtain ⟨c, hc, rfl⟩ := List.mem_map.mp hg
    obtain ⟨ref, rest, rfl, hnear⟩ := isCluster_of_mem_clusters c hc
    have hsub : (ref :: rest).Sublist sorted := by
      rw [← flatten_clusters (nearY fl yTolerance) sorted]
      exact List.sublist_flatten_of_mem hc
    have hfirst := hplaced _ hc ref List.mem_cons_self
    refine ⟨ref, (hbyX _).mem_iff.mpr List.mem_cons_self, fun a ha => ?_⟩
    have ha := (hbyX _).mem_iff.mp ha
    have hitem := h a ((hmem a).mp (hplaced _ hc a ha))
    have href := h ref ((hmem ref).mp hfirst)
    rcases List.mem_cons.mp ha with rfl | hrest
    · exact ⟨le_of_place_le href href le_rfl, nearY_self hfl htol href⟩
    · exact ⟨le_of_place_le href hitem
        (List.rel_of_pairwise_cons (hsorted.sublist hsub) hrest), hnear a hrest⟩

end

/-- Two lines of a page, the second one listed from right to left, with a stamp between them. -/
def driftingItems : List RawPdfItem :=
  [⟨"NEFT", .finite 90, .finite 112, .finite 40⟩, ⟨"01/04/2025", .finite 20, .finite 114, .finite 50⟩,
    ⟨"Date", .finite 20, .finite 100, .finite 30⟩, ⟨"PAID", .finite 60, .finite 106, .finite 30⟩]

theorem clusterIntoRows_driftingItems :
    ∃ groups, clusterIntoRows F64.toDouble driftingItems (.finite 5) =
        groups.map (List.map RawPdfItem.intoPdfItem) ∧
      AreRowsOf F64.toDouble (.finite 5) driftingItems groups :=
  clusterIntoRows_keeps F64.rounds_toDouble (by decide +kernel)
    (by unfold RawPdfItem.IsPlaced; decide +kernel)

end Desktop.Parser
