import BankStatementProcessor.Desktop.Duplicates
import BankStatementProcessor.Infra.DisplayText
import BankStatementProcessor.Infra.Lexical
import Mathlib.Data.List.ReduceOption

/-!
# Duplicates are found once and for all

A row is flagged only for an earlier row, no two rows are left that call for a flag, and to look
again changes nothing. The order in which a hash table lists the buckets does not show.
-/

namespace Desktop.Duplicates

open Infra

/-! ## Three kinds of repeats -/

def SameHash (t t' : Transaction) : Prop := t.hash = t'.hash

/-- The same reference number and the same amount above 0, as it is written with two decimals. -/
structure SameReference (t t' : Transaction) : Prop where
  reference : trim t.reference.toList = trim t'.reference.toList
  isNumber : looksLikeReferenceNumber (trim t.reference.toList) = true
  positive : (F64.finite 0).lt (amount t) = true
  positive' : (F64.finite 0).lt (amount t') = true
  amount : (amount t).fixed 2 = (Duplicates.amount t').fixed 2

/-- The same date, amount and direction, and half of the words. -/
structure Similar (u : Unicode) (isNumeric : Char → Bool) (fl : F64 → F64)
    (t t' : Transaction) : Prop where
  date : t.date = t'.date
  movement : ∃ amt amt' isDebit, movement t = some (amt, isDebit) ∧
    Duplicates.movement t' = some (amt', isDebit) ∧ amt.fixed 2 = amt'.fixed 2
  narration : (F64.finite (1 / 2)).le
    (narrSimilarity u isNumeric fl t.narration t'.narration) = true

def Related (u : Unicode) (isNumeric : Char → Bool) (fl : F64 → F64)
    (t t' : Transaction) : Prop :=
  SameHash t t' ∨ SameReference t t' ∨ Similar u isNumeric fl t t'

section

variable {u : Unicode} {isNumeric : Char → Bool} {fl : F64 → F64} {t t' : Transaction}

/-! ## The flag -/

theorem flag_flag (t : Transaction) : flag (flag t) = flag t := by
  have htag : addTag "DUP" (flag t) = flag t := addTag_of_contains (contains_addTag "DUP" t)
  calc flag (flag t) = { addTag "DUP" (flag t) with dupFlag := true } := rfl
    _ = { flag t with dupFlag := true } := by rw [htag]
    _ = flag t := rfl

theorem dupFlag_flag (t : Transaction) : (flag t).dupFlag = true := rfl

theorem isExempt_flag (t : Transaction) : isExempt (flag t) = isExempt t := rfl

theorem hashKey_flag (t : Transaction) : hashKey (flag t) = hashKey t := rfl

theorem flag_ne (h : t.dupFlag = false) : t ≠ flag t' := by
  rintro rfl
  cases h

/-- The flag does not count for the relation. -/
theorem related_of_marked {x x' y y' : Transaction} (hx : x' = x ∨ x' = flag x)
    (hy : y' = y ∨ y' = flag y) (h : Related u isNumeric fl x' y') :
    Related u isNumeric fl x y := by
  rcases hx with rfl | rfl <;> rcases hy with rfl | rfl
  · exact h
  · rcases h with h | h | h
    · exact Or.inl h
    · exact Or.inr (Or.inl ⟨h.reference, h.isNumber, h.positive, h.positive', h.amount⟩)
    · exact Or.inr (Or.inr ⟨h.date, h.movement, h.narration⟩)
  · rcases h with h | h | h
    · exact Or.inl h
    · exact Or.inr (Or.inl ⟨h.reference, h.isNumber, h.positive, h.positive', h.amount⟩)
    · exact Or.inr (Or.inr ⟨h.date, h.movement, h.narration⟩)
  · rcases h with h | h | h
    · exact Or.inl h
    · exact Or.inr (Or.inl ⟨h.reference, h.isNumber, h.positive, h.positive', h.amount⟩)
    · exact Or.inr (Or.inr ⟨h.date, h.movement, h.narration⟩)

/-! ## The keys -/

theorem hashKey_eq_some {k : String} (h : hashKey t = some k) :
    isExempt t = false ∧ t.hash = k := by
  unfold hashKey at h
  split at h
  · cases h
  · next hexempt => exact ⟨eq_false_of_ne_true hexempt, Option.some.inj h⟩

/-- The key of a row that the second pass looks at. -/
theorem referenceKey_eq_some {k : String} (h : referenceKey t = some k) :
    (isExempt t = false ∧ t.dupFlag = false) ∧ (F64.finite 0).lt (amount t) = true ∧
      looksLikeReferenceNumber (trim t.reference.toList) = true ∧
      k = String.ofList (trim t.reference.toList ++ '|' :: ((amount t).fixed 2).toList) := by
  unfold referenceKey at h
  split at h
  · cases h
  · next hskip =>
    rw [Bool.or_eq_true, not_or, Bool.not_eq_true, Bool.not_eq_true] at hskip
    dsimp only at h
    split at h
    · next hkey =>
      rw [Bool.and_eq_true, Bool.and_eq_true] at hkey
      exact ⟨hskip, hkey.1.2, hkey.2, (Option.some.inj h).symm⟩
    · cases h

theorem referenceKey_of (h : SameReference t t') (ht : isExempt t = false) (hd : t.dupFlag = false)
    (ht' : isExempt t' = false) (hd' : t'.dupFlag = false) :
    ∃ k, referenceKey t = some k ∧ referenceKey t' = some k := by
  have hne : (trim t.reference.toList).isEmpty = false := by
    rw [← Bool.not_eq_true, List.isEmpty_iff]
    intro hnil
    have hnumber := h.isNumber
    rw [hnil] at hnumber
    exact absurd hnumber (by decide)
  refine ⟨String.ofList (trim t.reference.toList ++ '|' :: ((amount t).fixed 2).toList), ?_, ?_⟩
  · simp [referenceKey, ht, hd, hne, h.positive, h.isNumber]
  · have hnumber := h.isNumber
    rw [h.reference] at hne hnumber
    simp [referenceKey, ht', hd', hne, h.positive', hnumber, h.reference, h.amount]

theorem sameReference_of {k : String} (h : referenceKey t = some k)
    (h' : referenceKey t' = some k) : SameReference t t' := by
  obtain ⟨-, hpos, hnumber, rfl⟩ := referenceKey_eq_some h
  obtain ⟨-, hpos', -, hkey⟩ := referenceKey_eq_some h'
  have hlist := String.ofList_injective hkey
  obtain ⟨href, hamt⟩ := (append_cons_inj_of_notMem_right (F64.bar_not_mem_fixed 2 _)
    (F64.bar_not_mem_fixed 2 _)).mp hlist
  exact ⟨href, hnumber, hpos, hpos', String.toList_inj.mp hamt⟩

theorem bucketKey_eq_some {k : String × String × Bool} (h : bucketKey t = some k) :
    (isExempt t = false ∧ t.dupFlag = false) ∧
      ∃ amt isDebit, movement t = some (amt, isDebit) ∧ k = (t.date, amt.fixed 2, isDebit) := by
  unfold bucketKey at h
  split at h
  · cases h
  · next hskip =>
    rw [Bool.or_eq_true, not_or, Bool.not_eq_true, Bool.not_eq_true] at hskip
    obtain ⟨⟨amt, isDebit⟩, hmovement, rfl⟩ := Option.map_eq_some_iff.mp h
    exact ⟨hskip, amt, isDebit, hmovement, rfl⟩

theorem bucketKey_of (h : Similar u isNumeric fl t t') (ht : isExempt t = false)
    (hd : t.dupFlag = false) (ht' : isExempt t' = false) (hd' : t'.dupFlag = false) :
    ∃ k, bucketKey t = some k ∧ bucketKey t' = some k := by
  obtain ⟨amt, amt', isDebit, hmovement, hmovement', hamt⟩ := h.movement
  refine ⟨(t.date, amt.fixed 2, isDebit), ?_, ?_⟩
  · simp [bucketKey, ht, hd, hmovement]
  · simp [bucketKey, ht', hd', hmovement', h.date, hamt]

theorem similar_of {k : String × String × Bool} (h : bucketKey t = some k)
    (h' : bucketKey t' = some k) (hsim : isSimilar u isNumeric fl t t' = true) :
    Similar u isNumeric fl t t' := by
  obtain ⟨-, amt, isDebit, hmovement, rfl⟩ := bucketKey_eq_some h
  obtain ⟨-, amt', isDebit', hmovement', hkey⟩ := bucketKey_eq_some h'
  simp only [Prod.mk.injEq] at hkey
  obtain ⟨hdate, hamt, rfl⟩ := hkey
  exact ⟨hdate, ⟨amt, amt', isDebit, hmovement, hmovement', hamt⟩, hsim⟩

/-! ## The buckets -/

variable {txns : List Transaction} {group : List ℕ} {i j : ℕ}

theorem mem_buckets : group ∈ buckets txns ↔
    ∃ k, some k ∈ txns.map bucketKey ∧
      group = (List.range txns.length).filter fun i => (txns.map bucketKey)[i]? = some (some k) := by
  rw [buckets, List.mem_map]
  simp only [List.mem_dedup, List.reduceOption_mem_iff]
  exact exists_congr fun k => and_congr_right fun _ => eq_comm

theorem nodup_of_mem_buckets (h : group ∈ buckets txns) : group.Nodup := by
  obtain ⟨k, -, rfl⟩ := mem_buckets.mp h
  exact List.nodup_range.filter _

theorem lt_of_mem_buckets (h : group ∈ buckets txns) (hi : i ∈ group) : i < txns.length := by
  obtain ⟨k, -, rfl⟩ := mem_buckets.mp h
  exact List.mem_range.mp (List.mem_filter.mp hi).1

theorem pairwise_buckets (txns : List Transaction) : (buckets txns).Pairwise List.Disjoint := by
  rw [buckets, List.pairwise_map]
  refine (List.nodup_dedup _).imp fun {k k'} hne i hi hi' => hne ?_
  have hk := of_decide_eq_true (List.mem_filter.mp hi).2
  have hk' := of_decide_eq_true (List.mem_filter.mp hi').2
  exact Option.some.inj (Option.some.inj (hk.symm.trans hk'))

theorem bucketKey_of_mem (h : group ∈ buckets txns) (hi : i ∈ group) :
    ∃ k x, txns[i]? = some x ∧ bucketKey x = some k := by
  obtain ⟨k, -, rfl⟩ := mem_buckets.mp h
  have hk := of_decide_eq_true (List.mem_filter.mp hi).2
  rw [List.getElem?_map] at hk
  exact ⟨k, Option.map_eq_some_iff.mp hk⟩

/-- The rows of a bucket have one key. -/
theorem bucketKey_of_pair (h : group ∈ buckets txns) (hij : [i, j].Sublist group) :
    ∃ k x y, i < j ∧ txns[i]? = some x ∧ txns[j]? = some y ∧ bucketKey x = some k ∧
      bucketKey y = some k := by
  obtain ⟨k, -, rfl⟩ := mem_buckets.mp h
  have hlt : i < j := by
    have hsorted := (List.pairwise_lt_range (n := txns.length)).sublist
      (hij.trans (List.filter_sublist))
    simpa using hsorted
  have hkey : ∀ m ∈ [i, j], ∃ x, txns[m]? = some x ∧ bucketKey x = some k := by
    intro m hm
    have hk := of_decide_eq_true (List.mem_filter.mp (hij.subset hm)).2
    rw [List.getElem?_map] at hk
    exact Option.map_eq_some_iff.mp hk
  obtain ⟨x, hx, hkx⟩ := hkey i (by simp)
  obtain ⟨y, hy, hky⟩ := hkey j (by simp)
  exact ⟨k, x, y, hlt, hx, hy, hkx, hky⟩

/-- Two rows with one key are in one bucket, in their order. -/
theorem exists_bucket {k : String × String × Bool} {x y : Transaction} (hij : i < j)
    (hx : txns[i]? = some x) (hy : txns[j]? = some y) (hkx : bucketKey x = some k)
    (hky : bucketKey y = some k) : ∃ group ∈ buckets txns, [i, j].Sublist group := by
  refine ⟨_, mem_buckets.mpr ⟨k, ?_, rfl⟩, ?_⟩
  · exact List.mem_map.mpr ⟨x, List.mem_of_getElem? hx, hkx⟩
  · have hlt : j < txns.length := (List.getElem?_eq_some_iff.mp hy).1
    have hpair : [i, j].Sublist (List.range txns.length) := by
      have hupto : [i, j].Sublist (List.range (j + 1)) := by
        rw [List.range_succ]
        exact (List.singleton_sublist.mpr (List.mem_range.mpr hij)).append_right [j]
      exact hupto.trans (List.range_sublist.mpr hlt)
    have hfilter := hpair.filter fun i => decide ((txns.map bucketKey)[i]? = some (some k))
    rwa [List.filter_cons_of_pos (by simp [hx, hkx]), List.filter_cons_of_pos (by simp [hy, hky]),
      List.filter_nil] at hfilter

/-! ## The three passes -/

variable {o o' : HashOrder (List ℕ)} {x y : Transaction}

theorem flagSameHash_eq (txns : List Transaction) :
    flagSameHash txns = markAt flag (isRepeat [] (txns.map hashKey)) txns := markRepeats_eq [] txns

theorem flagSameReference_eq (txns : List Transaction) :
    flagSameReference txns = markAt flag (isRepeat [] (txns.map referenceKey)) txns :=
  markRepeats_eq [] txns

/-- A group of less than two rows marks nothing. -/
theorem markGroup_short {alike : Transaction → Transaction → Bool} (h : group.length < 2) :
    markGroup alike Transaction.dupFlag flag group txns = txns := by
  rcases group with _ | ⟨a, _ | ⟨b, group⟩⟩
  · rfl
  · rw [markGroup, markGroup]
    split <;> rfl
  · simp only [List.length_cons] at h
    omega

theorem flagSimilar_eq (o : HashOrder (List ℕ)) (txns : List Transaction) :
    flagSimilar u isNumeric fl o txns =
      render Transaction.dupFlag flag
        (sweepAll (alikeAt (isSimilar u isNumeric fl) txns) (buckets txns)
          (isMarkedAt Transaction.dupFlag txns)) txns := by
  have hstep : (fun txns (idxs : List ℕ) => if idxs.length < 2 then txns
      else markGroup (isSimilar u isNumeric fl) Transaction.dupFlag flag idxs txns) =
      fun txns idxs => markGroup (isSimilar u isNumeric fl) Transaction.dupFlag flag idxs txns := by
    funext txns idxs
    split
    · next hshort => rw [markGroup_short hshort]
    · rfl
  have hrun : (o.order (buckets txns)).foldl (fun txns idxs =>
      markGroup (isSimilar u isNumeric fl) Transaction.dupFlag flag idxs txns)
        (render Transaction.dupFlag flag (isMarkedAt Transaction.dupFlag txns) txns) = _ :=
    foldl_markGroup_render dupFlag_flag (fun _ hi => hi)
      (fun group hgroup => nodup_of_mem_buckets (o.mem_order.mp hgroup))
      fun group hgroup i hi => lt_of_mem_buckets (o.mem_order.mp hgroup) hi
  rw [render_isMarkedAt, sweepAll_perm (pairwise_buckets txns) (o.perm _)] at hrun
  rw [flagSimilar, hstep]
  exact hrun

theorem marks_flagSameHash (txns : List Transaction) : Marks flag txns (flagSameHash txns) := by
  rw [flagSameHash_eq]
  exact marks_markAt

theorem marks_flagSameReference (txns : List Transaction) :
    Marks flag txns (flagSameReference txns) := by
  rw [flagSameReference_eq]
  exact marks_markAt

theorem marks_flagSimilar (o : HashOrder (List ℕ)) (txns : List Transaction) :
    Marks flag txns (flagSimilar u isNumeric fl o txns) := by
  rw [flagSimilar_eq]
  exact marks_markAt

/-- A row that is not flagged is the one that was there. -/
theorem getElem?_of_not_flagged {txns' : List Transaction} (h : Marks flag txns txns')
    (hy : txns'[i]? = some y) (hd : y.dupFlag = false) : txns[i]? = some y := by
  obtain ⟨x, hx, rfl | rfl⟩ := h.getElem? hy
  · exact hx
  · cases hd

/-- A row that a pass flags carries the flag to the end. -/
theorem eq_flag_of_marks {txns' : List Transaction} (h : Marks flag txns txns')
    (hx : txns[i]? = some (flag x)) (hy : txns'[i]? = some y) : y = flag x := by
  obtain ⟨x', hx', hy⟩ := h.getElem? hy
  obtain rfl := Option.some.inj (hx.symm.trans hx')
  rcases hy with rfl | rfl
  · rfl
  · exact flag_flag x

theorem marks_detectDuplicates_of_sameReference (o : HashOrder (List ℕ)) (txns : List Transaction) :
    Marks flag (flagSameReference (flagSameHash txns)) (detectDuplicates u isNumeric fl o txns) :=
  marks_flagSimilar o _

theorem marks_detectDuplicates_of_sameHash (o : HashOrder (List ℕ)) (txns : List Transaction) :
    Marks flag (flagSameHash txns) (detectDuplicates u isNumeric fl o txns) :=
  (marks_flagSameReference _).trans flag_flag (marks_detectDuplicates_of_sameReference o txns)

theorem marks_detectDuplicates (o : HashOrder (List ℕ)) (txns : List Transaction) :
    Marks flag txns (detectDuplicates u isNumeric fl o txns) :=
  (marks_flagSameHash txns).trans flag_flag (marks_detectDuplicates_of_sameHash o txns)

/-! ## No pair is left -/

/-- The later one of two rows with one hash is flagged. -/
theorem flag_eq_self_of_sameHash {k : String} (hij : i < j)
    (hx : (detectDuplicates u isNumeric fl o txns)[i]? = some x)
    (hy : (detectDuplicates u isNumeric fl o txns)[j]? = some y)
    (hkx : hashKey x = some k) (hky : hashKey y = some k) : flag y = y := by
  have hkeys : (detectDuplicates u isNumeric fl o txns).map hashKey = txns.map hashKey :=
    (marks_detectDuplicates o txns).map_eq hashKey_flag
  have hrepeat : isRepeat [] (txns.map hashKey) j = true := by
    rw [← hkeys, isRepeat_iff]
    exact ⟨k, i, by rw [List.getElem?_map, hy, Option.map_some, hky], hij,
      by rw [List.getElem?_map, hx, Option.map_some, hkx]⟩
  obtain ⟨y', hy', -⟩ := (marks_detectDuplicates_of_sameHash o txns).getElem? hy
  have hfirst := hy'
  rw [flagSameHash_eq, getElem?_markAt, hrepeat] at hfirst
  obtain ⟨z, -, rfl⟩ := Option.map_eq_some_iff.mp hfirst
  rw [if_pos rfl] at hy'
  rw [eq_flag_of_marks (marks_detectDuplicates_of_sameHash o txns) hy' hy, flag_flag]

/-- No two rows are left for the second pass. -/
theorem referenceKey_ne {k : String} (hij : i < j)
    (hx : (detectDuplicates u isNumeric fl o txns)[i]? = some x)
    (hy : (detectDuplicates u isNumeric fl o txns)[j]? = some y)
    (hkx : referenceKey x = some k) : referenceKey y ≠ some k := by
  intro hky
  have hdx := (referenceKey_eq_some hkx).1.2
  have hdy := (referenceKey_eq_some hky).1.2
  have hx' := getElem?_of_not_flagged (marks_detectDuplicates_of_sameHash o txns) hx hdx
  have hy' := getElem?_of_not_flagged (marks_detectDuplicates_of_sameHash o txns) hy hdy
  have hrepeat : isRepeat [] ((flagSameHash txns).map referenceKey) j = true :=
    isRepeat_iff.mpr ⟨k, i, by rw [List.getElem?_map, hy', Option.map_some, hky], hij,
      by rw [List.getElem?_map, hx', Option.map_some, hkx]⟩
  have hsecond := getElem?_of_not_flagged (marks_detectDuplicates_of_sameReference o txns) hy hdy
  rw [flagSameReference_eq, getElem?_markAt, hrepeat, hy', Option.map_some, if_pos rfl] at hsecond
  exact flag_ne hdy (Option.some.inj hsecond).symm

/-- No two rows of one bucket are left that are alike. -/
theorem not_isSimilar {k : String × String × Bool} (hij : i < j)
    (hx : (detectDuplicates u isNumeric fl o txns)[i]? = some x)
    (hy : (detectDuplicates u isNumeric fl o txns)[j]? = some y)
    (hkx : bucketKey x = some k) (hky : bucketKey y = some k) :
    isSimilar u isNumeric fl x y = false := by
  have hdx := (bucketKey_eq_some hkx).1.2
  have hdy := (bucketKey_eq_some hky).1.2
  have hx' := getElem?_of_not_flagged (marks_detectDuplicates_of_sameReference o txns) hx hdx
  have hy' := getElem?_of_not_flagged (marks_detectDuplicates_of_sameReference o txns) hy hdy
  rw [← Bool.not_eq_true]
  intro hsim
  rw [detectDuplicates, flagSimilar_eq] at hx hy
  generalize flagSameReference (flagSameHash txns) = rows at hx hy hx' hy'
  obtain ⟨group, hgroup, hpair⟩ := exists_bucket hij hx' hy' hkx hky
  -- the earlier row is not marked, so it marks the later one
  have hfree : ∀ {m : ℕ} {z : Transaction}, z.dupFlag = false → rows[m]? = some z →
      (render Transaction.dupFlag flag (sweepAll (alikeAt (isSimilar u isNumeric fl) rows)
        (buckets rows) (isMarkedAt Transaction.dupFlag rows)) rows)[m]? = some z →
      sweepAll (alikeAt (isSimilar u isNumeric fl) rows) (buckets rows)
        (isMarkedAt Transaction.dupFlag rows) m = false := by
    intro m z hd hz hfinal
    rw [getElem?_render, hz, Option.map_some, hd, Bool.not_false, Bool.and_true,
      Option.some.injEq] at hfinal
    rw [← Bool.not_eq_true]
    intro hmarked
    rw [if_pos hmarked] at hfinal
    exact flag_ne hd hfinal.symm
  have hi := hfree hdx hx' hx
  have hj := hfree hdy hy' hy
  rw [sweepAll_of_mem (pairwise_buckets rows) hgroup (hpair.subset (by simp))] at hi hj
  have hmarked := (sweep_iff (nodup_of_mem_buckets hgroup)).mpr
    (Or.inr ⟨i, hpair, by rw [alikeAt, hx', Option.any_some, hy', Option.any_some, hsim], hi⟩)
  rw [hj] at hmarked
  cases hmarked

/-! ## A second look -/

theorem flagSameHash_detectDuplicates (o : HashOrder (List ℕ)) (txns : List Transaction) :
    flagSameHash (detectDuplicates u isNumeric fl o txns) =
      detectDuplicates u isNumeric fl o txns := by
  rw [flagSameHash_eq]
  refine markAt_eq_self fun j y hy hrepeat => ?_
  obtain ⟨k, i, hkj, hij, hki⟩ := isRepeat_iff.mp hrepeat
  rw [List.getElem?_map] at hkj hki
  obtain ⟨x, hx, hkx⟩ := Option.map_eq_some_iff.mp hki
  rw [hy, Option.map_some, Option.some.injEq] at hkj
  exact flag_eq_self_of_sameHash hij hx hy hkx hkj

theorem flagSameReference_detectDuplicates (o : HashOrder (List ℕ)) (txns : List Transaction) :
    flagSameReference (detectDuplicates u isNumeric fl o txns) =
      detectDuplicates u isNumeric fl o txns := by
  rw [flagSameReference_eq]
  refine markAt_eq_self fun j y hy hrepeat => ?_
  obtain ⟨k, i, hkj, hij, hki⟩ := isRepeat_iff.mp hrepeat
  rw [List.getElem?_map] at hkj hki
  obtain ⟨x, hx, hkx⟩ := Option.map_eq_some_iff.mp hki
  rw [hy, Option.map_some, Option.some.injEq] at hkj
  exact absurd hkj (referenceKey_ne hij hx hy hkx)

theorem flagSimilar_detectDuplicates (o o' : HashOrder (List ℕ)) (txns : List Transaction) :
    flagSimilar u isNumeric fl o' (detectDuplicates u isNumeric fl o txns) =
      detectDuplicates u isNumeric fl o txns := by
  rw [flagSimilar_eq]
  refine markAt_eq_self fun j y hy hhit => ?_
  rw [Bool.and_eq_true, Bool.not_eq_true'] at hhit
  obtain ⟨hswept, hfree⟩ := hhit
  generalize hrows : detectDuplicates u isNumeric fl o txns = rows at hy hswept hfree
  by_cases hmem : ∃ group ∈ buckets rows, j ∈ group
  · obtain ⟨group, hgroup, hj⟩ := hmem
    rw [sweepAll_of_mem (pairwise_buckets rows) hgroup hj,
      sweep_iff (nodup_of_mem_buckets hgroup), hfree] at hswept
    obtain ⟨i, hpair, halike, -⟩ := hswept.resolve_left Bool.false_ne_true
    obtain ⟨k, x, y', hij, hx, hy', hkx, hky⟩ := bucketKey_of_pair hgroup hpair
    obtain rfl := Option.some.inj (hy.symm.trans hy')
    rw [alikeAt, hx, Option.any_some, hy, Option.any_some] at halike
    subst hrows
    rw [not_isSimilar hij hx hy hkx hky] at halike
    cases halike
  · rw [sweepAll_of_not_mem fun group hgroup hj => hmem ⟨group, hgroup, hj⟩, hfree] at hswept
    cases hswept

theorem detectDuplicates_detectDuplicates (o o' : HashOrder (List ℕ)) (txns : List Transaction) :
    detectDuplicates u isNumeric fl o' (detectDuplicates u isNumeric fl o txns) =
      detectDuplicates u isNumeric fl o txns := by
  conv_lhs => rw [detectDuplicates, flagSameHash_detectDuplicates,
    flagSameReference_detectDuplicates, flagSimilar_detectDuplicates]

/-- The order of the buckets does not show. -/
theorem detectDuplicates_order (o o' : HashOrder (List ℕ)) (txns : List Transaction) :
    detectDuplicates u isNumeric fl o txns = detectDuplicates u isNumeric fl o' txns := by
  rw [detectDuplicates, detectDuplicates, flagSimilar_eq, flagSimilar_eq]

/-! ## Every flag has its reason -/

/-- A pass over keys flags a row for an earlier one. -/
theorem exists_of_markRepeats {key : Transaction → Option String} {rows : List Transaction}
    (hy : (markAt flag (isRepeat [] (rows.map key)) rows)[j]? = some y)
    (hd : y.dupFlag = true) :
    ∃ z, rows[j]? = some z ∧ (z.dupFlag = true ∨
      ∃ i x k, i < j ∧ rows[i]? = some x ∧ key x = some k ∧ key z = some k) := by
  rw [getElem?_markAt] at hy
  obtain ⟨z, hz, rfl⟩ := Option.map_eq_some_iff.mp hy
  refine ⟨z, hz, ?_⟩
  split at hd
  · next hrepeat =>
    right
    obtain ⟨k, i, hkj, hij, hki⟩ := isRepeat_iff.mp hrepeat
    rw [List.getElem?_map] at hkj hki
    obtain ⟨x, hx, hkx⟩ := Option.map_eq_some_iff.mp hki
    rw [hz, Option.map_some, Option.some.injEq] at hkj
    exact ⟨i, x, k, hij, hx, hkx, hkj⟩
  · exact Or.inl hd

theorem exists_of_flagSimilar {rows : List Transaction}
    (hy : (flagSimilar u isNumeric fl o rows)[j]? = some y) (hd : y.dupFlag = true) :
    ∃ z, rows[j]? = some z ∧ (z.dupFlag = true ∨
      ∃ i x, i < j ∧ rows[i]? = some x ∧ isExempt x = false ∧ Similar u isNumeric fl x z) := by
  rw [flagSimilar_eq, getElem?_render] at hy
  obtain ⟨z, hz, rfl⟩ := Option.map_eq_some_iff.mp hy
  refine ⟨z, hz, ?_⟩
  split at hd
  · next hhit =>
    right
    rw [Bool.and_eq_true, Bool.not_eq_true'] at hhit
    obtain ⟨hswept, hfree⟩ := hhit
    have hunmarked : isMarkedAt Transaction.dupFlag rows j = false := by
      rw [isMarkedAt, hz, Option.any_some, hfree]
    by_cases hmem : ∃ group ∈ buckets rows, j ∈ group
    · obtain ⟨group, hgroup, hj⟩ := hmem
      rw [sweepAll_of_mem (pairwise_buckets rows) hgroup hj,
        sweep_iff (nodup_of_mem_buckets hgroup), hunmarked] at hswept
      obtain ⟨i, hpair, halike, -⟩ := hswept.resolve_left Bool.false_ne_true
      obtain ⟨k, x, z', hij, hx, hz', hkx, hkz⟩ := bucketKey_of_pair hgroup hpair
      obtain rfl := Option.some.inj (hz.symm.trans hz')
      rw [alikeAt, hx, Option.any_some, hz, Option.any_some] at halike
      exact ⟨i, x, hij, hx, (bucketKey_eq_some hkx).1.1, similar_of hkx hkz halike⟩
    · rw [sweepAll_of_not_mem fun group hgroup hj => hmem ⟨group, hgroup, hj⟩, hunmarked] at hswept
      cases hswept
  · exact Or.inl hd

/-- The earlier row is one of the list, with or without its flag. -/
theorem exists_related {rows : List Transaction} {z : Transaction} (hrows : Marks flag txns rows)
    (hz : rows[j]? = some z) (hij : i < j) (hx : rows[i]? = some x) (hexempt : isExempt x = false)
    (h : Related u isNumeric fl x z) :
    ∃ i x z, i < j ∧ txns[i]? = some x ∧ txns[j]? = some z ∧ isExempt x = false ∧
      Related u isNumeric fl x z := by
  obtain ⟨x', hx', hxx⟩ := hrows.getElem? hx
  obtain ⟨z', hz', hzz⟩ := hrows.getElem? hz
  refine ⟨i, x', z', hij, hx', hz', ?_, related_of_marked hxx hzz h⟩
  rcases hxx with rfl | rfl
  · exact hexempt
  · exact hexempt

theorem related_of_flagged (hnone : ∀ t ∈ txns, t.dupFlag = false)
    (hy : (detectDuplicates u isNumeric fl o txns)[j]? = some y) (hd : y.dupFlag = true) :
    ∃ i x z, i < j ∧ txns[i]? = some x ∧ txns[j]? = some z ∧ isExempt x = false ∧
      Related u isNumeric fl x z := by
  obtain ⟨y₂, hy₂, hd₂ | ⟨i, x, hij, hx, hexempt, hsimilar⟩⟩ := exists_of_flagSimilar hy hd
  · have hkeys₂ := hy₂
    rw [flagSameReference_eq] at hkeys₂
    obtain ⟨y₁, hy₁, hd₁ | ⟨i, x, k, hij, hx, hkx, hky⟩⟩ := exists_of_markRepeats hkeys₂ hd₂
    · have hkeys₁ := hy₁
      rw [flagSameHash_eq] at hkeys₁
      obtain ⟨y₀, hy₀, hd₀ | ⟨i, x, k, hij, hx, hkx, hky⟩⟩ := exists_of_markRepeats hkeys₁ hd₁
      · rw [hnone y₀ (List.mem_of_getElem? hy₀)] at hd₀
        cases hd₀
      · obtain ⟨hexempt, hhash⟩ := hashKey_eq_some hkx
        exact ⟨i, x, y₀, hij, hx, hy₀, hexempt,
          Or.inl (hhash.trans (hashKey_eq_some hky).2.symm)⟩
    · exact exists_related (marks_flagSameHash txns) hy₁ hij hx (referenceKey_eq_some hkx).1.1
        (Or.inr (Or.inl (sameReference_of hkx hky)))
  · exact exists_related ((marks_flagSameHash txns).trans flag_flag (marks_flagSameReference _)) hy₂
      hij hx hexempt (Or.inr (Or.inr hsimilar))

/-! ## Rows that are never flagged -/

theorem getElem?_markRepeats_exempt {key : Transaction → Option String}
    (hkey : ∀ t, isExempt t = true → key t = none) {rows : List Transaction}
    (hx : rows[j]? = some x) (hexempt : isExempt x = true) :
    (markAt flag (isRepeat [] (rows.map key)) rows)[j]? = some x := by
  have hfirst : isRepeat [] (rows.map key) j = false := by
    rw [← Bool.not_eq_true, isRepeat_iff]
    rintro ⟨k, i, hk, -⟩
    rw [List.getElem?_map, hx, Option.map_some, hkey x hexempt, Option.some.injEq] at hk
    cases hk
  rw [getElem?_markAt, hx, Option.map_some, hfirst, if_neg Bool.false_ne_true]

/-- An opening balance or a row added by hand stays as it is. -/
theorem getElem?_detectDuplicates_exempt (hx : txns[j]? = some x) (hexempt : isExempt x = true) :
    (detectDuplicates u isNumeric fl o txns)[j]? = some x := by
  have hhash : ∀ t, isExempt t = true → hashKey t = none := fun t ht => if_pos ht
  have href : ∀ t, isExempt t = true → referenceKey t = none := fun t ht => by
    rw [referenceKey, ht, Bool.true_or, if_pos rfl]
  have hbucket : bucketKey x = none := by rw [bucketKey, hexempt, Bool.true_or, if_pos rfl]
  have hx₁ := getElem?_markRepeats_exempt hhash hx hexempt
  rw [← flagSameHash_eq] at hx₁
  have hx₂ := getElem?_markRepeats_exempt href hx₁ hexempt
  rw [← flagSameReference_eq] at hx₂
  rw [detectDuplicates, flagSimilar_eq]
  generalize flagSameReference (flagSameHash txns) = rows at hx₂
  have hnone : ∀ group ∈ buckets rows, j ∉ group := by
    intro group hgroup hj
    obtain ⟨k, y, hy, hk⟩ := bucketKey_of_mem hgroup hj
    obtain rfl := Option.some.inj (hx₂.symm.trans hy)
    rw [hbucket] at hk
    cases hk
  rw [getElem?_render, hx₂, Option.map_some, sweepAll_of_not_mem hnone, isMarkedAt, hx₂,
    Option.any_some, Bool.and_not_self, if_neg Bool.false_ne_true]

/-! ## What is found -/

theorem nodup_tokens (s : String) : (tokens u isNumeric s).Nodup := List.nodup_dedup _

theorem narrSimilarity_comm (a b : String) :
    narrSimilarity u isNumeric fl a b = narrSimilarity u isNumeric fl b a := by
  have hcommon : (tokens u isNumeric a).countP (tokens u isNumeric b).contains =
      (tokens u isNumeric b).countP (tokens u isNumeric a).contains := by
    rw [List.countP_eq_length_filter, List.countP_eq_length_filter]
    refine List.Perm.length_eq ((List.perm_ext_iff_of_nodup ((nodup_tokens a).filter _)
      ((nodup_tokens b).filter _)).mpr fun word => ?_)
    rw [List.mem_filter, List.mem_filter, List.contains_iff_mem, List.contains_iff_mem, and_comm]
  simp only [narrSimilarity]
  rw [Bool.or_comm, hcommon, max_comm]

theorem Related.symm (h : Related u isNumeric fl x y) : Related u isNumeric fl y x := by
  rcases h with h | h | h
  · exact Or.inl (Eq.symm h)
  · exact Or.inr (Or.inl ⟨h.reference.symm, h.reference ▸ h.isNumber, h.positive', h.positive,
      h.amount.symm⟩)
  · obtain ⟨amt, amt', isDebit, hx, hy, hamt⟩ := h.movement
    exact Or.inr (Or.inr ⟨h.date.symm, ⟨amt', amt, isDebit, hy, hx, hamt.symm⟩,
      narrSimilarity_comm x.narration y.narration ▸ h.narration⟩)

end

/-- The rows of `found` are those of `txns`, each flagged for an earlier one, and no two are left
that call for a flag. -/
structure FoundIn (u : Unicode) (isNumeric : Char → Bool) (fl : F64 → F64)
    (txns found : List Transaction) : Prop where
  rows : Marks flag txns found
  sound : ∀ (j : ℕ) (y : Transaction), found[j]? = some y → y.dupFlag = true →
    ∃ i x z, i < j ∧ txns[i]? = some x ∧ txns[j]? = some z ∧ Related u isNumeric fl x z
  complete : ∀ (i j : ℕ) (x y : Transaction), i ≠ j → found[i]? = some x → found[j]? = some y →
    isExempt x = false → isExempt y = false → x.dupFlag = false → y.dupFlag = false →
      ¬Related u isNumeric fl x y
  exempt : ∀ (j : ℕ) (y : Transaction), found[j]? = some y → isExempt y = true → y.dupFlag = false

theorem not_related {u : Unicode} {isNumeric : Char → Bool} {fl : F64 → F64}
    {txns : List Transaction} {o : HashOrder (List ℕ)} {i j : ℕ} {x y : Transaction} (hij : i < j)
    (hx : (detectDuplicates u isNumeric fl o txns)[i]? = some x)
    (hy : (detectDuplicates u isNumeric fl o txns)[j]? = some y) (hex : isExempt x = false)
    (hey : isExempt y = false) (hdx : x.dupFlag = false) (hdy : y.dupFlag = false) :
    ¬Related u isNumeric fl x y := by
  rintro (hhash | href | hsimilar)
  · have hkx : hashKey x = some x.hash := by rw [hashKey, hex, if_neg Bool.false_ne_true]
    have hky : hashKey y = some x.hash := by
      rw [hashKey, hey, if_neg Bool.false_ne_true, Option.some.injEq]
      exact hhash.symm
    exact flag_ne hdy (flag_eq_self_of_sameHash hij hx hy hkx hky).symm
  · obtain ⟨k, hkx, hky⟩ := referenceKey_of href hex hdx hey hdy
    exact referenceKey_ne hij hx hy hkx hky
  · obtain ⟨k, hkx, hky⟩ := bucketKey_of hsimilar hex hdx hey hdy
    have hnot := not_isSimilar hij hx hy hkx hky
    rw [isSimilar, hsimilar.narration] at hnot
    cases hnot

/--
**A row is flagged only for an earlier one like it, no two rows alike are left, opening balances
and rows added by hand are spared, and a second search changes nothing.** Whatever the order in
which the hash tables list the buckets, the outcome is one.
-/
theorem detectDuplicates_settles (u : Unicode) (isNumeric : Char → Bool) (fl : F64 → F64)
    (o : HashOrder (List ℕ)) (txns : List Transaction) (hnone : ∀ t ∈ txns, t.dupFlag = false) :
    FoundIn u isNumeric fl txns (detectDuplicates u isNumeric fl o txns) ∧
      (∀ o', detectDuplicates u isNumeric fl o' (detectDuplicates u isNumeric fl o txns) =
        detectDuplicates u isNumeric fl o txns) ∧
      ∀ o', detectDuplicates u isNumeric fl o' txns = detectDuplicates u isNumeric fl o txns := by
  refine ⟨⟨marks_detectDuplicates o txns, ?_, ?_, ?_⟩, ?_, ?_⟩
  · intro j y hy hd
    obtain ⟨i, x, z, hij, hx, hz, -, hrelated⟩ := related_of_flagged hnone hy hd
    exact ⟨i, x, z, hij, hx, hz, hrelated⟩
  · intro i j x y hne hx hy hex hey hdx hdy
    rcases Nat.lt_or_gt_of_ne hne with hlt | hgt
    · exact not_related hlt hx hy hex hey hdx hdy
    · exact fun h => not_related hgt hy hx hey hex hdy hdx h.symm
  · intro j y hy hexempt
    obtain ⟨x, hx, hxy⟩ := (marks_detectDuplicates o txns).getElem? hy
    have hsame : isExempt x = true := by
      rcases hxy with rfl | rfl
      · exact hexempt
      · exact hexempt
    have hy' : (detectDuplicates u isNumeric fl o txns)[j]? = some x :=
      getElem?_detectDuplicates_exempt hx hsame
    obtain rfl := Option.some.inj (hy.symm.trans hy')
    exact hnone y (List.mem_of_getElem? hx)
  · exact fun o' => detectDuplicates_detectDuplicates o o' txns
  · exact fun o' => detectDuplicates_order o' o txns

/-! ## Samples -/

def salary (id : String) : Transaction :=
  { Transaction.new id with
    date := "01/01/2024", narration := "SALARY CREDIT", credit := some (.finite 50000) }

theorem detectDuplicates_settles_salary :
    FoundIn .ascii Char.isDigit F64.toDouble [salary "a", salary "b"]
        (detectDuplicates .ascii Char.isDigit F64.toDouble .asMade [salary "a", salary "b"]) ∧
      (∀ o', detectDuplicates .ascii Char.isDigit F64.toDouble o'
          (detectDuplicates .ascii Char.isDigit F64.toDouble .asMade [salary "a", salary "b"]) =
        detectDuplicates .ascii Char.isDigit F64.toDouble .asMade [salary "a", salary "b"]) ∧
      ∀ o', detectDuplicates .ascii Char.isDigit F64.toDouble o' [salary "a", salary "b"] =
        detectDuplicates .ascii Char.isDigit F64.toDouble .asMade [salary "a", salary "b"] :=
  detectDuplicates_settles .ascii Char.isDigit F64.toDouble .asMade [salary "a", salary "b"]
    (by simp [salary, Transaction.new])

/-- A charge that was waived, with the reference of a transfer. -/
def waived (id date : String) : Transaction :=
  { Transaction.new id with
    date := date, narration := "CHARGES WAIVED " ++ date, reference := "UTR12345" }

/-- The two rows share their reference number and their amount, which is none. -/
theorem no_amount_is_no_reason :
    let txns := [waived "a" "01/01/2024", waived "b" "02/01/2024"]
    (detectDuplicates .ascii Char.isDigit F64.toDouble .asMade txns).map Transaction.dupFlag =
        [false, false] ∧
      txns.map (fun t => (t.reference, t.debit, t.credit, amount t, isExempt t)) =
        List.replicate 2 ("UTR12345", none, none, .finite 0, false) ∧
      looksLikeReferenceNumber "UTR12345".toList = true := by
  decide +kernel

end Desktop.Duplicates
