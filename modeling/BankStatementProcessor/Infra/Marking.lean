import Mathlib.Data.List.Nodup

/-!
# Marking what repeats and what is alike

Two loops over rows that mark some of them. One keeps the first row of each key and marks the
others. The other takes the rows of a group in their order, and every row that is not marked marks
the later ones that are alike.
-/

namespace Infra

/-! ## Rows with marks -/

section

variable {α : Type*} {mark : α → α} {hit hit' : ℕ → Bool} {l l' l'' : List α} {i : ℕ}

def markAt (mark : α → α) (hit : ℕ → Bool) (l : List α) : List α :=
  l.mapIdx fun i x => if hit i then mark x else x

theorem getElem?_markAt (i : ℕ) :
    (markAt mark hit l)[i]? = l[i]?.map fun x => if hit i then mark x else x :=
  List.getElem?_mapIdx

theorem length_markAt : (markAt mark hit l).length = l.length := List.length_mapIdx

/-- Some of the rows are marked. -/
def Marks (mark : α → α) (l l' : List α) : Prop :=
  List.Forall₂ (fun x y => y = x ∨ y = mark x) l l'

theorem marks_markAt : Marks mark l (markAt mark hit l) := by
  refine List.forall₂_iff_get.mpr ⟨length_markAt.symm, fun i hi hi' => ?_⟩
  rw [List.get_eq_getElem, List.get_eq_getElem]
  simp only [markAt, List.getElem_mapIdx]
  split
  · exact Or.inr rfl
  · exact Or.inl rfl

theorem Marks.length_eq (h : Marks mark l l') : l.length = l'.length := List.Forall₂.length_eq h

theorem Marks.trans (hmark : ∀ x, mark (mark x) = mark x) (h : Marks mark l l')
    (h' : Marks mark l' l'') : Marks mark l l'' := by
  induction h generalizing l'' with
  | nil => exact h'
  | cons hxy _ ih =>
    cases h' with
    | cons hyz h' =>
      refine .cons ?_ (ih h')
      rcases hxy with rfl | rfl
      · exact hyz
      · rcases hyz with rfl | rfl
        · exact Or.inr rfl
        · exact Or.inr (hmark _)

theorem Marks.getElem? (h : Marks mark l l') {y : α} (hy : l'[i]? = some y) :
    ∃ x, l[i]? = some x ∧ (y = x ∨ y = mark x) := by
  obtain ⟨hi, rfl⟩ := List.getElem?_eq_some_iff.mp hy
  have hi' : i < l.length := h.length_eq ▸ hi
  exact ⟨l[i], List.getElem?_eq_getElem hi', List.Forall₂.get h hi' hi⟩

/-- What the marks leave alone is the same. -/
theorem Marks.map_eq {β : Type*} {f : α → β} (hf : ∀ x, f (mark x) = f x) (h : Marks mark l l') :
    l'.map f = l.map f := by
  induction h with
  | nil => rfl
  | cons hxy _ ih =>
    rw [List.map_cons, List.map_cons, ih]
    rcases hxy with rfl | rfl
    · rfl
    · rw [hf]

/-- Rows that carry their mark already stay as they are. -/
theorem markAt_eq_self (h : ∀ i x, l[i]? = some x → hit i = true → mark x = x) :
    markAt mark hit l = l := by
  refine List.ext_getElem? fun i => ?_
  rw [getElem?_markAt]
  cases hx : l[i]? with
  | none => rfl
  | some x =>
    rw [Option.map_some]
    split
    · next hhit => rw [h i x hx hhit]
    · rfl

end

/-! ## Repeats -/

section

variable {α κ : Type*} [DecidableEq κ] {key : α → Option κ} {mark : α → α} {l : List α}
  {keys : List (Option κ)} {seen : List κ} {i : ℕ} {k : κ}

/-- A row whose key has been seen is marked; one without a key is passed over. -/
def markRepeats (key : α → Option κ) (mark : α → α) : List κ → List α → List α
  | _, [] => []
  | seen, x :: l =>
    match key x with
    | none => x :: markRepeats key mark seen l
    | some k =>
      if k ∈ seen then mark x :: markRepeats key mark seen l
      else x :: markRepeats key mark (k :: seen) l

/-- The key at a place is among those seen, or stands at an earlier place. -/
def isRepeat (seen : List κ) (keys : List (Option κ)) (i : ℕ) : Bool :=
  keys[i]?.join.any fun k => seen.contains k || (keys.take i).contains (some k)

theorem isRepeat_iff :
    isRepeat [] keys i = true ↔
      ∃ k j, keys[i]? = some (some k) ∧ j < i ∧ keys[j]? = some (some k) := by
  simp only [isRepeat, Option.any_eq_true, Option.join_eq_some_iff, List.contains_nil,
    Bool.false_or, List.contains_iff_mem, List.mem_take_iff_getElem, List.getElem?_eq_some_iff]
  constructor
  · rintro ⟨k, hk, j, hj, heq⟩
    exact ⟨k, j, hk, by omega, by omega, heq⟩
  · rintro ⟨k, j, hk, hlt, hj, heq⟩
    exact ⟨k, hk, j, by omega, heq⟩

theorem isRepeat_zero (key : Option κ) :
    isRepeat seen (key :: keys) 0 = key.any seen.contains := by
  cases key <;> simp [isRepeat]

/-- The first key is seen by the others. -/
theorem isRepeat_succ (key : Option κ) :
    isRepeat seen (key :: keys) (i + 1) = isRepeat (key.toList ++ seen) keys i := by
  simp only [isRepeat, List.getElem?_cons_succ, List.take_succ_cons]
  congr 1
  funext k
  rw [Bool.eq_iff_iff]
  cases key with
  | none => simp
  | some k' =>
    simp only [Option.toList_some, List.singleton_append, Bool.or_eq_true, List.contains_iff_mem,
      List.mem_cons, Option.some.injEq]
    exact or_left_comm.trans or_assoc.symm

theorem isRepeat_cons_of_mem (h : k ∈ seen) :
    isRepeat (k :: seen) keys i = isRepeat seen keys i := by
  simp only [isRepeat]
  congr 1
  funext k'
  rw [Bool.eq_iff_iff]
  have hsame : k' ∈ k :: seen ↔ k' ∈ seen := by
    rw [List.mem_cons, or_iff_right_of_imp]
    rintro rfl
    exact h
  simp only [Bool.or_eq_true, List.contains_iff_mem, hsame]

theorem markRepeats_eq (seen : List κ) (l : List α) :
    markRepeats key mark seen l = markAt mark (isRepeat seen (l.map key)) l := by
  induction l generalizing seen with
  | nil => rfl
  | cons x l ih =>
    rw [markAt, List.mapIdx_cons, List.map_cons, isRepeat_zero]
    simp only [isRepeat_succ]
    rw [markRepeats]
    cases hkey : key x with
    | none =>
      rw [Option.any_none, if_neg Bool.false_ne_true]
      exact congrArg _ (ih seen)
    | some k =>
      rw [Option.any_some]
      by_cases hk : k ∈ seen
      · dsimp only
        rw [if_pos hk, if_pos (List.contains_iff_mem.mpr hk), Option.toList_some,
          List.singleton_append]
        simp only [isRepeat_cons_of_mem hk]
        exact congrArg _ (ih seen)
      · dsimp only
        rw [if_neg hk, if_neg (fun h => hk (List.contains_iff_mem.mp h))]
        exact congrArg _ (ih (k :: seen))

end

/-! ## What is alike -/

section

variable {ι : Type*} [DecidableEq ι] {alike : ι → ι → Bool} {group : List ι}
  {groups groups' : List (List ι)} {marked : ι → Bool} {a b : ι}

/-- Who is marked after a group: each member that is not marked marks the later ones like it. -/
def sweep (alike : ι → ι → Bool) : List ι → (ι → Bool) → ι → Bool
  | [], marked => marked
  | a :: group, marked =>
    sweep alike group <|
      if marked a then marked else fun b => marked b || (group.contains b && alike a b)

/-- The groups one after another. -/
def sweepAll (alike : ι → ι → Bool) (groups : List (List ι)) (marked : ι → Bool) : ι → Bool :=
  groups.foldl (fun marked group => sweep alike group marked) marked

theorem sweep_of_not_mem (hb : b ∉ group) : sweep alike group marked b = marked b := by
  induction group generalizing marked with
  | nil => rfl
  | cons a group ih =>
    obtain ⟨-, hb⟩ := not_or.mp (fun h => hb (List.mem_cons.mpr h))
    rw [sweep, ih hb]
    split
    · rfl
    · have hnot : group.contains b = false := by
        rw [← Bool.not_eq_true, List.contains_iff_mem]
        exact hb
      dsimp only
      rw [hnot, Bool.false_and, Bool.or_false]

theorem sweep_of_marked (hb : marked b = true) : sweep alike group marked b = true := by
  induction group generalizing marked with
  | nil => exact hb
  | cons a group ih =>
    rw [sweep]
    refine ih ?_
    split
    · exact hb
    · exact Bool.or_eq_true_iff.mpr (Or.inl hb)

/-- **Who is marked by a group**: those before it, and those after one like it that is not. -/
theorem sweep_iff (h : group.Nodup) :
    sweep alike group marked b = true ↔
      marked b = true ∨
        ∃ a, [a, b].Sublist group ∧ alike a b = true ∧ sweep alike group marked a = false := by
  induction group generalizing marked with
  | nil => simp [sweep]
  | cons c group ih =>
    obtain ⟨hc, h⟩ := List.nodup_cons.mp h
    have hpair : ∀ a, [a, b].Sublist (c :: group) ↔
        [a, b].Sublist group ∨ (a = c ∧ b ∈ group) := by
      intro a
      rw [List.sublist_cons_iff]
      refine or_congr_right ⟨?_, ?_⟩
      · rintro ⟨r, heq, hr⟩
        obtain ⟨rfl, rfl⟩ := List.cons.inj heq
        exact ⟨rfl, List.singleton_sublist.mp hr⟩
      · rintro ⟨rfl, hb⟩
        exact ⟨[b], rfl, List.singleton_sublist.mpr hb⟩
    rw [sweep, ih h]
    generalize hmarked : (if marked c then marked
      else fun b => marked b || (group.contains b && alike c b)) = marked'
    -- nothing after the first member marks it
    have hself : sweep alike group marked' c = marked' c := sweep_of_not_mem hc
    have hfirst : marked' b = true ↔
        marked b = true ∨ (marked c = false ∧ b ∈ group ∧ alike c b = true) := by
      rw [← hmarked]
      cases hcm : marked c <;> simp
    have hc' : marked' c = marked c := by
      rw [← hmarked]
      cases hcm : marked c <;> simp [hc, hcm]
    rw [hc'] at hself
    simp only [hfirst, hpair]
    constructor
    · rintro ((hb | ⟨hcm, hb, halike⟩) | ⟨a, hab, halike, ha⟩)
      · exact Or.inl hb
      · exact Or.inr ⟨c, Or.inr ⟨rfl, hb⟩, halike, hself.trans hcm⟩
      · exact Or.inr ⟨a, Or.inl hab, halike, ha⟩
    · rintro (hb | ⟨a, hab | ⟨rfl, hb⟩, halike, ha⟩)
      · exact Or.inl (Or.inl hb)
      · exact Or.inr ⟨a, hab, halike, ha⟩
      · exact Or.inl (Or.inr ⟨hself.symm.trans ha, hb, halike⟩)

/-- Only the marks of its members count for a group. -/
theorem sweep_congr {marked' : ι → Bool} (h : ∀ a ∈ group, marked a = marked' a) (hb : b ∈ group) :
    sweep alike group marked b = sweep alike group marked' b := by
  induction group generalizing marked marked' with
  | nil => cases hb
  | cons c group ih =>
    obtain ⟨hc, h⟩ := List.forall_mem_cons.mp h
    rw [sweep, sweep, hc]
    by_cases hmem : b ∈ group
    · refine ih (fun a ha => ?_) hmem
      split
      · exact h a ha
      · dsimp only
        rw [h a ha]
    · rw [sweep_of_not_mem hmem, sweep_of_not_mem hmem]
      obtain rfl := (List.mem_cons.mp hb).resolve_right hmem
      split
      · exact hc
      · dsimp only
        rw [hc]

theorem sweepAll_of_not_mem (h : ∀ group ∈ groups, b ∉ group) :
    sweepAll alike groups marked b = marked b := by
  induction groups generalizing marked with
  | nil => rfl
  | cons group groups ih =>
    obtain ⟨hb, h⟩ := List.forall_mem_cons.mp h
    exact (ih h).trans (sweep_of_not_mem hb)

/-- Groups without a common member do not meet. -/
theorem sweepAll_of_mem (hdisjoint : groups.Pairwise List.Disjoint) (hgroup : group ∈ groups)
    (hb : b ∈ group) : sweepAll alike groups marked b = sweep alike group marked b := by
  induction groups generalizing marked with
  | nil => cases hgroup
  | cons first groups ih =>
    obtain ⟨hfirst, hdisjoint⟩ := List.pairwise_cons.mp hdisjoint
    rcases List.mem_cons.mp hgroup with rfl | hgroup
    · exact sweepAll_of_not_mem fun other hother => hfirst other hother hb
    · refine (ih hdisjoint hgroup).trans (sweep_congr (fun a ha => ?_) hb)
      exact sweep_of_not_mem fun hmem => hfirst group hgroup hmem ha

/-- The groups may come in any order. -/
theorem sweepAll_perm (hdisjoint : groups.Pairwise List.Disjoint) (h : groups'.Perm groups) :
    sweepAll alike groups' marked = sweepAll alike groups marked := by
  have hdisjoint' : groups'.Pairwise List.Disjoint :=
    (h.pairwise_iff List.disjoint_symm).mpr hdisjoint
  funext b
  by_cases hmem : ∃ group ∈ groups, b ∈ group
  · obtain ⟨group, hgroup, hb⟩ := hmem
    rw [sweepAll_of_mem hdisjoint hgroup hb,
      sweepAll_of_mem hdisjoint' (h.mem_iff.mpr hgroup) hb]
  · have hnone : ∀ group ∈ groups, b ∉ group := fun group hgroup hb => hmem ⟨group, hgroup, hb⟩
    rw [sweepAll_of_not_mem hnone,
      sweepAll_of_not_mem fun group hgroup => hnone group (h.mem_iff.mp hgroup)]

end

/-! ## The loop over rows -/

section

variable {α : Type*} {alike : α → α → Bool} {marked : α → Bool} {mark : α → α} {l : List α}
  {taken : ℕ → Bool} {group : List ℕ} {a : ℕ}

/-- The row at a place is marked. -/
def isMarkedAt (marked : α → Bool) (l : List α) (i : ℕ) : Bool := l[i]?.any marked

/-- The rows at two places are alike. -/
def alikeAt (alike : α → α → Bool) (l : List α) (i j : ℕ) : Bool :=
  l[i]?.any fun x => l[j]?.any (alike x)

/-- The row at `a` marks the later ones of its group. -/
def markLater (alike : α → α → Bool) (marked : α → Bool) (mark : α → α) (a : ℕ) (rest : List ℕ)
    (l : List α) : List α :=
  rest.foldl (fun l b =>
    if isMarkedAt marked l b then l
    else if alikeAt alike l a b then l.modify b mark
    else l) l

/-- The rows of a group, one after another. -/
def markGroup (alike : α → α → Bool) (marked : α → Bool) (mark : α → α) :
    List ℕ → List α → List α
  | [], l => l
  | a :: rest, l =>
    markGroup alike marked mark rest <|
      if isMarkedAt marked l a then l else markLater alike marked mark a rest l

/-- The rows with the marks of the places that are taken. -/
def render (marked : α → Bool) (mark : α → α) (taken : ℕ → Bool) (l : List α) : List α :=
  markAt mark (fun i => taken i && !isMarkedAt marked l i) l

/-- Every row that is marked is taken. -/
def Covers (marked : α → Bool) (l : List α) (taken : ℕ → Bool) : Prop :=
  ∀ i, isMarkedAt marked l i = true → taken i = true

theorem getElem?_render (i : ℕ) :
    (render marked mark taken l)[i]? =
      l[i]?.map fun x => if taken i && !marked x then mark x else x := by
  rw [render, getElem?_markAt]
  cases hx : l[i]? with
  | none => rfl
  | some x => rw [Option.map_some, Option.map_some, isMarkedAt, hx, Option.any_some]

theorem isMarkedAt_render (hmark : ∀ x, marked (mark x) = true) (h : Covers marked l taken)
    {i : ℕ} (hi : i < l.length) :
    isMarkedAt marked (render marked mark taken l) i = taken i := by
  have hcover := h i
  rw [isMarkedAt, getElem?_render, List.getElem?_eq_getElem hi, Option.map_some, Option.any_some]
  rw [isMarkedAt, List.getElem?_eq_getElem hi, Option.any_some] at hcover
  cases ht : taken i with
  | true =>
    cases hm : marked l[i] with
    | true => simpa using hm
    | false => simp [hm, hmark]
  | false =>
    have : marked l[i] = false := by
      rw [← Bool.not_eq_true]
      intro hm
      rw [hcover hm] at ht
      cases ht
    simpa using this

/-- A row that is not taken is as it was. -/
theorem getElem?_render_of_not_taken {i : ℕ} (hi : taken i = false) :
    (render marked mark taken l)[i]? = l[i]? := by
  rw [getElem?_render]
  simp [hi]

theorem modify_render {b : ℕ} (hb : taken b = false) (h : Covers marked l taken) :
    (render marked mark taken l).modify b mark =
      render marked mark (fun i => taken i || i == b) l := by
  refine List.ext_getElem? fun i => ?_
  rw [List.getElem?_modify, getElem?_render, getElem?_render]
  by_cases hib : b = i
  · subst hib
    cases hx : l[b]? with
    | none => rfl
    | some x =>
      have hm : marked x = false := by
        rw [← Bool.not_eq_true]
        intro hm
        have := h b (by rw [isMarkedAt, hx]; exact hm)
        rw [hb] at this
        cases this
      simp [hb, hm]
  · have hne : (i == b) = false := by
      rw [beq_eq_false_iff_ne]
      exact fun heq => hib heq.symm
    simp [hib, hne]

theorem markLater_render (hmark : ∀ x, marked (mark x) = true) (h : Covers marked l taken)
    (ha : taken a = false) (hnot : a ∉ group) (hlt : ∀ i ∈ group, i < l.length) :
    markLater alike marked mark a group (render marked mark taken l) =
      render marked mark (fun b => taken b || (group.contains b && alikeAt alike l a b)) l := by
  induction group generalizing taken with
  | nil => simp [markLater]
  | cons b group ih =>
    obtain ⟨hab, hnot⟩ := not_or.mp (fun hmem => hnot (List.mem_cons.mpr hmem))
    obtain ⟨hb, hlt⟩ := List.forall_mem_cons.mp hlt
    have hstep : (if isMarkedAt marked (render marked mark taken l) b then
          render marked mark taken l
        else if alikeAt alike (render marked mark taken l) a b then
          (render marked mark taken l).modify b mark
        else render marked mark taken l) =
        render marked mark (fun i => taken i || (i == b && alikeAt alike l a b)) l := by
      rw [isMarkedAt_render hmark h hb]
      split
      · next htaken =>
        congr 1
        funext i
        by_cases hib : i = b
        · subst hib
          rw [htaken, Bool.true_or]
        · rw [beq_eq_false_iff_ne.mpr hib, Bool.false_and, Bool.or_false]
      · next htaken =>
        have htaken := eq_false_of_ne_true htaken
        have halike : alikeAt alike (render marked mark taken l) a b = alikeAt alike l a b := by
          rw [alikeAt, alikeAt, getElem?_render_of_not_taken ha,
            getElem?_render_of_not_taken htaken]
        rw [halike]
        cases alikeAt alike l a b with
        | true =>
          rw [if_pos rfl, modify_render htaken h]
          simp
        | false => simp
    have hcover : Covers marked l fun i => taken i || (i == b && alikeAt alike l a b) :=
      fun i hi => by simp [h i hi]
    have ha' : (taken a || (a == b && alikeAt alike l a b)) = false := by
      rw [ha, beq_eq_false_iff_ne.mpr hab]
      rfl
    have hrest := ih hcover ha' hnot hlt
    rw [markLater, List.foldl_cons, hstep]
    refine hrest.trans ?_
    congr 1
    funext i
    rw [List.contains_cons]
    by_cases hib : i = b
    · subst hib
      rw [beq_self_eq_true, Bool.true_and, Bool.true_or, Bool.true_and, Bool.or_assoc]
      cases alikeAt alike l a i with
      | true => rw [Bool.true_or]
      | false => rw [Bool.and_false, Bool.or_false]
    · rw [beq_eq_false_iff_ne.mpr hib, Bool.false_and, Bool.or_false, Bool.false_or]

/-- **The loop over rows marks the places that are swept.** -/
theorem markGroup_render (hmark : ∀ x, marked (mark x) = true) (h : Covers marked l taken)
    (hnodup : group.Nodup) (hlt : ∀ i ∈ group, i < l.length) :
    markGroup alike marked mark group (render marked mark taken l) =
      render marked mark (sweep (alikeAt alike l) group taken) l := by
  induction group generalizing taken with
  | nil => rfl
  | cons a group ih =>
    obtain ⟨hnot, hnodup⟩ := List.nodup_cons.mp hnodup
    obtain ⟨ha, hlt⟩ := List.forall_mem_cons.mp hlt
    rw [markGroup, sweep, isMarkedAt_render hmark h ha]
    split
    · exact ih h hnodup hlt
    · next hta =>
      rw [markLater_render hmark h (eq_false_of_ne_true hta) hnot hlt]
      exact ih (fun i hi => by simp [h i hi]) hnodup hlt

/-- The same for all groups. -/
theorem foldl_markGroup_render (hmark : ∀ x, marked (mark x) = true) {groups : List (List ℕ)}
    (h : Covers marked l taken) (hnodup : ∀ group ∈ groups, group.Nodup)
    (hlt : ∀ group ∈ groups, ∀ i ∈ group, i < l.length) :
    groups.foldl (fun l group => markGroup alike marked mark group l)
        (render marked mark taken l) =
      render marked mark (sweepAll (alikeAt alike l) groups taken) l := by
  induction groups generalizing taken with
  | nil => rfl
  | cons group groups ih =>
    obtain ⟨hgroup, hnodup⟩ := List.forall_mem_cons.mp hnodup
    obtain ⟨hin, hlt⟩ := List.forall_mem_cons.mp hlt
    rw [List.foldl_cons, markGroup_render hmark h hgroup hin]
    exact ih (fun i hi => sweep_of_marked (h i hi)) hnodup hlt

/-- The marks that the rows have from the start. -/
theorem render_isMarkedAt : render marked mark (isMarkedAt marked l) l = l := by
  refine markAt_eq_self fun i x hx hhit => ?_
  rw [Bool.and_not_self] at hhit
  cases hhit

end

end Infra
