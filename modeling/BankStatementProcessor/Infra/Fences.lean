import Mathlib.Data.Finset.Max
import Mathlib.Data.List.Sort

/-!
# Slots between fences

Fences stand in a row, and a cut between each two neighbours belongs to the slot of the right
one. The first slot is open to the left and the last one to the right, so the slots divide the
line.
-/

namespace Infra

namespace Fences

variable {α : Type*} [LinearOrder α]

/-- The cut between a fence and the last one before it. -/
def lower (cut : α → α → α) (fences : List α) (x : α) : Option α :=
  ((fences.filter (· < x)).getLast?).map (cut · x)

/-- The cut between a fence and the first one after it. -/
def upper (cut : α → α → α) (fences : List α) (x : α) : Option α :=
  (fences.find? (x < ·)).map (cut x ·)

/-- The slot of a fence. -/
def InSlot (cut : α → α → α) (fences : List α) (x q : α) : Prop :=
  (∀ l ∈ lower cut fences x, l ≤ q) ∧ ∀ h ∈ upper cut fences x, q < h

/-- A cut comes after the left fence and not after the right one. -/
def Separates (cut : α → α → α) (fences : List α) : Prop :=
  ∀ a ∈ fences, ∀ b ∈ fences, a < b → a < cut a b ∧ cut a b ≤ b

section

variable {cut : α → α → α} {fences : List α} {x y q : α}

/-! ## Neighbours -/

theorem mem_getLast?_filter (hsorted : fences.Pairwise (· < ·)) :
    y ∈ (fences.filter (· < x)).getLast? ↔
      (y ∈ fences ∧ y < x) ∧ ∀ z ∈ fences, z < x → z ≤ y := by
  have hfiltered : (fences.filter (· < x)).Pairwise (· < ·) := hsorted.filter _
  have hmem : ∀ z, z ∈ fences.filter (· < x) ↔ z ∈ fences ∧ z < x := by simp
  rcases List.eq_nil_or_concat (fences.filter (· < x)) with hnil | ⟨before, last, hlast⟩
  · rw [hnil, List.getLast?_nil]
    refine iff_of_false (by simp) ?_
    rintro ⟨hy, -⟩
    have := (hmem y).mpr hy
    rw [hnil] at this
    cases this
  · rw [hlast] at hfiltered hmem ⊢
    rw [List.concat_eq_append, List.getLast?_concat, Option.mem_some_iff]
    have hbelow : ∀ z ∈ before, z < last := by
      rw [List.concat_eq_append, List.pairwise_append] at hfiltered
      exact fun z hz => hfiltered.2.2 z hz last (List.mem_singleton_self last)
    have hlastMem := (hmem last).mp (by simp)
    constructor
    · rintro rfl
      refine ⟨hlastMem, fun z hz hzx => ?_⟩
      have hz' := (hmem z).mpr ⟨hz, hzx⟩
      rw [List.concat_eq_append, List.mem_append, List.mem_singleton] at hz'
      rcases hz' with hz' | rfl
      · exact (hbelow z hz').le
      · exact le_rfl
    · rintro ⟨hy, hgreatest⟩
      have hle := hgreatest last hlastMem.1 hlastMem.2
      have hy' := (hmem y).mpr hy
      rw [List.concat_eq_append, List.mem_append, List.mem_singleton] at hy'
      rcases hy' with hy' | rfl
      · exact absurd (hbelow y hy') (not_lt.mpr hle)
      · rfl

theorem mem_find? (hsorted : fences.Pairwise (· < ·)) :
    y ∈ fences.find? (x < ·) ↔ (y ∈ fences ∧ x < y) ∧ ∀ z ∈ fences, x < z → y ≤ z := by
  constructor
  · intro h
    obtain ⟨hxy, before, after, hfences, hbefore⟩ := List.find?_eq_some_iff_append.mp h
    rw [hfences, List.pairwise_append, List.pairwise_cons] at hsorted
    refine ⟨⟨List.mem_of_find?_eq_some h, by simpa using hxy⟩, fun z hz hxz => ?_⟩
    rw [hfences, List.mem_append, List.mem_cons] at hz
    rcases hz with hz | rfl | hz
    · exact absurd hxz (by simpa using hbefore z hz)
    · exact le_rfl
    · exact (hsorted.2.1.1 z hz).le
  · rintro ⟨⟨hy, hxy⟩, hleast⟩
    cases hfound : fences.find? (x < ·) with
    | none =>
      rw [List.find?_eq_none] at hfound
      exact absurd hxy (by simpa using hfound y hy)
    | some z =>
      have hz := List.mem_of_find?_eq_some hfound
      have hxz : x < z := by simpa using List.find?_some hfound
      obtain ⟨-, before, after, hfences, hbefore⟩ := List.find?_eq_some_iff_append.mp hfound
      rw [hfences, List.pairwise_append, List.pairwise_cons] at hsorted
      rw [hfences, List.mem_append, List.mem_cons] at hy
      rcases hy with hy | rfl | hy
      · exact absurd hxy (by simpa using hbefore y hy)
      · rfl
      · exact absurd (hleast z hz hxz) (not_le.mpr (hsorted.2.1.1 y hy))

theorem exists_mem_getLast? (hy : y ∈ fences) (hyx : y < x) :
    ∃ p, p ∈ (fences.filter (· < x)).getLast? := by
  refine Option.isSome_iff_exists.mp ?_
  rw [Option.isSome_iff_ne_none, Ne, List.getLast?_eq_none_iff]
  exact List.ne_nil_of_mem (List.mem_filter.mpr ⟨hy, by simpa using hyx⟩)

theorem exists_mem_find? (hy : y ∈ fences) (hxy : x < y) : ∃ s, s ∈ fences.find? (x < ·) := by
  refine Option.isSome_iff_exists.mp ?_
  rw [List.find?_isSome]
  exact ⟨y, hy, by simpa using hxy⟩

/-! ## Slots -/

theorem lower_le (hsorted : fences.Pairwise (· < ·)) (hcut : Separates cut fences)
    (hx : x ∈ fences) {l : α} (hl : l ∈ lower cut fences x) :
    l ≤ x ∧ ∀ y ∈ fences, y < x → y < l := by
  obtain ⟨p, hp, rfl⟩ := Option.mem_map.mp hl
  obtain ⟨⟨hmem, hpx⟩, hgreatest⟩ := (mem_getLast?_filter hsorted).mp hp
  obtain ⟨hlow, hhigh⟩ := hcut p hmem x hx hpx
  exact ⟨hhigh, fun y hy hyx => (hgreatest y hy hyx).trans_lt hlow⟩

theorem lt_upper (hsorted : fences.Pairwise (· < ·)) (hcut : Separates cut fences)
    (hx : x ∈ fences) {h : α} (hh : h ∈ upper cut fences x) :
    x < h ∧ ∀ y ∈ fences, x < y → h ≤ y := by
  obtain ⟨s, hs, rfl⟩ := Option.mem_map.mp hh
  obtain ⟨⟨hmem, hxs⟩, hleast⟩ := (mem_find? hsorted).mp hs
  obtain ⟨hlow, hhigh⟩ := hcut x hx s hmem hxs
  exact ⟨hlow, fun y hy hxy => hhigh.trans (hleast y hy hxy)⟩

/-- A slot holds its own fence and no other. -/
theorem inSlot_iff_of_mem (hsorted : fences.Pairwise (· < ·)) (hcut : Separates cut fences)
    (hx : x ∈ fences) (hy : y ∈ fences) : InSlot cut fences x y ↔ y = x := by
  constructor
  · rintro ⟨hlower, hupper⟩
    rcases lt_trichotomy y x with hlt | heq | hgt
    · obtain ⟨p, hp⟩ := exists_mem_getLast? hy hlt
      have hl : cut p x ∈ lower cut fences x := Option.mem_map_of_mem _ hp
      exact absurd (hlower _ hl) (not_le.mpr ((lower_le hsorted hcut hx hl).2 y hy hlt))
    · exact heq
    · obtain ⟨s, hs⟩ := exists_mem_find? hy hgt
      have hh : cut x s ∈ upper cut fences x := Option.mem_map_of_mem _ hs
      exact absurd (hupper _ hh) (not_lt.mpr ((lt_upper hsorted hcut hx hh).2 y hy hgt))
  · rintro rfl
    exact ⟨fun l hl => (lower_le hsorted hcut hx hl).1,
      fun h hh => (lt_upper hsorted hcut hx hh).1⟩

/-- The slots of two fences have nothing in common. -/
theorem not_inSlot_of_lt (hsorted : fences.Pairwise (· < ·)) (hcut : Separates cut fences)
    (hx : x ∈ fences) (hy : y ∈ fences) (hxy : x < y) :
    ¬(InSlot cut fences x q ∧ InSlot cut fences y q) := by
  rintro ⟨⟨-, hupper⟩, hlower, -⟩
  obtain ⟨s, hs⟩ := exists_mem_find? hy hxy
  obtain ⟨p, hp⟩ := exists_mem_getLast? hx hxy
  have hqs := hupper _ (Option.mem_map_of_mem _ hs)
  have hpq := hlower _ (Option.mem_map_of_mem _ hp)
  obtain ⟨⟨hsMem, hxs⟩, hleast⟩ := (mem_find? hsorted).mp hs
  obtain ⟨⟨hpMem, hpy⟩, hgreatest⟩ := (mem_getLast?_filter hsorted).mp hp
  rcases hgreatest x hx hxy |>.lt_or_eq with hlt | rfl
  · -- another fence stands between, and one of the cuts is on each side of it
    have hcutS := (hcut x hx s hsMem hxs).2
    have hcutP := (hcut p hpMem y hy hpy).1
    exact absurd (hpq.trans_lt hqs) (not_lt.mpr ((hcutS.trans (hleast p hpMem hlt)).trans hcutP.le))
  · have hsy : s = y := le_antisymm (hleast y hy hxy) (by
      by_contra hlt
      exact absurd (hgreatest s hsMem (not_le.mp hlt)) (not_le.mpr hxs))
    rw [hsy] at hqs
    exact absurd hqs (not_lt.mpr hpq)

/-- Every place is in the slot of some fence. -/
theorem exists_inSlot (cut : α → α → α) (hsorted : fences.Pairwise (· < ·)) (hne : fences ≠ [])
    (q : α) : ∃ x ∈ fences, InSlot cut fences x q := by
  have hstarts : ∃ x ∈ fences, ∀ l ∈ lower cut fences x, l ≤ q := by
    obtain ⟨first, rest, rfl⟩ := List.exists_cons_of_ne_nil hne
    refine ⟨first, List.mem_cons_self, fun l hl => ?_⟩
    obtain ⟨p, hp, -⟩ := Option.mem_map.mp hl
    obtain ⟨⟨hmem, hlt⟩, -⟩ := (mem_getLast?_filter hsorted).mp hp
    rcases List.mem_cons.mp hmem with rfl | hmem
    · exact absurd hlt (lt_irrefl _)
    · exact absurd (hlt.trans ((List.pairwise_cons.mp hsorted).1 p hmem)) (lt_irrefl _)
  classical
  obtain ⟨x₀, hx₀, hlower₀⟩ := hstarts
  obtain ⟨x, hx, hmax⟩ := Finset.exists_max_image
    (fences.toFinset.filter fun x => ∀ l ∈ lower cut fences x, l ≤ q) id
    ⟨x₀, Finset.mem_filter.mpr ⟨List.mem_toFinset.mpr hx₀, hlower₀⟩⟩
  obtain ⟨hmem, hlower⟩ := Finset.mem_filter.mp hx
  rw [List.mem_toFinset] at hmem
  refine ⟨x, hmem, hlower, fun h hh => ?_⟩
  obtain ⟨s, hs, rfl⟩ := Option.mem_map.mp hh
  obtain ⟨⟨hsMem, hxs⟩, hleast⟩ := (mem_find? hsorted).mp hs
  -- otherwise the next fence would begin before `q` too
  by_contra hle
  have hprev : x ∈ (fences.filter (· < s)).getLast? := by
    rw [mem_getLast?_filter hsorted]
    refine ⟨⟨hmem, hxs⟩, fun z hz hzs => ?_⟩
    by_contra hxz
    exact absurd (hleast z hz (not_le.mp hxz)) (not_le.mpr hzs)
  have hnext : s ∈ fences.toFinset.filter fun x => ∀ l ∈ lower cut fences x, l ≤ q := by
    refine Finset.mem_filter.mpr ⟨List.mem_toFinset.mpr hsMem, fun l hl => ?_⟩
    obtain ⟨p, hp, rfl⟩ := Option.mem_map.mp hl
    rw [Option.mem_unique hp hprev]
    exact not_lt.mp hle
  exact absurd (hmax s hnext) (not_le.mpr hxs)

end

end Fences

end Infra
