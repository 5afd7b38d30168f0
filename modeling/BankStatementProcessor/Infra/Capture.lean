import BankStatementProcessor.Infra.Unicode
import Mathlib.Data.List.TakeWhile

/-!
# Searching with capture groups

Expressions that are a sequence of literals and greedy classes, some of them captured. A match
tries the longest run of a class first, and a search takes the leftmost match and goes on
behind it.

Where a class is followed by a character it does not contain, only the longest run can lead to
a match. All the rules below rest on this.
-/

namespace Infra

inductive Piece where
  | lit (text : List Char)
  /-- A greedy run of a class. -/
  | run (p : Char → Bool)
  /-- The same, with a capture group around it. -/
  | group (p : Char → Bool)

namespace Piece

/-! ## Matching -/

/-- The ways to split off a run of a class, the longest first. -/
def splits (p : Char → Bool) : List Char → List (List Char × List Char)
  | [] => [([], [])]
  | c :: cs =>
    if p c then (splits p cs).map (fun s => (c :: s.1, s.2)) ++ [([], c :: cs)]
    else [([], c :: cs)]

/-- The groups of the match that begins here, and what follows it. -/
def matchAt : List Piece → List Char → Option (List (List Char) × List Char)
  | [], cs => some ([], cs)
  | .lit text :: ps, cs =>
    if text.isPrefixOf cs then matchAt ps (cs.drop text.length) else none
  | .run p :: ps, cs => (splits p cs).findSome? fun s => matchAt ps s.2
  | .group p :: ps, cs =>
    (splits p cs).findSome? fun s => (matchAt ps s.2).map fun m => (s.1 :: m.1, m.2)

/-- `Regex::captures_iter` for an expression that matches no empty text. The first `skip`
characters belong to the match before. -/
def captures (ps : List Piece) : ℕ → List Char → List (List (List Char))
  | _, [] => []
  | skip + 1, _ :: cs => captures ps skip cs
  | 0, c :: cs =>
    match matchAt ps (c :: cs) with
    | some (groups, rest) => groups :: captures ps (cs.length - rest.length) cs
    | none => captures ps 0 cs

/-! ## Literals -/

variable {ps : List Piece} {p : Char → Bool} {c d : Char} {cs text w z : List Char}

@[simp] theorem matchAt_nil : matchAt [] cs = some ([], cs) := rfl

theorem matchAt_lit_append : matchAt (.lit text :: ps) (text ++ z) = matchAt ps z := by
  have hprefix : text.isPrefixOf (text ++ z) = true :=
    List.isPrefixOf_iff_prefix.mpr (List.prefix_append text z)
  rw [matchAt, if_pos hprefix, List.drop_left]

@[simp] theorem matchAt_lit_self : matchAt (.lit [c] :: ps) (c :: z) = matchAt ps z := by
  have htext : matchAt (.lit [c] :: ps) ([c] ++ z) = matchAt ps z := matchAt_lit_append
  exact htext

theorem matchAt_lit_eq_none (h : ¬text <+: cs) : matchAt (.lit text :: ps) cs = none := by
  rw [matchAt, if_neg]
  simpa using h

theorem matchAt_lit_cons_ne (h : d ≠ c) : matchAt (.lit (c :: text) :: ps) (d :: cs) = none := by
  apply matchAt_lit_eq_none
  intro hprefix
  exact h (List.cons_prefix_cons.mp hprefix).1.symm

@[simp] theorem matchAt_lit_cons_nil : matchAt (.lit (c :: text) :: ps) [] = none :=
  matchAt_lit_eq_none (by simp)

/-! ## Classes -/

/-- Only the longest run counts where the rest fails on every character of the class. -/
theorem findSome?_splits {β : Type*} {f : List Char × List Char → Option β}
    (hf : ∀ s c z, p c = true → f (s, c :: z) = none) (hz : ∀ c ∈ z.head?, p c = false) :
    w.all p = true → (splits p (w ++ z)).findSome? f = f (w, z) := by
  induction w generalizing f with
  | nil =>
    intro _
    cases z with
    | nil => simp [splits]
    | cons c z => simp [splits, hz c rfl]
  | cons c w ih =>
    intro hw
    rw [List.all_cons, Bool.and_eq_true] at hw
    have hlonger := ih (f := fun s => f (c :: s.1, s.2)) (fun s d z hd => hf _ d z hd) hw.2
    rw [List.cons_append, splits, if_pos hw.1, List.findSome?_append, List.findSome?_map]
    have hempty : List.findSome? f [([], c :: (w ++ z))] = none := by
      simp [hf [] c (w ++ z) hw.1]
    rw [hempty, Option.or_none]
    exact hlonger

/-- A run before a literal that begins with no character of the class takes all it can. -/
theorem matchAt_run_lit (hc : p c = false) :
    matchAt (.run p :: .lit (c :: text) :: ps) cs =
      matchAt (.lit (c :: text) :: ps) (cs.dropWhile p) := by
  have hf : ∀ (s : List Char) (d : Char) (z : List Char), p d = true →
      matchAt (.lit (c :: text) :: ps) (d :: z) = none := by
    intro _ d z hd
    refine matchAt_lit_cons_ne ?_
    rintro rfl
    rw [hc] at hd
    cases hd
  conv_lhs => rw [← List.takeWhile_append_dropWhile (p := p) (l := cs), matchAt]
  refine findSome?_splits hf ?_ List.all_takeWhile
  intro d hd
  have hstop := List.head?_dropWhile_not p cs
  rw [Option.mem_def.mp hd] at hstop
  simpa using hstop

/-- A run that is empty because its literal follows. -/
theorem matchAt_run_lit_self (hc : p c = false) :
    matchAt (.run p :: .lit [c] :: ps) (c :: z) = matchAt ps z := by
  rw [matchAt_run_lit hc, List.dropWhile_cons_of_neg (by simp [hc]), matchAt_lit_self]

/-- A group of everything but `c` before a `c` captures what stands before the first one. -/
theorem matchAt_group_lit (h : c ∈ cs) :
    matchAt (.group (· != c) :: .lit [c] :: ps) cs =
      (matchAt ps (cs.dropWhile (· != c)).tail).map fun m =>
        (cs.takeWhile (· != c) :: m.1, m.2) := by
  have hf : ∀ (s : List Char) (d : Char) (z : List Char), (d != c) = true →
      (matchAt (.lit [c] :: ps) (d :: z)).map (fun m => (s :: m.1, m.2)) = none := by
    intro _ d z hd
    rw [matchAt_lit_cons_ne (by simpa using hd), Option.map_none]
  have hstop := List.head?_dropWhile_not (· != c) cs
  cases hdrop : cs.dropWhile (· != c) with
  | nil =>
    rw [List.dropWhile_eq_nil_iff] at hdrop
    exact absurd (hdrop c h) (by simp)
  | cons d z =>
    rw [hdrop] at hstop
    obtain rfl : d = c := by simpa using hstop
    conv_lhs => rw [← List.takeWhile_append_dropWhile (p := (· != d)) (l := cs), matchAt]
    rw [findSome?_splits hf (by simp [hdrop]) List.all_takeWhile, hdrop]
    exact congrArg _ matchAt_lit_self

theorem suffix_of_mem_splits {s : List Char × List Char} (h : s ∈ splits p cs) : s.2 <:+ cs := by
  induction cs generalizing s with
  | nil =>
    obtain rfl : s = ([], []) := by simpa [splits] using h
    exact List.suffix_refl _
  | cons c cs ih =>
    have hempty : ∀ s ∈ [(([] : List Char), c :: cs)], s.2 <:+ c :: cs := by simp
    rw [splits] at h
    split at h
    · rcases List.mem_append.mp h with h | h
      · obtain ⟨s', hs', rfl⟩ := List.mem_map.mp h
        exact (ih hs').trans (List.suffix_cons c cs)
      · exact hempty s h
    · exact hempty s h

/-- What follows a match is an end of the text. -/
theorem matchAt_suffix {groups : List (List Char)} {rest : List Char}
    (h : matchAt ps cs = some (groups, rest)) : rest <:+ cs := by
  induction ps generalizing cs groups with
  | nil =>
    rw [matchAt_nil, Option.some.injEq, Prod.mk.injEq] at h
    exact ⟨[], h.2.symm⟩
  | cons piece ps ih =>
    cases piece with
    | lit text =>
      rw [matchAt] at h
      split at h
      · exact (ih h).trans (List.drop_suffix _ _)
      · cases h
    | run p =>
      rw [matchAt] at h
      obtain ⟨s, hs, hmatch⟩ := List.exists_of_findSome?_eq_some h
      exact (ih hmatch).trans (suffix_of_mem_splits hs)
    | group p =>
      rw [matchAt] at h
      obtain ⟨s, hs, hmatch⟩ := List.exists_of_findSome?_eq_some h
      obtain ⟨m, hm, heq⟩ := Option.map_eq_some_iff.mp hmatch
      obtain ⟨-, rfl⟩ := Prod.mk.inj heq
      exact (ih hm).trans (suffix_of_mem_splits hs)

/-! ## Searching -/

@[simp] theorem captures_nil (skip : ℕ) : captures ps skip [] = [] := by
  cases skip <;> rfl

theorem captures_skip : captures ps w.length (w ++ z) = captures ps 0 z := by
  induction w with
  | nil => rfl
  | cons c w ih => exact ih

/-- After a match the search goes on behind it. -/
theorem captures_of_match {groups : List (List Char)}
    (h : matchAt (.lit (c :: text) :: ps) cs = some (groups, z)) :
    captures (.lit (c :: text) :: ps) 0 cs =
      groups :: captures (.lit (c :: text) :: ps) 0 z := by
  have hprefix : c :: text <+: cs := by
    by_contra hno
    rw [matchAt_lit_eq_none hno] at h
    cases h
  obtain ⟨cs, rfl⟩ := hprefix
  have hrest := h
  rw [matchAt_lit_append] at hrest
  obtain ⟨w, rfl⟩ := matchAt_suffix hrest
  have hskip : (text ++ (w ++ z)).length - z.length = (text ++ w).length := by
    simp only [List.length_append]
    omega
  rw [List.cons_append] at h ⊢
  rw [captures, h]
  simp only [hskip]
  rw [← List.append_assoc, captures_skip]

/-- No match begins in `w` when `z` follows it. -/
def NoMatchIn (ps : List Piece) : List Char → List Char → Prop
  | [], _ => True
  | c :: w, z => matchAt ps (c :: (w ++ z)) = none ∧ NoMatchIn ps w z

theorem NoMatchIn.append {w' : List Char} (h : NoMatchIn ps w (w' ++ z))
    (h' : NoMatchIn ps w' z) : NoMatchIn ps (w ++ w') z := by
  induction w with
  | nil => exact h'
  | cons c w ih =>
    refine ⟨?_, ih h.2⟩
    have hfirst := h.1
    rw [← List.append_assoc] at hfirst
    exact hfirst

/-- The search passes over a text in which no match begins. -/
theorem NoMatchIn.captures (h : NoMatchIn ps w z) :
    captures ps 0 (w ++ z) = Piece.captures ps 0 z := by
  induction w with
  | nil => rfl
  | cons c w ih =>
    rw [List.cons_append, Piece.captures, h.1]
    exact ih h.2

end Piece

end Infra
