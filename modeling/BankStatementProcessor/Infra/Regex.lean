import BankStatementProcessor.Infra.Unicode
import Mathlib.Data.Nat.Find

/-!
# Regular expressions

Expressions with anchors and word boundaries, as a search uses them. A position in a text is
the character before it and what follows.
-/

namespace Infra

inductive Regex where
  | empty
  /-- One character of a class. -/
  | one (p : Unicode → Char → Bool)
  /-- `^` -/
  | start
  /-- `$` -/
  | stop
  /-- `\b` -/
  | boundary
  | seq (r s : Regex)
  | alt (r s : Regex)
  | star (r : Regex)

namespace Regex

/-! ## Abbreviations -/

def char (c : Char) : Regex := one fun _ x => x == c

def oneOf (cs : List Char) : Regex := one fun _ x => cs.contains x

/-- `\d` -/
def digit : Regex := one fun u x => u.isDigit x

/-- `\s` -/
def space : Regex := one fun _ x => isSpace x

/-- `.` -/
def any : Regex := one fun _ x => x != '\n'

def seqs (rs : List Regex) : Regex := rs.foldr seq empty

/-- The characters of a text, one after the other. -/
def lit (s : String) : Regex := seqs (s.toList.map char)

/-- The same where the case does not matter; the long `ſ` is an `s`. -/
def litIgnoreCase (s : String) : Regex :=
  seqs (s.toList.map fun c =>
    one fun _ x => x.toLower == c.toLower || (c.toLower == 's' && x == 'ſ') ||
      (c.toLower == 'k' && x == '\u212A'))

/-- One of several, of which there is at least one. -/
def alts : List Regex → Regex
  | [] => empty
  | [r] => r
  | r :: rs => alt r (alts rs)

/-- `r?` -/
def opt (r : Regex) : Regex := alt r empty

/-- `r+` -/
def plus (r : Regex) : Regex := seq r (star r)

/-- `r{n,}` -/
def atLeast (n : ℕ) (r : Regex) : Regex := seq (seqs (List.replicate n r)) (star r)

/-- `\s*` and `\s+` -/
def spaces : Regex := star space

def spaces1 : Regex := plus space

/-! ## Matching -/

/-- A position in a text. -/
structure Pos where
  before : Option Char
  rest : List Char

/-- The position after the next character. -/
def Pos.next? (p : Pos) : Option (Char × Pos) :=
  match p.rest with
  | [] => none
  | c :: rest => some (c, { before := some c, rest })

/-- The positions that `step` reaches when it is taken any number of times, at most `fuel`
times. A turn that does not move is not taken. -/
def iterate (step : Pos → List Pos) : ℕ → Pos → List Pos
  | 0, p => [p]
  | fuel + 1, p =>
    p :: (step p).flatMap fun q =>
      if q.rest.length < p.rest.length then iterate step fuel q else []

/-- Where a match that begins here can end. -/
def ends (u : Unicode) : Regex → Pos → List Pos
  | empty, p => [p]
  | one q, p =>
    match p.next? with
    | some (c, p') => if q u c then [p'] else []
    | none => []
  | start, p => if p.before.isNone then [p] else []
  | stop, p => if p.rest.isEmpty then [p] else []
  | boundary, p => if p.before.any u.isWord != p.rest.head?.any u.isWord then [p] else []
  | seq r s, p => (ends u r p).flatMap (ends u s)
  | alt r s, p => ends u r p ++ ends u s p
  | star r, p => iterate (ends u r) p.rest.length p

/-- The positions of a text, from `before` on. -/
def positions : Option Char → List Char → List Pos
  | before, [] => [{ before, rest := [] }]
  | before, c :: rest => { before, rest := c :: rest } :: positions (some c) rest

/-- `Regex::is_match`. -/
def isMatch (u : Unicode) (r : Regex) (text : List Char) : Bool :=
  (positions none text).any fun p => !(r.ends u p).isEmpty

/-- What stands before the first match, the whole text if there is none. -/
def beforeMatch (u : Unicode) (r : Regex) (text : List Char) : List Char :=
  match (positions none text).find? fun p => !(r.ends u p).isEmpty with
  | some p => text.take (text.length - p.rest.length)
  | none => text

/-! ## What a match reads -/

/-- Reading `w` leads from the first position to the second. -/
def Pos.Reads (p : Pos) (w : List Char) (q : Pos) : Prop :=
  p.rest = w ++ q.rest ∧ q.before = w.getLast?.or p.before

section

variable {u : Unicode} {r s : Regex} {f : Unicode → Char → Bool} {p q m : Pos} {w v : List Char}

theorem Pos.reads_nil_iff : p.Reads [] q ↔ q = p := by
  obtain ⟨before, rest⟩ := p
  obtain ⟨before', rest'⟩ := q
  simp only [Pos.Reads, List.nil_append, List.getLast?_nil, Option.none_or, Pos.mk.injEq]
  constructor
  · rintro ⟨hrest, hbefore⟩
    exact ⟨hbefore, hrest.symm⟩
  · rintro ⟨hbefore, hrest⟩
    exact ⟨hrest.symm, hbefore⟩

theorem Pos.Reads.append (h : p.Reads w m) (h' : m.Reads v q) : p.Reads (w ++ v) q := by
  refine ⟨by rw [h.1, h'.1, List.append_assoc], ?_⟩
  rw [h'.2, h.2, List.getLast?_append, Option.or_assoc]

/-- The position after `w`. -/
theorem Pos.reads_of_rest {rest : List Char} (h : p.rest = w ++ rest) :
    p.Reads w ⟨w.getLast?.or p.before, rest⟩ := ⟨h, rfl⟩

theorem Pos.Reads.suffix (h : p.Reads w q) : q.rest <:+ p.rest := ⟨w, h.1.symm⟩

theorem Pos.reads_cons_iff {c : Char} :
    p.Reads (c :: w) q ↔ ∃ m, p.Reads [c] m ∧ m.Reads w q := by
  constructor
  · intro h
    refine ⟨⟨some c, w ++ q.rest⟩, ⟨h.1, rfl⟩, rfl, ?_⟩
    rw [h.2, List.getLast?_cons]
    cases w.getLast? <;> rfl
  · rintro ⟨m, hc, hw⟩
    exact hc.append hw

theorem mem_ends_empty : q ∈ ends u empty p ↔ p.Reads [] q := by
  show q ∈ [p] ↔ _
  rw [Pos.reads_nil_iff, List.mem_singleton]

theorem mem_ends_one : q ∈ ends u (one f) p ↔ ∃ c, f u c = true ∧ p.Reads [c] q := by
  obtain ⟨before, rest⟩ := p
  obtain ⟨before', rest'⟩ := q
  cases rest with
  | nil => simp [ends, Pos.next?, Pos.Reads]
  | cons c rest =>
    by_cases hf : f u c = true
    · simp only [ends, Pos.next?, hf, if_pos, List.mem_singleton, Pos.Reads, Pos.mk.injEq,
        List.singleton_append, List.getLast?_singleton, Option.some_or, List.cons.injEq]
      constructor
      · rintro ⟨rfl, rfl⟩
        exact ⟨c, hf, ⟨rfl, rfl⟩, rfl⟩
      · rintro ⟨c', -, ⟨rfl, rfl⟩, rfl⟩
        exact ⟨rfl, rfl⟩
    · simp only [ends, Pos.next?, hf, Pos.Reads, List.singleton_append, List.cons.injEq]
      constructor
      · rintro ⟨⟩
      · rintro ⟨c', hc', ⟨rfl, -⟩, -⟩
        exact absurd hc' hf

theorem mem_ends_start : q ∈ ends u start p ↔ p.before = none ∧ p.Reads [] q := by
  show q ∈ (if p.before.isNone then [p] else []) ↔ _
  rw [Pos.reads_nil_iff]
  cases p.before <;> simp

theorem mem_ends_stop : q ∈ ends u stop p ↔ p.rest = [] ∧ p.Reads [] q := by
  show q ∈ (if p.rest.isEmpty then [p] else []) ↔ _
  rw [Pos.reads_nil_iff]
  cases p.rest <;> simp

theorem mem_ends_seq : q ∈ ends u (seq r s) p ↔ ∃ m ∈ ends u r p, q ∈ ends u s m := by
  show q ∈ (ends u r p).flatMap (ends u s) ↔ _
  rw [List.mem_flatMap]

theorem mem_ends_alt : q ∈ ends u (alt r s) p ↔ q ∈ ends u r p ∨ q ∈ ends u s p := by
  show q ∈ ends u r p ++ ends u s p ↔ _
  rw [List.mem_append]

theorem mem_ends_seqs_cons {rs : List Regex} :
    q ∈ ends u (seqs (r :: rs)) p ↔ ∃ m ∈ ends u r p, q ∈ ends u (seqs rs) m := mem_ends_seq

/-- What is read by any number of turns, each of which moves. -/
theorem reads_of_mem_iterate {step : Pos → List Pos} {P : List Char → Prop} (hnil : P [])
    (happend : ∀ w v, P w → P v → P (w ++ v))
    (hstep : ∀ p, ∀ q ∈ step p, ∃ w, P w ∧ p.Reads w q) (fuel : ℕ) (p : Pos) :
    ∀ q ∈ iterate step fuel p, ∃ w, P w ∧ p.Reads w q := by
  induction fuel generalizing p with
  | zero =>
    intro q hq
    exact ⟨[], hnil, Pos.reads_nil_iff.mpr (List.mem_singleton.mp hq)⟩
  | succ fuel ih =>
    intro q hq
    rcases List.mem_cons.mp hq with rfl | hq
    · exact ⟨[], hnil, Pos.reads_nil_iff.mpr rfl⟩
    · obtain ⟨m, hm, hq⟩ := List.mem_flatMap.mp hq
      split at hq
      · obtain ⟨w, hw, hpm⟩ := hstep p m hm
        obtain ⟨v, hv, hmq⟩ := ih m q hq
        exact ⟨w ++ v, happend w v hw hv, hpm.append hmq⟩
      · cases hq

/-- Any number of characters of a class. -/
theorem mem_ends_star_one :
    q ∈ ends u (star (one f)) p ↔ ∃ w, (∀ c ∈ w, f u c = true) ∧ p.Reads w q := by
  constructor
  · refine reads_of_mem_iterate (by simp) ?_ ?_ _ p q
    · intro w v hw hv c hc
      rcases List.mem_append.mp hc with hc | hc
      · exact hw c hc
      · exact hv c hc
    · intro p q hq
      obtain ⟨c, hc, hread⟩ := mem_ends_one.mp hq
      exact ⟨[c], by simpa using hc, hread⟩
  · rintro ⟨w, hw, hread⟩
    have hturns : ∀ (fuel : ℕ) (p : Pos) (w : List Char), (∀ c ∈ w, f u c = true) →
        p.Reads w q → w.length ≤ fuel → q ∈ iterate (ends u (one f)) fuel p := by
      intro fuel
      induction fuel with
      | zero =>
        intro p w _ hread hlen
        rw [List.length_eq_zero_iff.mp (Nat.le_zero.mp hlen), Pos.reads_nil_iff] at hread
        exact List.mem_singleton.mpr hread
      | succ fuel ih =>
        intro p w hw hread hlen
        cases w with
        | nil => exact List.mem_cons.mpr (Or.inl (Pos.reads_nil_iff.mp hread))
        | cons c w =>
          obtain ⟨m, hc, hm⟩ := Pos.reads_cons_iff.mp hread
          refine List.mem_cons.mpr (Or.inr (List.mem_flatMap.mpr ⟨m, ?_, ?_⟩))
          · exact mem_ends_one.mpr ⟨c, hw c List.mem_cons_self, hc⟩
          · have hmoves : m.rest.length < p.rest.length := by
              rw [hc.1]
              simp
            rw [if_pos hmoves]
            refine ih m w (fun x hx => hw x (List.mem_cons_of_mem _ hx)) hm ?_
            simpa using hlen
    refine hturns _ p w hw hread ?_
    rw [hread.1, List.length_append]
    exact Nat.le_add_right _ _

/-! ## What a match is made of -/

/-- Only characters of the class are read. -/
def Consumes (u : Unicode) (P : Char → Prop) (r : Regex) : Prop :=
  ∀ p, ∀ q ∈ ends u r p, ∃ w : List Char, (∀ c ∈ w, P c) ∧ p.Reads w q

section

variable {P : Char → Prop}

theorem consumes_empty : Consumes u P empty := fun _ _ hq =>
  ⟨[], by simp, mem_ends_empty.mp hq⟩

theorem consumes_one (h : ∀ c, f u c = true → P c) : Consumes u P (one f) := by
  intro p q hq
  obtain ⟨c, hc, hread⟩ := mem_ends_one.mp hq
  exact ⟨[c], by simpa using h c hc, hread⟩

theorem forall_mem_append_of {w v : List Char} (hw : ∀ c ∈ w, P c) (hv : ∀ c ∈ v, P c) :
    ∀ c ∈ w ++ v, P c := by
  intro c hc
  rcases List.mem_append.mp hc with hc | hc
  · exact hw c hc
  · exact hv c hc

theorem Consumes.seq (hr : Consumes u P r) (hs : Consumes u P s) : Consumes u P (seq r s) := by
  intro p q hq
  obtain ⟨m, hm, hq⟩ := mem_ends_seq.mp hq
  obtain ⟨w, hw, hpm⟩ := hr p m hm
  obtain ⟨v, hv, hmq⟩ := hs m q hq
  exact ⟨w ++ v, forall_mem_append_of hw hv, hpm.append hmq⟩

theorem consumes_seqs {rs : List Regex} (h : ∀ r ∈ rs, Consumes u P r) :
    Consumes u P (seqs rs) := by
  induction rs with
  | nil => exact consumes_empty
  | cons r rs ih =>
    exact (h r List.mem_cons_self).seq (ih fun s hs => h s (List.mem_cons_of_mem _ hs))

theorem Consumes.star (h : Consumes u P r) : Consumes u P (star r) := fun p =>
  reads_of_mem_iterate (by simp) (fun _ _ => forall_mem_append_of) h _ p

theorem Consumes.atLeast (n : ℕ) (h : Consumes u P r) : Consumes u P (atLeast n r) :=
  (consumes_seqs fun s hs => by
    rw [List.eq_of_mem_replicate hs]
    exact h).seq h.star

end

/-! ## A search -/

/-- Only at the start of a text does nothing stand before. -/
theorem Pos.reads_nil_of_start {text : List Char} (h : Pos.Reads ⟨none, text⟩ w p)
    (hp : p.before = none) : w = [] := by
  have hlast := h.2
  rw [hp, Option.or_none] at hlast
  exact List.getLast?_eq_none_iff.mp hlast.symm

theorem mem_positions {before : Option Char} {text : List Char} :
    p ∈ positions before text ↔ ∃ w, Pos.Reads ⟨before, text⟩ w p := by
  induction text generalizing before with
  | nil =>
    rw [positions, List.mem_singleton]
    constructor
    · rintro rfl
      exact ⟨[], Pos.reads_nil_iff.mpr rfl⟩
    · rintro ⟨w, hw⟩
      have hnil : w = [] := (List.append_eq_nil_iff.mp hw.1.symm).1
      subst hnil
      exact Pos.reads_nil_iff.mp hw
  | cons c text ih =>
    rw [positions, List.mem_cons, ih]
    constructor
    · rintro (rfl | ⟨w, hw⟩)
      · exact ⟨[], Pos.reads_nil_iff.mpr rfl⟩
      · exact ⟨c :: w, Pos.reads_cons_iff.mpr ⟨⟨some c, text⟩, ⟨rfl, rfl⟩, hw⟩⟩
    · rintro ⟨w, hw⟩
      cases w with
      | nil => exact Or.inl (Pos.reads_nil_iff.mp hw)
      | cons d w =>
        obtain ⟨hrest, hbefore⟩ := hw
        simp only [List.cons_append, List.cons.injEq] at hrest
        refine Or.inr ⟨w, hrest.2, ?_⟩
        rw [hbefore, List.getLast?_cons, hrest.1]
        cases w.getLast? <;> rfl

theorem isMatch_iff {text : List Char} :
    isMatch u r text = true ↔ ∃ w p q, Pos.Reads ⟨none, text⟩ w p ∧ q ∈ ends u r p := by
  rw [isMatch, List.any_eq_true]
  constructor
  · rintro ⟨p, hp, hne⟩
    obtain ⟨w, hw⟩ := mem_positions.mp hp
    obtain ⟨q, hq⟩ := List.exists_mem_of_ne_nil _ (show ends u r p ≠ [] by simpa using hne)
    exact ⟨w, p, q, hw, hq⟩
  · rintro ⟨w, p, q, hw, hq⟩
    refine ⟨p, mem_positions.mpr ⟨w, hw⟩, ?_⟩
    simpa using List.ne_nil_of_mem hq

theorem beforeMatch_of_not_isMatch {text : List Char} (h : isMatch u r text = false) :
    beforeMatch u r text = text := by
  have hnone : (positions none text).find? (fun p => !(r.ends u p).isEmpty) = none := by
    rw [List.find?_eq_none]
    intro p hp hne
    rw [isMatch, List.any_eq_false] at h
    exact h p hp hne
  rw [beforeMatch, hnone]

/-- The first position that is looked for, where it comes after `w`. -/
theorem find?_positions {P : Pos → Bool} {before : Option Char} {rest : List Char}
    (hfound : P ⟨w.getLast?.or before, rest⟩ = true)
    (hfirst : ∀ w₁ w₂, w = w₁ ++ w₂ → w₂ ≠ [] →
      P ⟨w₁.getLast?.or before, w₂ ++ rest⟩ = false) :
    (positions before (w ++ rest)).find? P = some ⟨w.getLast?.or before, rest⟩ := by
  induction w generalizing before with
  | nil =>
    have hhere : P ⟨before, rest⟩ = true := hfound
    cases rest with
    | nil => simp [positions, hhere]
    | cons c rest => simp [positions, hhere]
  | cons c w ih =>
    have hlast : ∀ v : List Char, (c :: v).getLast?.or before = v.getLast?.or (some c) := by
      intro v
      rw [List.getLast?_cons]
      cases v.getLast? <;> rfl
    have hhere : P ⟨before, c :: (w ++ rest)⟩ = false := hfirst [] (c :: w) rfl (by simp)
    rw [List.cons_append, positions, List.find?_cons_of_neg (by simpa using hhere), hlast]
    rw [hlast] at hfound
    refine ih hfound fun w₁ w₂ hw hne => ?_
    rw [← hlast]
    exact hfirst (c :: w₁) w₂ (by rw [hw, List.cons_append]) hne

/-- What stands before the first match. -/
theorem beforeMatch_of_first {rest : List Char} (hfound : ends u r ⟨w.getLast?, rest⟩ ≠ [])
    (hfirst : ∀ w₁ w₂, w = w₁ ++ w₂ → w₂ ≠ [] → ends u r ⟨w₁.getLast?, w₂ ++ rest⟩ = []) :
    beforeMatch u r (w ++ rest) = w := by
  have hfind : (positions none (w ++ rest)).find? (fun p => !(r.ends u p).isEmpty) =
      some ⟨w.getLast?.or none, rest⟩ := by
    refine find?_positions ?_ fun w₁ w₂ hw hne => ?_
    · rw [Option.or_none]
      simpa using hfound
    · rw [Option.or_none, hfirst w₁ w₂ hw hne]
      rfl
  rw [beforeMatch, hfind]
  simp

/-- A text with a match has a first one. -/
theorem exists_first {text : List Char} (h : isMatch u r text = true) :
    ∃ w rest, text = w ++ rest ∧ ends u r ⟨w.getLast?, rest⟩ ≠ [] ∧
      ∀ w₁ w₂, w = w₁ ++ w₂ → w₂ ≠ [] → ends u r ⟨w₁.getLast?, w₂ ++ rest⟩ = [] := by
  have hexists : ∃ n w rest, text = w ++ rest ∧ w.length = n ∧
      ends u r ⟨w.getLast?, rest⟩ ≠ [] := by
    obtain ⟨w, p, q, hread, hq⟩ := isMatch_iff.mp h
    have hp : p = ⟨w.getLast?, p.rest⟩ := by
      have hbefore := hread.2
      rw [Option.or_none] at hbefore
      rw [← hbefore]
    rw [hp] at hq
    exact ⟨w.length, w, p.rest, hread.1, rfl, List.ne_nil_of_mem hq⟩
  classical
  obtain ⟨w, rest, htext, hlen, hmatch⟩ := Nat.find_spec hexists
  refine ⟨w, rest, htext, hmatch, fun w₁ w₂ hw hne => ?_⟩
  by_contra hearlier
  have hshort : w₁.length < w.length := by
    rw [hw, List.length_append]
    have := List.length_pos_of_ne_nil hne
    omega
  rw [hlen] at hshort
  exact Nat.find_min hexists hshort
    ⟨w₁, w₂ ++ rest, by rw [htext, hw, List.append_assoc], rfl, hearlier⟩

end

end Regex

end Infra
