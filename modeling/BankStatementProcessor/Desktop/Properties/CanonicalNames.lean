import BankStatementProcessor.Desktop.PartyMaster
import Mathlib.Data.List.Dedup
import Mathlib.Data.List.Nodup

/-!
# Canonical names

What a name is replaced by is read off the entries of the table of signatures. It is the same in
every order just where no order decides which form of a name is kept.
-/

namespace Desktop

open Infra

/-! ## The table of signatures -/

section

variable {u : Unicode} {raws raws' : List (List Char)} {n : List Char}

/-- The signature of the form of a name. -/
def nameSignature (u : Unicode) (n : List Char) : List Char := signature u (normalizeLedgerName u n)

theorem sigMapOf_append (raws raws' : List (List Char)) :
    sigMapOf u (raws ++ raws') = raws'.foldl (addSignature u) (sigMapOf u raws) :=
  List.foldl_append

theorem subset_addSignature (m : List (List Char × List Char)) (raw : List Char) :
    m ⊆ addSignature u m raw := by
  unfold addSignature
  split
  · exact List.Subset.refl m
  · dsimp only
    split
    · exact List.Subset.refl m
    · exact List.subset_append_left _ _

/-- What is under a signature stays. -/
theorem subset_sigMapOf_append (raws raws' : List (List Char)) :
    sigMapOf u raws ⊆ sigMapOf u (raws ++ raws') := by
  rw [sigMapOf_append]
  generalize sigMapOf u raws = m
  induction raws' generalizing m with
  | nil => exact List.Subset.refl m
  | cons raw raws' ih => exact List.Subset.trans (subset_addSignature m raw) (ih _)

theorem mem_sigMapOf {e : List Char × List Char} (h : e ∈ sigMapOf u raws) :
    ∃ n ∈ raws, 2 ≤ len n ∧ e = (nameSignature u n, normalizeLedgerName u n) := by
  induction raws using List.reverseRecOn with
  | nil => cases h
  | append_singleton raws raw ih =>
    have hbefore : e ∈ sigMapOf u raws → ∃ n ∈ raws ++ [raw], 2 ≤ len n ∧
        e = (nameSignature u n, normalizeLedgerName u n) := by
      intro hmem
      obtain ⟨n, hn, hform⟩ := ih hmem
      exact ⟨n, List.mem_append_left _ hn, hform⟩
    rw [sigMapOf_append, List.foldl_cons, List.foldl_nil] at h
    unfold addSignature at h
    split at h
    · exact hbefore h
    · next hlen =>
      dsimp only at h
      split at h
      · exact hbefore h
      · rcases List.mem_append.mp h with h | h
        · exact hbefore h
        · exact ⟨raw, by simp, Nat.le_of_not_lt hlen, List.mem_singleton.mp h⟩

theorem exists_mem_sigMapOf (hn : n ∈ raws) (hlen : 2 ≤ len n) :
    ∃ c, (nameSignature u n, c) ∈ sigMapOf u raws := by
  obtain ⟨before, behind, rfl⟩ := List.append_of_mem hn
  have hadded : ∃ c, (nameSignature u n, c) ∈ sigMapOf u (before ++ [n]) := by
    rw [sigMapOf_append, List.foldl_cons, List.foldl_nil, addSignature, if_neg (by omega)]
    dsimp only
    split
    · next hany =>
      obtain ⟨e, he, heq⟩ := List.any_eq_true.mp hany
      exact ⟨e.2, by rw [nameSignature, ← of_decide_eq_true heq]; exact he⟩
    · exact ⟨_, List.mem_append_right _ (List.mem_singleton.mpr rfl)⟩
  obtain ⟨c, hc⟩ := hadded
  refine ⟨c, ?_⟩
  rw [← List.singleton_append, ← List.append_assoc]
  exact subset_sigMapOf_append _ _ hc

/-- A signature stands there once. -/
theorem nodup_sigMapOf : ((sigMapOf u raws).map Prod.fst).Nodup := by
  induction raws using List.reverseRecOn with
  | nil => exact .nil
  | append_singleton raws raw ih =>
    rw [sigMapOf_append, List.foldl_cons, List.foldl_nil]
    unfold addSignature
    split
    · exact ih
    · dsimp only
      split
      · exact ih
      · next hany =>
        rw [List.map_append]
        refine (List.perm_append_singleton _ _).nodup_iff.mpr (List.nodup_cons.mpr ⟨?_, ih⟩)
        intro hmem
        obtain ⟨e, he, heq⟩ := List.mem_map.mp hmem
        exact hany (List.any_eq_true.mpr ⟨e, he, decide_eq_true heq⟩)

/-- The first names give the forms that are kept. -/
theorem mem_sigMapOf_first (hlen : 2 ≤ len n) (rest : List (List Char)) :
    (nameSignature u n, normalizeLedgerName u n) ∈ sigMapOf u (n :: rest) := by
  refine subset_sigMapOf_append [n] rest ?_
  rw [sigMapOf, List.foldl_cons, List.foldl_nil, addSignature, if_neg (by omega)]
  exact List.mem_singleton.mpr rfl

theorem mem_sigMapOf_second {n' : List Char} (hlen : 2 ≤ len n) (hlen' : 2 ≤ len n')
    (hne : nameSignature u n ≠ nameSignature u n') (rest : List (List Char)) :
    (nameSignature u n', normalizeLedgerName u n') ∈ sigMapOf u (n :: n' :: rest) := by
  have hfirst : sigMapOf u [n] = [(nameSignature u n, normalizeLedgerName u n)] := by
    rw [sigMapOf, List.foldl_cons, List.foldl_nil, addSignature, if_neg (by omega)]
    rfl
  refine subset_sigMapOf_append [n, n'] rest ?_
  have hboth : sigMapOf u [n, n'] = addSignature u (sigMapOf u [n]) n' := rfl
  rw [hboth, hfirst, addSignature, if_neg (by omega)]
  dsimp only
  have hany : ¬([(nameSignature u n, normalizeLedgerName u n)].any
      fun e => decide (e.1 = signature u (normalizeLedgerName u n'))) = true := by
    simpa [nameSignature] using hne
  rw [if_neg hany]
  exact List.mem_append_right _ (List.mem_singleton.mpr rfl)

end

/-! ## The longer name -/

section

variable {u : Unicode} {weight : List Char → ℕ} {m : List (List Char × List Char)}
  {o : HashOrder (List Char × List Char)} {e e' : List Char × List Char} {s c : List Char}

/-- `a` is no better than `b`. -/
def NoBetter (weight : List Char → ℕ) (a b : List Char × List Char) : Prop :=
  weight a.1 < weight b.1 ∨ (weight a.1 = weight b.1 ∧ ¬a.2 < b.2)

theorem ranks_isBetter (weight : List Char → ℕ) :
    Ranks (isBetter weight) (NoBetter weight) where
  refl a := Or.inr ⟨rfl, List.lt_irrefl _⟩
  trans a b d hab hbd := by
    rcases hab with hab | ⟨hab, hab'⟩
    · rcases hbd with hbd | ⟨hbd, -⟩
      · exact Or.inl (hab.trans hbd)
      · exact Or.inl (hbd ▸ hab)
    · rcases hbd with hbd | ⟨hbd, hbd'⟩
      · exact Or.inl (hab ▸ hbd)
      · refine Or.inr ⟨hab.trans hbd, ?_⟩
        exact List.le_trans (List.not_lt.mp hbd') (List.not_lt.mp hab')
  of_true a b h := by
    simp only [isBetter, Bool.or_eq_true, Bool.and_eq_true, decide_eq_true_eq, beq_iff_eq] at h
    rcases h with h | ⟨h, h'⟩
    · exact Or.inl h
    · exact Or.inr ⟨h.symm, List.lt_asymm h'⟩
  of_false a b h := by
    simp only [isBetter, Bool.or_eq_false_iff, Bool.and_eq_false_iff, decide_eq_false_iff_not,
      beq_eq_false_iff_ne] at h
    obtain ⟨hweight, hname⟩ := h
    rcases Nat.lt_or_eq_of_le (Nat.le_of_not_lt hweight) with hlt | heq
    · exact Or.inl hlt
    · exact Or.inr ⟨heq, hname.resolve_left (fun hne => hne heq)⟩

/-- Two that are no better than each other have one form. -/
theorem NoBetter.antisymm {a b : List Char × List Char} (hab : NoBetter weight a b)
    (hba : NoBetter weight b a) : a.2 = b.2 := by
  rcases hab with hab | ⟨heq, hab⟩
  · rcases hba with hba | ⟨hba, -⟩ <;> omega
  · rcases hba with hba | ⟨-, hba⟩
    · omega
    · exact List.le_antisymm (List.not_lt.mp hba) (List.not_lt.mp hab)

/-- A longer name that a name may lead to. -/
def IsLonger (u : Unicode) (short long : List Char × List Char) : Prop :=
  short.1 ≠ long.1 ∧ isPartialNameOf u short.2 long.2 = true

theorem bestLong_eq (u : Unicode) (weight : List Char → ℕ) (sigs : List (List Char × List Char))
    (short : List Char × List Char) :
    bestLong u weight sigs short = bestBy (isBetter weight)
      (sigs.filter fun long => !(short.1 = long.1 || !isPartialNameOf u short.2 long.2)) := by
  unfold bestLong bestBy
  rw [List.foldl_filter]
  refine List.foldl_ext _ _ _ fun best long _ => ?_
  cases short.1 = long.1 || !isPartialNameOf u short.2 long.2 <;> cases best <;> simp

theorem mem_longer_iff {sigs : List (List Char × List Char)} {short long : List Char × List Char} :
    long ∈ sigs.filter (fun long => !(short.1 = long.1 || !isPartialNameOf u short.2 long.2)) ↔
      long ∈ sigs ∧ IsLonger u short long := by
  simp [IsLonger]

/-- An entry is found under its signature. -/
theorem find?_of_mem (hnodup : (m.map Prod.fst).Nodup) (he : e ∈ m) :
    m.find? (·.1 = e.1) = some e := by
  cases hfind : m.find? (·.1 = e.1) with
  | none => exact absurd (List.find?_eq_none.mp hfind e he) (by simp)
  | some e' =>
    have hfound := List.find?_some hfind
    have hsame : e'.1 = e.1 := by simpa using hfound
    rw [List.inj_on_of_nodup_map hnodup (List.mem_of_find?_eq_some hfind) he hsame]

/-- What a signature is resolved to. -/
def resolvedName (u : Unicode) (weight : List Char → ℕ) (o : HashOrder (List Char × List Char))
    (m : List (List Char × List Char)) (s : List Char) : Option (List Char) :=
  partialRemap u weight (o.order m) s <|> (m.find? (·.1 = s)).map (·.2)

theorem resolvedName_of_not_mem (h : ∀ e ∈ m, e.1 ≠ s) : resolvedName u weight o m s = none := by
  have hnone : ∀ l : List (List Char × List Char), (∀ e ∈ l, e ∈ m) →
      l.find? (·.1 = s) = none := fun l hl =>
    List.find?_eq_none.mpr fun e he => by simpa using h e (hl e he)
  rw [resolvedName, partialRemap, hnone (o.order m) fun e he => o.mem_order.mp he,
    hnone m fun e he => he]
  rfl

theorem resolvedName_eq (hnodup : (m.map Prod.fst).Nodup) (he : e ∈ m) :
    resolvedName u weight o m e.1 =
      some ((bestLong u weight (o.order m) e).elim e.2 (·.2)) := by
  have horder : ((o.order m).map Prod.fst).Nodup := ((o.perm m).map _).nodup_iff.mpr hnodup
  rw [resolvedName, partialRemap, find?_of_mem horder (o.mem_order.mpr he), find?_of_mem hnodup he,
    Option.bind_some]
  cases bestLong u weight (o.order m) e <;> rfl

/-- A name that is no part of another keeps its form. -/
theorem resolvedName_of_no_longer (weight : List Char → ℕ)
    (o : HashOrder (List Char × List Char)) (hnodup : (m.map Prod.fst).Nodup) (he : e ∈ m)
    (h : ∀ e' ∈ m, ¬IsLonger u e e') : resolvedName u weight o m e.1 = some e.2 := by
  have hnone : bestLong u weight (o.order m) e = none := by
    have hnil : (o.order m).filter
        (fun long => !(e.1 = long.1 || !isPartialNameOf u e.2 long.2)) = [] := by
      rw [List.eq_nil_iff_forall_not_mem]
      intro e' he'
      obtain ⟨hmem, hlonger⟩ := mem_longer_iff.mp he'
      exact h e' (o.mem_order.mp hmem) hlonger
    rw [bestLong_eq, hnil]
    rfl
  rw [resolvedName_eq hnodup he, hnone]
  rfl

/-- Any other name leads to a longer one that none is better than. -/
theorem resolvedName_of_longer (weight : List Char → ℕ)
    (o : HashOrder (List Char × List Char)) (hnodup : (m.map Prod.fst).Nodup) (he : e ∈ m)
    (he' : e' ∈ m) (h : IsLonger u e e') : ∃ b ∈ m, IsLonger u e b ∧
      resolvedName u weight o m e.1 = some b.2 ∧
      ∀ e'' ∈ m, IsLonger u e e'' → NoBetter weight e'' b := by
  have hne : (o.order m).filter
      (fun long => !(e.1 = long.1 || !isPartialNameOf u e.2 long.2)) ≠ [] :=
    List.ne_nil_of_mem (mem_longer_iff.mpr ⟨o.mem_order.mpr he', h⟩)
  obtain ⟨b, hbest, hb, hworse⟩ := bestBy_spec (ranks_isBetter weight) hne
  obtain ⟨hmem, hlonger⟩ := mem_longer_iff.mp hb
  refine ⟨b, o.mem_order.mp hmem, hlonger, ?_, fun e'' he'' hlonger'' => ?_⟩
  · rw [resolvedName_eq hnodup he, bestLong_eq, hbest]
    rfl
  · exact hworse e'' (mem_longer_iff.mpr ⟨o.mem_order.mpr he'', hlonger''⟩)

/-- It is a form that stands in the table. -/
theorem exists_mem_of_resolvedName {r : List Char} (h : resolvedName u weight o m s = some r) :
    ∃ e ∈ m, e.2 = r := by
  unfold resolvedName at h
  cases hremap : partialRemap u weight (o.order m) s with
  | some r' =>
    rw [hremap] at h
    obtain rfl : r' = r := Option.some.inj h
    obtain ⟨short, -, hlong⟩ := Option.bind_eq_some_iff.mp hremap
    obtain ⟨b, hbest, rfl⟩ := Option.map_eq_some_iff.mp hlong
    rw [bestLong_eq] at hbest
    have hne : (o.order m).filter
        (fun long => !(short.1 = long.1 || !isPartialNameOf u short.2 long.2)) ≠ [] := by
      intro hnil
      rw [hnil] at hbest
      cases hbest
    obtain ⟨b', hbest', hb', -⟩ := bestBy_spec (ranks_isBetter weight) hne
    obtain rfl : b' = b := Option.some.inj (hbest'.symm.trans hbest)
    exact ⟨b', o.mem_order.mp (mem_longer_iff.mp hb').1, rfl⟩
  | none =>
    rw [hremap] at h
    obtain ⟨e, hfind, rfl⟩ := Option.map_eq_some_iff.mp h
    exact ⟨e, List.mem_of_find?_eq_some hfind, rfl⟩

end

/-! ## One name in every order -/

section

variable {u : Unicode} {names : List (List Char)} {weight : List Char → ℕ} {s c : List Char}

/-- `c` is a form of the names that have the signature `s`. -/
def IsForm (u : Unicode) (names : List (List Char)) (s c : List Char) : Prop :=
  ∃ n ∈ names, 2 ≤ len n ∧ nameSignature u n = s ∧ normalizeLedgerName u n = c

/-- There is one form of `s` at most, and it is no part of a form of another signature. -/
def KeepsItsForm (u : Unicode) (names : List (List Char)) (s : List Char) : Prop :=
  (∀ c c', IsForm u names s c → IsForm u names s c' → c = c') ∧
    ∀ c s' c', IsForm u names s c → IsForm u names s' c' → ¬IsLonger u (s, c) (s', c')

/-- `e` is the only form of its signature, all forms of `s` are a part of it, and of the forms that
one of these is a part of none is better than `e`. -/
def LeadsTo (u : Unicode) (names : List (List Char)) (weight : List Char → ℕ) (s : List Char)
    (e : List Char × List Char) : Prop :=
  (∀ c, IsForm u names e.1 c ↔ c = e.2) ∧
    ∀ c, IsForm u names s c → IsLonger u (s, c) e ∧
      ∀ s' c', IsForm u names s' c' → IsLonger u (s, c) (s', c') → NoBetter weight (s', c') e

/-- No order decides what becomes of the names that have the signature `s`. -/
def HasOneName (u : Unicode) (names : List (List Char)) (weight : List Char → ℕ)
    (s : List Char) : Prop :=
  KeepsItsForm u names s ∨ ∃ e, LeadsTo u names weight s e

theorem IsForm.signature_eq (h : IsForm u names s c) : signature u c = s := by
  obtain ⟨n, -, -, rfl, rfl⟩ := h
  rfl

theorem IsForm.of_mem {raws : List (List Char)} (hsubset : ∀ n ∈ raws, n ∈ names)
    {e : List Char × List Char} (he : e ∈ sigMapOf u raws) : IsForm u names e.1 e.2 := by
  obtain ⟨n, hn, hlen, rfl⟩ := mem_sigMapOf he
  exact ⟨n, hsubset n hn, hlen, rfl, rfl⟩

theorem IsForm.exists_mem {raws : List (List Char)} (hsubset : ∀ n ∈ names, n ∈ raws)
    (h : IsForm u names s c) : ∃ c', (s, c') ∈ sigMapOf u raws := by
  obtain ⟨n, hn, hlen, rfl, -⟩ := h
  exact exists_mem_sigMapOf (hsubset n hn) hlen

/-- A form that is kept in some order. -/
theorem IsForm.exists_perm (h : IsForm u names s c) :
    ∃ raws, raws.Perm names ∧ (s, c) ∈ sigMapOf u raws := by
  obtain ⟨n, hn, hlen, rfl, rfl⟩ := h
  exact ⟨n :: names.erase n, (List.perm_cons_erase hn).symm, mem_sigMapOf_first hlen _⟩

/-- Forms of two signatures are kept together in some order. -/
theorem IsForm.exists_perm_two {s' c' : List Char} (h : IsForm u names s c)
    (h' : IsForm u names s' c') (hne : s ≠ s') :
    ∃ raws, raws.Perm names ∧ (s, c) ∈ sigMapOf u raws ∧ (s', c') ∈ sigMapOf u raws := by
  obtain ⟨n, hn, hlen, rfl, rfl⟩ := h
  obtain ⟨n', hn', hlen', rfl, rfl⟩ := h'
  have hnames : n ≠ n' := fun heq => hne (heq ▸ rfl)
  have hleft : n' ∈ names.erase n := (List.mem_erase_of_ne hnames.symm).mpr hn'
  refine ⟨n :: n' :: (names.erase n).erase n', ?_, mem_sigMapOf_first hlen _,
    mem_sigMapOf_second hlen hlen' hne _⟩
  exact ((List.perm_cons_erase hleft).symm.cons n).trans (List.perm_cons_erase hn).symm

/-- Where no order decides, all give the same name. -/
theorem HasOneName.exists_eq (h : HasOneName u names weight s) :
    ∃ r, ∀ (o : HashOrder (List Char × List Char)) (raws : List (List Char)),
      (∀ n, n ∈ raws ↔ n ∈ names) → resolvedName u weight o (sigMapOf u raws) s = r := by
  by_cases hform : ∃ c, IsForm u names s c
  · obtain ⟨c, hc⟩ := hform
    rcases h with ⟨hone, hlonger⟩ | ⟨e, hone, hlonger⟩
    · refine ⟨some c, fun o raws hraws => ?_⟩
      obtain ⟨c', hc'⟩ := hc.exists_mem fun n hn => (hraws n).mpr hn
      have hform' : IsForm u names s c' := .of_mem (fun n hn => (hraws n).mp hn) hc'
      obtain rfl : c' = c := hone c' c hform' hc
      refine resolvedName_of_no_longer _ _ (e := (s, c')) nodup_sigMapOf hc' fun e he => ?_
      exact hlonger c' e.1 e.2 hc (.of_mem (fun n hn => (hraws n).mp hn) he)
    · refine ⟨some e.2, fun o raws hraws => ?_⟩
      have hof : ∀ e' ∈ sigMapOf u raws, IsForm u names e'.1 e'.2 :=
        fun e' he' => .of_mem (fun n hn => (hraws n).mp hn) he'
      obtain ⟨c', hc'⟩ := hc.exists_mem fun n hn => (hraws n).mpr hn
      obtain ⟨r, hr⟩ := ((hone e.2).mpr rfl).exists_mem fun n hn => (hraws n).mpr hn
      obtain rfl : r = e.2 := (hone r).mp (hof _ hr)
      obtain ⟨hpart, hworse⟩ := hlonger c' (hof _ hc')
      obtain ⟨b, hb, hpart', hresolved, hbest⟩ :=
        resolvedName_of_longer weight o nodup_sigMapOf hc' hr hpart
      rw [hresolved, (hworse b.1 b.2 (hof b hb) hpart').antisymm (hbest e hr hpart)]
  · refine ⟨none, fun o raws hraws => resolvedName_of_not_mem fun e he heq => hform ⟨e.2, ?_⟩⟩
    exact heq ▸ .of_mem (fun n hn => (hraws n).mp hn) he

/-- Where all orders give the same name, none decides. -/
theorem hasOneName_of_eq {r : Option (List Char)}
    (h : ∀ raws, raws.Perm names →
      resolvedName u weight .asMade (sigMapOf u raws) s = r) : HasOneName u names weight s := by
  by_cases hpart : ∃ c s' c', IsForm u names s c ∧ IsForm u names s' c' ∧
      IsLonger u (s, c) (s', c')
  · right
    obtain ⟨c, s', c', hc, hc', hlonger⟩ := hpart
    obtain ⟨raws, hperm, hmem, hmem'⟩ := hc.exists_perm_two hc' hlonger.1
    obtain ⟨e, he, hlonger, hresolved, -⟩ :=
      resolvedName_of_longer weight .asMade nodup_sigMapOf hmem hmem' hlonger
    have hr : r = some e.2 := (h raws hperm).symm.trans hresolved
    subst hr
    have hform : IsForm u names e.1 e.2 := .of_mem (fun n hn => hperm.mem_iff.mp hn) he
    -- an entry of any table that has the name of `e` is `e`
    have hsame : ∀ raws, raws.Perm names → ∀ e' ∈ sigMapOf u raws, e'.2 = e.2 → e' = e := by
      intro raws hperm e' he' heq
      have hform' : IsForm u names e'.1 e'.2 := .of_mem (fun n hn => hperm.mem_iff.mp hn) he'
      refine Prod.ext ?_ heq
      rw [← hform'.signature_eq, heq, hform.signature_eq]
    refine ⟨e, fun c => ⟨fun hc => ?_, fun heq => heq ▸ hform⟩, fun c hc => ⟨?_, ?_⟩⟩
    · obtain ⟨raws, hperm, hmem⟩ := hc.exists_perm
      obtain ⟨e', he', heq⟩ := exists_mem_of_resolvedName (h raws hperm)
      obtain rfl := hsame raws hperm e' he' heq
      have hentry : (e'.1, c) = e' := List.inj_on_of_nodup_map nodup_sigMapOf hmem he' rfl
      rw [← hentry]
    · obtain ⟨raws, hperm, hmem⟩ := hc.exists_perm
      by_cases hlong : ∃ e' ∈ sigMapOf u raws, IsLonger u (s, c) e'
      · obtain ⟨e', he', hlonger'⟩ := hlong
        obtain ⟨b, hb, hlonger', hresolved', -⟩ :=
          resolvedName_of_longer weight .asMade nodup_sigMapOf hmem he' hlonger'
        rw [h raws hperm] at hresolved'
        obtain rfl := hsame raws hperm b hb (Option.some.inj hresolved').symm
        exact hlonger'
      · have hresolved' := resolvedName_of_no_longer weight .asMade
          nodup_sigMapOf hmem fun e' he' hlonger' => hlong ⟨e', he', hlonger'⟩
        rw [h raws hperm] at hresolved'
        have heq := hsame raws hperm (s, c) hmem (Option.some.inj hresolved').symm
        exact absurd (congrArg Prod.fst heq) hlonger.1
    · intro s' c' hc' hlonger'
      obtain ⟨raws, hperm, hmem, hmem'⟩ := hc.exists_perm_two hc' hlonger'.1
      obtain ⟨b, hb, -, hresolved', hbest⟩ :=
        resolvedName_of_longer weight .asMade nodup_sigMapOf hmem hmem' hlonger'
      rw [h raws hperm] at hresolved'
      obtain rfl := hsame raws hperm b hb (Option.some.inj hresolved').symm
      exact hbest (s', c') hmem' hlonger'
  · left
    have hnone : ∀ c s' c', IsForm u names s c → IsForm u names s' c' →
        ¬IsLonger u (s, c) (s', c') :=
      fun c s' c' hc hc' hlonger => hpart ⟨c, s', c', hc, hc', hlonger⟩
    have hname : ∀ c, IsForm u names s c → r = some c := by
      intro c hc
      obtain ⟨raws, hperm, hmem⟩ := hc.exists_perm
      rw [← h raws hperm]
      refine resolvedName_of_no_longer _ _ (e := (s, c)) nodup_sigMapOf hmem fun e he => ?_
      exact hnone c e.1 e.2 hc (.of_mem (fun n hn => hperm.mem_iff.mp hn) he)
    refine ⟨fun c c' hc hc' => ?_, hnone⟩
    exact Option.some.inj ((hname c hc).symm.trans (hname c' hc'))

end

/-! ## The list -/

section

variable {u : Unicode} {txns txns' : List Transaction} {t : Transaction} {n : List Char}
  {table table' : NameTable}

theorem mem_partyNames_iff : n ∈ partyNames u txns ↔
    ∃ t ∈ txns, t.isOpeningBalance = false ∧ (vendorName t = some n ∨ headName u t = some n) := by
  simp [partyNames, and_assoc]

theorem perm_partyNames (h : txns'.Perm txns) :
    (partyNames u txns').Perm (partyNames u txns) :=
  (h.filter _).flatMap_right _

theorem sigWeight_perm (h : txns'.Perm txns) : sigWeight u txns' = sigWeight u txns :=
  funext fun _ => (perm_partyNames h).countP_eq _

theorem hasOneName_dedup {names : List (List Char)} {weight : List Char → ℕ} {s : List Char} :
    HasOneName u names.dedup weight s ↔ HasOneName u names weight s := by
  simp only [HasOneName, KeepsItsForm, LeadsTo, IsForm, List.mem_dedup]

theorem resolved_nameTable (names : HashOrder (List Char))
    (entries : HashOrder (List Char × List Char)) :
    (nameTable u names entries txns).resolved u n =
      resolvedName u (sigWeight u txns) entries
        (sigMapOf u (names.order (partyNames u txns).dedup)) (nameSignature u n) := rfl

/-- The tables of all orders have the same signatures. -/
theorem isSome_resolved_nameTable (names : HashOrder (List Char))
    (entries : HashOrder (List Char × List Char)) :
    ((nameTable u names entries txns).resolved u n).isSome = true ↔
      ∃ c, IsForm u (partyNames u txns) (nameSignature u n) c := by
  have hmem : ∀ n, n ∈ names.order (partyNames u txns).dedup ↔ n ∈ partyNames u txns :=
    fun n => names.mem_order.trans List.mem_dedup
  rw [resolved_nameTable]
  constructor
  · intro hsome
    by_contra hform
    rw [resolvedName_of_not_mem fun e he heq => hform ⟨e.2, ?_⟩] at hsome
    · cases hsome
    · exact heq ▸ .of_mem (fun n hn => (hmem n).mp hn) he
  · rintro ⟨c, hc⟩
    obtain ⟨c', hc'⟩ := hc.exists_mem fun n hn => (hmem n).mpr hn
    rw [resolvedName_eq (e := (nameSignature u n, c')) nodup_sigMapOf hc']
    rfl

/-- A transaction is renamed by what its names are resolved to. -/
theorem renameParty_congr (h : t.isOpeningBalance = false → ∀ n,
    vendorName t = some n ∨ headName u t = some n → table.resolved u n = table'.resolved u n) :
    renameParty u table t = renameParty u table' t := by
  cases hopen : t.isOpeningBalance with
  | true => rw [renameParty, renameParty, if_pos hopen, if_pos hopen]
  | false =>
    have hvendor : (vendorName t).bind (table.resolved u) =
        (vendorName t).bind (table'.resolved u) := by
      cases hname : vendorName t with
      | none => rfl
      | some n => exact h hopen n (Or.inl hname)
    have hhead : (headName u t).bind (table.resolved u) =
        (headName u t).bind (table'.resolved u) := by
      cases hname : headName u t with
      | none => rfl
      | some n => exact h hopen n (Or.inr hname)
    rw [renameParty, renameParty, hvendor, hhead]

theorem getD_ofList_inj {r r' : Option (List Char)} {v : String} (hsome : r.isSome = r'.isSome)
    (h : (r.map String.ofList).getD v = (r'.map String.ofList).getD v) : r = r' := by
  cases r with
  | none => exact (Option.isNone_iff_eq_none.mp (by simpa using hsome.symm)).symm
  | some c =>
    cases r' with
    | none => cases hsome
    | some c' => exact congrArg some (String.ofList_injective h)

/-- What the names of a transaction are resolved to can be read off the renamed one. -/
theorem resolved_eq_of_renameParty_eq (ht : t.isOpeningBalance = false)
    (hn : vendorName t = some n ∨ headName u t = some n)
    (hsome : (table.resolved u n).isSome = (table'.resolved u n).isSome)
    (h : renameParty u table t = renameParty u table' t) :
    table.resolved u n = table'.resolved u n := by
  have hopen : ¬t.isOpeningBalance = true := ne_true_of_eq_false ht
  rw [renameParty, renameParty, if_neg hopen, if_neg hopen] at h
  rcases hn with hname | hname
  · refine getD_ofList_inj (v := t.vendor) hsome ?_
    simpa only [hname, Option.bind_some] using congrArg Transaction.vendor h
  · refine getD_ofList_inj (v := t.accountHead) hsome ?_
    simpa only [hname, Option.bind_some] using congrArg Transaction.accountHead h

/-- The list is renamed in one way in every order of the tables and of the list just where no order
decides what becomes of a name of it. -/
theorem normalizeVendors_order_iff (u : Unicode) (txns : List Transaction) :
    (∀ (names names' : HashOrder (List Char)) (entries entries' : HashOrder (List Char × List Char))
        (txns' : List Transaction), txns'.Perm txns → ∃ rename : Transaction → Transaction,
      (normalizeVendors u names entries txns).1 = txns.map rename ∧
        (normalizeVendors u names' entries' txns').1 = txns'.map rename) ↔
      ∀ n ∈ partyNames u txns,
        HasOneName u (partyNames u txns) (sigWeight u txns) (nameSignature u n) := by
  constructor
  · intro hsame n hn
    obtain ⟨t, ht, hopen, hname⟩ := mem_partyNames_iff.mp hn
    refine hasOneName_dedup.mp (hasOneName_of_eq
      (r := (nameTable u .asMade .asMade txns).resolved u n) fun raws hperm => ?_)
    obtain ⟨rename, hfirst, hsecond⟩ :=
      hsame (.listing _ raws hperm) .asMade .asMade .asMade txns .rfl
    have hrename : renameParty u (nameTable u (.listing _ raws hperm) .asMade txns) t =
        renameParty u (nameTable u .asMade .asMade txns) t :=
      List.map_inj_left.mp (hfirst.trans hsecond.symm) t ht
    have hresolved := resolved_eq_of_renameParty_eq hopen hname
      (Bool.eq_iff_iff.mpr ((isSome_resolved_nameTable _ _).trans
        (isSome_resolved_nameTable _ _).symm)) hrename
    rw [← hresolved, resolved_nameTable, HashOrder.listing_order]
  · intro hone names names' entries entries' txns' hperm
    refine ⟨renameParty u (nameTable u names entries txns), rfl, ?_⟩
    refine List.map_congr_left fun t ht => renameParty_congr fun hopen n hname => ?_
    have hn : n ∈ partyNames u txns :=
      mem_partyNames_iff.mpr ⟨t, hperm.mem_iff.mp ht, hopen, hname⟩
    obtain ⟨r, hr⟩ := (hone n hn).exists_eq
    have hmem : ∀ n, n ∈ names.order (partyNames u txns).dedup ↔ n ∈ partyNames u txns :=
      fun n => names.mem_order.trans List.mem_dedup
    have hmem' : ∀ n, n ∈ names'.order (partyNames u txns').dedup ↔ n ∈ partyNames u txns :=
      fun n => names'.mem_order.trans (List.mem_dedup.trans (perm_partyNames hperm).mem_iff)
    rw [resolved_nameTable, resolved_nameTable, sigWeight_perm hperm, hr entries' _ hmem',
      hr entries _ hmem]

/-- Two traders. -/
def twoTraders : List Transaction :=
  ["ABC TRADERS", "TRADERS ABC"].map fun v => { Transaction.new v with vendor := v }

/-- Of two spellings the hash set decides. -/
theorem hash_order_decides : ¬ ∀ (names names' : HashOrder (List Char))
    (entries entries' : HashOrder (List Char × List Char)) (txns' : List Transaction),
    txns'.Perm twoTraders → ∃ rename : Transaction → Transaction,
      (normalizeVendors .ascii names entries twoTraders).1 = twoTraders.map rename ∧
        (normalizeVendors .ascii names' entries' txns').1 = txns'.map rename := by
  intro hsame
  obtain ⟨rename, hfirst, hsecond⟩ := hsame .asMade .backwards .asMade .asMade twoTraders .rfl
  have hvendors := congrArg (List.map (·.vendor.toList)) (hfirst.trans hsecond.symm)
  have hdiffer : (normalizeVendors .ascii .asMade .asMade twoTraders).1.map (·.vendor.toList) ≠
      (normalizeVendors .ascii .backwards .asMade twoTraders).1.map (·.vendor.toList) := by
    decide +kernel
  exact hdiffer hvendors

end

end Desktop
