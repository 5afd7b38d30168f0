import BankStatementProcessor.Desktop.Properties.CanonicalNames
import Mathlib.Algebra.Order.BigOperators.Group.List

/-!
# Settled names

A second pass reads the names that the first one left. It leaves them just where each is the form
of itself and none is a part of another, whatever forms the first pass kept.
-/

namespace Desktop

open Infra

/-! ## A choice of forms -/

section

variable {u : Unicode} {names raws : List (List Char)} {weight : List Char → ℕ}
  {m : List (List Char × List Char)} {o : HashOrder (List Char × List Char)}
  {pick : List Char → List Char} {e : List Char × List Char} {s c r : List Char}

/-- One form for each signature. -/
def IsChoice (u : Unicode) (names : List (List Char)) (pick : List Char → List Char) : Prop :=
  ∀ s c, IsForm u names s c → IsForm u names s (pick s)

/-- A form that is chosen, with its signature. -/
def IsPicked (u : Unicode) (names : List (List Char)) (pick : List Char → List Char)
    (e : List Char × List Char) : Prop := IsForm u names e.1 e.2 ∧ e.2 = pick e.1

/-- What the chosen forms make of a signature: its form, if that is no part of another, or the best
of those that it is a part of. -/
def BecomesName (u : Unicode) (names : List (List Char)) (weight : List Char → ℕ)
    (pick : List Char → List Char) (s : List Char) (b : List Char × List Char) : Prop :=
  IsPicked u names pick (s, pick s) ∧ IsPicked u names pick b ∧
    ((b.1 = s ∧ ∀ e, IsPicked u names pick e → ¬IsLonger u b e) ∨
      (IsLonger u (s, pick s) b ∧
        ∀ e, IsPicked u names pick e → IsLonger u (s, pick s) e → NoBetter weight e b))

/-- The forms that a table has kept. -/
def keptForm (m : List (List Char × List Char)) (s : List Char) : List Char :=
  ((m.find? (·.1 = s)).map (·.2)).getD []

theorem keptForm_of_mem (hnodup : (m.map Prod.fst).Nodup) (he : e ∈ m) : keptForm m e.1 = e.2 := by
  rw [keptForm, find?_of_mem hnodup he]
  rfl

theorem mem_sigMapOf_iff_isPicked (hraws : ∀ n, n ∈ raws ↔ n ∈ names) :
    e ∈ sigMapOf u raws ↔ IsPicked u names (keptForm (sigMapOf u raws)) e := by
  constructor
  · intro he
    exact ⟨.of_mem (fun n hn => (hraws n).mp hn) he, (keptForm_of_mem nodup_sigMapOf he).symm⟩
  · rintro ⟨hform, heq⟩
    obtain ⟨c, hc⟩ := hform.exists_mem fun n hn => (hraws n).mpr hn
    have hkept : e.2 = c := heq.trans (keptForm_of_mem (e := (e.1, c)) nodup_sigMapOf hc)
    rw [← hkept] at hc
    exact hc

theorem isChoice_keptForm (hraws : ∀ n, n ∈ raws ↔ n ∈ names) :
    IsChoice u names (keptForm (sigMapOf u raws)) := by
  intro s c hform
  obtain ⟨c', hc'⟩ := hform.exists_mem fun n hn => (hraws n).mpr hn
  rw [keptForm_of_mem (e := (s, c')) nodup_sigMapOf hc']
  exact .of_mem (fun n hn => (hraws n).mp hn) hc'

/-- Every choice is kept in some order: the names whose forms are chosen stand first. -/
theorem IsChoice.exists_perm (h : IsChoice u names pick) :
    ∃ raws, raws.Perm names ∧ ∀ e, e ∈ sigMapOf u raws ↔ IsPicked u names pick e := by
  let chosen : List Char → Bool :=
    fun n => 2 ≤ len n && normalizeLedgerName u n = pick (nameSignature u n)
  have hperm : (names.filter chosen ++ names.filter (! chosen ·)).Perm names :=
    List.filter_append_perm chosen names
  have hpicked : ∀ e, IsPicked u names pick e →
      e ∈ sigMapOf u (names.filter chosen ++ names.filter (! chosen ·)) := by
    rintro e ⟨hform, heq⟩
    obtain ⟨n, hn, hlen, hsig, hform⟩ := hform
    have hchosen : n ∈ names.filter chosen := by
      refine List.mem_filter.mpr ⟨hn, ?_⟩
      simp [chosen, hlen, hform, heq, hsig]
    obtain ⟨c, hc⟩ := exists_mem_sigMapOf (u := u) hchosen hlen
    obtain ⟨n', hn', -, hentry⟩ := mem_sigMapOf hc
    have hform' := (List.mem_filter.mp hn').2
    simp only [chosen, Bool.and_eq_true, decide_eq_true_eq] at hform'
    have hc' : e = (nameSignature u n, c) := by
      rw [Prod.mk.injEq] at hentry
      refine Prod.ext hsig.symm ?_
      rw [heq, ← hsig, hentry.1, ← hform'.2, hentry.2]
    rw [hc']
    exact subset_sigMapOf_append _ _ hc
  refine ⟨_, hperm, fun e => ⟨fun he => ?_, hpicked e⟩⟩
  have hform : IsForm u names e.1 e.2 := .of_mem (fun n hn => hperm.mem_iff.mp hn) he
  have hpick : (e.1, pick e.1) ∈ sigMapOf u _ := hpicked (e.1, pick e.1) ⟨h _ _ hform, rfl⟩
  have heq : e = (e.1, pick e.1) := List.inj_on_of_nodup_map nodup_sigMapOf he hpick rfl
  exact ⟨hform, congrArg Prod.snd heq⟩

/-- A table makes of a signature what its forms make of it. -/
theorem resolvedName_eq_some_iff (hnodup : (m.map Prod.fst).Nodup)
    (hm : ∀ e, e ∈ m ↔ IsPicked u names pick e) : resolvedName u weight o m s = some r ↔
      ∃ b, BecomesName u names weight pick s b ∧ b.2 = r := by
  constructor
  · intro hresolved
    have hentry : (s, pick s) ∈ m := by
      by_contra hnone
      rw [resolvedName_of_not_mem fun e he heq => hnone ?_] at hresolved
      · cases hresolved
      · have hpicked := ((hm e).mp he).2
        rw [heq] at hpicked
        rw [← hpicked, ← heq]
        exact he
    by_cases hlonger : ∃ e ∈ m, IsLonger u (s, pick s) e
    · obtain ⟨e, he, hlonger⟩ := hlonger
      obtain ⟨b, hb, hlonger, hname, hbest⟩ :=
        resolvedName_of_longer weight o hnodup hentry he hlonger
      refine ⟨b, ⟨(hm _).mp hentry, (hm _).mp hb, Or.inr ⟨hlonger, fun e he => ?_⟩⟩, ?_⟩
      · exact hbest e ((hm e).mpr he)
      · exact Option.some.inj (hname.symm.trans hresolved)
    · have hname := resolvedName_of_no_longer weight o hnodup hentry
        fun e he hlong => hlonger ⟨e, he, hlong⟩
      refine ⟨(s, pick s), ⟨(hm _).mp hentry, (hm _).mp hentry, Or.inl ⟨rfl, ?_⟩⟩, ?_⟩
      · exact fun e he hlong => hlonger ⟨e, (hm e).mpr he, hlong⟩
      · exact Option.some.inj (hname.symm.trans hresolved)
  · rintro ⟨b, ⟨hentry, hb, hcase⟩, rfl⟩
    rcases hcase with ⟨rfl, hno⟩ | ⟨hlonger, hbest⟩
    · exact resolvedName_of_no_longer _ _ hnodup ((hm b).mpr hb) fun e he => hno e ((hm e).mp he)
    · obtain ⟨b', hb', hlonger', hname, hbest'⟩ :=
        resolvedName_of_longer weight o hnodup ((hm _).mpr hentry) ((hm b).mpr hb) hlonger
      rw [hname, (hbest b' ((hm b').mp hb') hlonger').antisymm (hbest' b ((hm b).mpr hb) hlonger)]

end

/-! ## The names that are read again -/

section

variable {u : Unicode} {txns : List Transaction} {t : Transaction} {table : NameTable}
  {f : (List Char → Option (List Char)) × List Char} {n x : List Char}

/-- The name that a vendor and a head are read as. -/
def readVendor (v : List Char) : Option (List Char) :=
  let v := trim v
  if v.isEmpty then none else some v

def readHead (u : Unicode) (h : List Char) : Option (List Char) :=
  let h := trim h
  if 2 ≤ len h && !isCategoryHead u h then some h else none

/-- The two texts of a transaction that are renamed, and how a name is read off them. -/
def nameFields (u : Unicode) (t : Transaction) :
    List ((List Char → Option (List Char)) × List Char) :=
  [(readVendor, t.vendor.toList), (readHead u, t.accountHead.toList)]

/-- What stands there after a pass. -/
def renameField (u : Unicode) (table : NameTable)
    (f : (List Char → Option (List Char)) × List Char) : List Char :=
  ((f.1 f.2).bind (table.resolved u)).getD f.2

theorem eq_trim_of_read (hf : f ∈ nameFields u t) (h : f.1 x = some n) : n = trim x := by
  simp only [nameFields, List.mem_cons, List.not_mem_nil, or_false] at hf
  rcases hf with rfl | rfl
  · dsimp only [readVendor] at h
    split at h
    · cases h
    · exact (Option.some.inj h).symm
  · dsimp only [readHead] at h
    split at h
    · exact (Option.some.inj h).symm
    · cases h

theorem mem_partyNames_iff_fields : n ∈ partyNames u txns ↔
    ∃ t ∈ txns, t.isOpeningBalance = false ∧ ∃ f ∈ nameFields u t, f.1 f.2 = some n := by
  rw [mem_partyNames_iff]
  simp only [nameFields, List.mem_cons, List.not_mem_nil, or_false, exists_eq_or_imp,
    exists_eq_left]
  rfl

theorem toList_getD_ofList (r : Option (List Char)) (v : String) :
    ((r.map String.ofList).getD v).toList = r.getD v.toList := by
  cases r <;> simp

theorem nameFields_renameParty (hopen : t.isOpeningBalance = false) :
    nameFields u (renameParty u table t) =
      (nameFields u t).map fun f => (f.1, renameField u table f) := by
  rw [renameParty, if_neg (ne_true_of_eq_false hopen)]
  simp only [nameFields, List.map_cons, List.map_nil, toList_getD_ofList]
  rfl

theorem isOpeningBalance_renameParty :
    (renameParty u table t).isOpeningBalance = t.isOpeningBalance := by
  unfold renameParty
  split <;> rfl

/-- A pass leaves a transaction just where it leaves its texts. -/
theorem renameParty_eq_self_iff : renameParty u table t = t ↔
    (t.isOpeningBalance = false → ∀ f ∈ nameFields u t, renameField u table f = f.2) := by
  constructor
  · intro h hopen f hf
    have hfields : nameFields u (renameParty u table t) =
        (nameFields u t).map fun f => (f.1, renameField u table f) := nameFields_renameParty hopen
    rw [h] at hfields
    have hall : ∀ f ∈ nameFields u t, f = (f.1, renameField u table f) := by
      refine List.map_inj_left.mp ?_
      rw [← hfields, List.map_id']
    exact (congrArg Prod.snd (hall f hf)).symm
  · intro h
    cases hopen : t.isOpeningBalance with
    | true => rw [renameParty, if_pos hopen]
    | false =>
      have hvendor := h hopen (readVendor, t.vendor.toList) (by simp [nameFields])
      have hhead := h hopen (readHead u, t.accountHead.toList) (by simp [nameFields])
      have hv : (((vendorName t).bind (table.resolved u)).map String.ofList).getD t.vendor =
          t.vendor := String.toList_inj.mp ((toList_getD_ofList _ _).trans hvendor)
      have hh : (((headName u t).bind (table.resolved u)).map String.ofList).getD t.accountHead =
          t.accountHead := String.toList_inj.mp ((toList_getD_ofList _ _).trans hhead)
      rw [renameParty, if_neg (ne_true_of_eq_false hopen), hv, hh]

/-- A text that some transaction is given and that a name is read off again. -/
def IsReadAgain (u : Unicode) (txns : List Transaction) (pick : List Char → List Char)
    (x : List Char) : Prop :=
  ∃ t ∈ txns, t.isOpeningBalance = false ∧ ∃ f ∈ nameFields u t, ∃ n b, f.1 f.2 = some n ∧
    BecomesName u (partyNames u txns) (sigWeight u txns) pick (nameSignature u n) b ∧
      b.2 = x ∧ f.1 x = some (trim x)

end

/-! ## The second pass -/

section

variable {u : Unicode} {txns : List Transaction} {pick : List Char → List Char}
  {names names' : HashOrder (List Char)} {entries entries' : HashOrder (List Char × List Char)}
  {n x s c : List Char}

/-- A text is left as it is. -/
def StaysSo (u : Unicode) (again : List Char → Prop) (x : List Char) : Prop :=
  (2 ≤ len (trim x) → normalizeLedgerName u (trim x) = x ∧
    ∀ x', again x' → 2 ≤ len (trim x') → ¬IsLonger u (signature u x, x) (signature u x', x')) ∧
  (len (trim x) < 2 → ∀ x', again x' → 2 ≤ len (trim x') →
    nameSignature u (trim x) ≠ nameSignature u (trim x'))

/-- `pick` is what the first pass keeps. -/
def Keeps (u : Unicode) (txns : List Transaction) (names : HashOrder (List Char))
    (pick : List Char → List Char) : Prop :=
  ∀ e, e ∈ sigMapOf u (names.order (partyNames u txns).dedup) ↔
    IsPicked u (partyNames u txns) pick e

/-- The transactions after a pass. -/
def afterPass (u : Unicode) (txns : List Transaction) (names : HashOrder (List Char))
    (entries : HashOrder (List Char × List Char)) : List Transaction :=
  txns.map (renameParty u (nameTable u names entries txns))

theorem Keeps.resolved_iff (h : Keeps u txns names pick) {r : List Char} :
    (nameTable u names entries txns).resolved u n = some r ↔
      ∃ b, BecomesName u (partyNames u txns) (sigWeight u txns) pick (nameSignature u n) b ∧
        b.2 = r := by
  rw [resolved_nameTable]
  exact resolvedName_eq_some_iff nodup_sigMapOf h

theorem IsReadAgain.isPicked (h : IsReadAgain u txns pick x) :
    IsPicked u (partyNames u txns) pick (signature u x, x) := by
  obtain ⟨-, -, -, -, -, -, b, -, ⟨-, hb, -⟩, rfl, -⟩ := h
  rw [hb.1.signature_eq]
  exact hb

/-- After a pass a name is one of those given, or one that nothing is known of. -/
theorem Keeps.mem_partyNames_iff (h : Keeps u txns names pick) :
    n ∈ partyNames u (afterPass u txns names entries) ↔
      (∃ x, IsReadAgain u txns pick x ∧ n = trim x) ∨
        (n ∈ partyNames u txns ∧ (nameTable u names entries txns).resolved u n = none) := by
  constructor
  · intro hn
    obtain ⟨t', ht', hopen, f', hf', hread⟩ := mem_partyNames_iff_fields.mp hn
    obtain ⟨t, ht, rfl⟩ := List.mem_map.mp ht'
    rw [isOpeningBalance_renameParty] at hopen
    rw [nameFields_renameParty hopen] at hf'
    obtain ⟨f, hf, rfl⟩ := List.mem_map.mp hf'
    dsimp only [renameField] at hread
    cases hname : f.1 f.2 with
    | none =>
      rw [hname, Option.bind_none, Option.getD_none, hname] at hread
      cases hread
    | some n' =>
      rw [hname, Option.bind_some] at hread
      cases hresolved : (nameTable u names entries txns).resolved u n' with
      | none =>
        rw [hresolved, Option.getD_none, hname] at hread
        obtain rfl := Option.some.inj hread
        exact Or.inr ⟨mem_partyNames_iff_fields.mpr ⟨t, ht, hopen, f, hf, hname⟩, hresolved⟩
      | some r =>
        rw [hresolved, Option.getD_some] at hread
        obtain ⟨b, hb, hr⟩ := h.resolved_iff.mp hresolved
        have htrim := eq_trim_of_read hf hread
        exact Or.inl ⟨r, ⟨t, ht, hopen, f, hf, n', b, hname, hb, hr, htrim ▸ hread⟩, htrim⟩
  · rintro (⟨x, ⟨t, ht, hopen, f, hf, n', b, hname, hb, hr, hread⟩, rfl⟩ | ⟨hn, hnone⟩)
    · refine mem_partyNames_iff_fields.mpr ⟨_, List.mem_map_of_mem ht, ?_, (f.1, x), ?_, hread⟩
      · rw [isOpeningBalance_renameParty, hopen]
      · rw [nameFields_renameParty hopen]
        refine List.mem_map.mpr ⟨f, hf, ?_⟩
        rw [renameField, hname, Option.bind_some, h.resolved_iff.mpr ⟨b, hb, hr⟩, Option.getD_some]
    · obtain ⟨t, ht, hopen, f, hf, hname⟩ := mem_partyNames_iff_fields.mp hn
      refine mem_partyNames_iff_fields.mpr ⟨_, List.mem_map_of_mem ht, ?_, f, ?_, hname⟩
      · rw [isOpeningBalance_renameParty, hopen]
      · rw [nameFields_renameParty hopen]
        refine List.mem_map.mpr ⟨f, hf, ?_⟩
        rw [renameField, hname, Option.bind_some, hnone, Option.getD_none]

/-- A name that is long enough to be looked up is one of those given. -/
theorem Keeps.exists_isReadAgain (h : Keeps u txns names pick) (hlen : 2 ≤ len n)
    (hn : n ∈ partyNames u (afterPass u txns names entries)) :
    ∃ x, IsReadAgain u txns pick x ∧ n = trim x := by
  rcases h.mem_partyNames_iff.mp hn with hagain | ⟨hn, hnone⟩
  · exact hagain
  · have hsome := (isSome_resolved_nameTable (u := u) names entries).mpr ⟨_, n, hn, hlen, rfl, rfl⟩
    rw [hnone] at hsome
    cases hsome

/-- Where all stay as they are, the forms of the second pass are the names it reads. -/
theorem Keeps.of_isForm (h : Keeps u txns names pick)
    (hstay : ∀ x, IsReadAgain u txns pick x → StaysSo u (IsReadAgain u txns pick) x)
    (hform : IsForm u (partyNames u (afterPass u txns names entries)) s c) :
    IsReadAgain u txns pick c ∧ 2 ≤ len (trim c) ∧ nameSignature u (trim c) = s := by
  obtain ⟨n, hn, hlen, rfl, rfl⟩ := hform
  obtain ⟨x, hagain, rfl⟩ := h.exists_isReadAgain hlen hn
  rw [((hstay x hagain).1 hlen).1]
  exact ⟨hagain, hlen, rfl⟩

theorem Keeps.resolved_again (h : Keeps u txns names pick)
    (hstay : ∀ x, IsReadAgain u txns pick x → StaysSo u (IsReadAgain u txns pick) x)
    (hagain : IsReadAgain u txns pick x) :
    (nameTable u names' entries' (afterPass u txns names entries)).resolved u (trim x) = none ∨
      (nameTable u names' entries' (afterPass u txns names entries)).resolved u (trim x) =
        some x := by
  have hmem : ∀ n, n ∈ names'.order (partyNames u (afterPass u txns names entries)).dedup ↔
      n ∈ partyNames u (afterPass u txns names entries) :=
    fun n => names'.mem_order.trans List.mem_dedup
  have hof : ∀ e ∈ sigMapOf u
      (names'.order (partyNames u (afterPass u txns names entries)).dedup),
      IsReadAgain u txns pick e.2 ∧ 2 ≤ len (trim e.2) ∧ nameSignature u (trim e.2) = e.1 :=
    fun e he => h.of_isForm hstay (.of_mem (fun n hn => (hmem n).mp hn) he)
  rw [resolved_nameTable]
  rcases Nat.lt_or_ge (len (trim x)) 2 with hshort | hlen
  · left
    refine resolvedName_of_not_mem fun e he heq => ?_
    obtain ⟨hagain', hlen', hsig⟩ := hof e he
    exact (hstay x hagain).2 hshort e.2 hagain' hlen' (heq.symm.trans hsig.symm)
  · right
    obtain ⟨hfixed, hno⟩ := (hstay x hagain).1 hlen
    have hsig : nameSignature u (trim x) = signature u x := by rw [nameSignature, hfixed]
    have hform : IsForm u (partyNames u (afterPass u txns names entries)) (signature u x) x :=
      ⟨trim x, h.mem_partyNames_iff.mpr (Or.inl ⟨x, hagain, rfl⟩), hlen, hsig, hfixed⟩
    obtain ⟨c, hc⟩ := hform.exists_mem fun n hn => (hmem n).mpr hn
    -- the form under its signature is the one that was kept
    obtain ⟨hagain', -, -⟩ := hof _ hc
    have hsame : c = x := by
      have hsigc : signature u c = signature u x :=
        (IsForm.of_mem (fun n hn => (hmem n).mp hn) hc).signature_eq
      have hpick : c = pick (signature u c) := hagain'.isPicked.2
      have hpick' : x = pick (signature u x) := hagain.isPicked.2
      rw [hpick, hsigc, ← hpick']
    subst hsame
    rw [hsig]
    refine resolvedName_of_no_longer _ _ (e := (signature u c, c)) nodup_sigMapOf hc fun e he => ?_
    obtain ⟨hagain'', hlen'', -⟩ := hof e he
    have hsige : signature u e.2 = e.1 :=
      (IsForm.of_mem (fun n hn => (hmem n).mp hn) he).signature_eq
    have hnone := hno e.2 hagain'' hlen''
    rw [hsige] at hnone
    exact hnone

theorem Keeps.resolved_unknown (h : Keeps u txns names pick)
    (hstay : ∀ x, IsReadAgain u txns pick x → StaysSo u (IsReadAgain u txns pick) x)
    (hnone : (nameTable u names entries txns).resolved u n = none) :
    (nameTable u names' entries' (afterPass u txns names entries)).resolved u n = none := by
  rw [resolved_nameTable]
  refine resolvedName_of_not_mem fun e he heq => ?_
  have hform : IsForm u (partyNames u (afterPass u txns names entries)) e.1 e.2 :=
    .of_mem (fun n hn => List.mem_dedup.mp (names'.mem_order.mp hn)) he
  obtain ⟨hagain, -, -⟩ := h.of_isForm hstay hform
  have hpicked := hagain.isPicked
  rw [hform.signature_eq, heq] at hpicked
  have hsome := (isSome_resolved_nameTable (u := u) names entries).mpr ⟨_, hpicked.1⟩
  rw [hnone] at hsome
  cases hsome

/-- Where all stay as they are, a second pass changes nothing. -/
theorem Keeps.renameParty_again (h : Keeps u txns names pick)
    (hstay : ∀ x, IsReadAgain u txns pick x → StaysSo u (IsReadAgain u txns pick) x)
    {t : Transaction} (ht : t ∈ afterPass u txns names entries) :
    renameParty u (nameTable u names' entries' (afterPass u txns names entries)) t = t := by
  obtain ⟨t, hin, rfl⟩ := List.mem_map.mp ht
  rw [renameParty_eq_self_iff]
  intro hopen f' hf'
  rw [isOpeningBalance_renameParty] at hopen
  rw [nameFields_renameParty hopen] at hf'
  obtain ⟨f, hf, rfl⟩ := List.mem_map.mp hf'
  have hleft : ∀ (table : NameTable) v n, f.1 v = some n →
      table.resolved u n = none ∨ table.resolved u n = some v →
      renameField u table (f.1, v) = v := by
    intro table v n hread hresolved
    dsimp only [renameField]
    rw [hread, Option.bind_some]
    rcases hresolved with hresolved | hresolved <;> rw [hresolved] <;> rfl
  cases hread : f.1 (renameField u (nameTable u names entries txns) f) with
  | none =>
    dsimp only [renameField] at hread ⊢
    rw [hread]
    rfl
  | some n =>
    refine hleft _ _ n hread ?_
    dsimp only [renameField] at hread ⊢
    cases hname : f.1 f.2 with
    | none =>
      rw [hname, Option.bind_none, Option.getD_none, hname] at hread
      cases hread
    | some n' =>
      rw [hname, Option.bind_some] at hread
      rw [Option.bind_some]
      cases hresolved : (nameTable u names entries txns).resolved u n' with
      | none =>
        rw [hresolved, Option.getD_none, hname] at hread
        obtain rfl := Option.some.inj hread
        exact Or.inl (h.resolved_unknown hstay hresolved)
      | some r =>
        rw [hresolved, Option.getD_some] at hread
        rw [Option.getD_some]
        obtain ⟨b, hb, hr⟩ := h.resolved_iff.mp hresolved
        have htrim := eq_trim_of_read hf hread
        rw [htrim]
        exact h.resolved_again hstay ⟨t, hin, hopen, f, hf, n', b, hname, hb, hr, htrim ▸ hread⟩

end

/-! ## What a second pass that changes nothing shows -/

section

variable {u : Unicode} {txns : List Transaction} {pick : List Char → List Char}
  {names names' : HashOrder (List Char)} {entries entries' : HashOrder (List Char × List Char)}
  {n x : List Char}

/-- A partial name has fewer tokens. -/
theorem length_lt_of_isLonger {e e' : List Char × List Char} (h : IsLonger u e e') :
    (nameTokens u e.2).length < (nameTokens u e'.2).length := by
  have hpart := h.2
  dsimp only [isPartialNameOf] at hpart
  split at hpart
  · cases hpart
  · next hguard =>
    simp only [Bool.or_eq_true, decide_eq_true_eq, not_or] at hguard
    exact Nat.lt_of_not_le hguard.2

/-- What leads to one that is greater holds nowhere. -/
theorem not_of_exists_greater {α : Type*} {p : α → Prop} (f : α → ℕ) (l : List α)
    (hmem : ∀ a, p a → a ∈ l) (hgreater : ∀ a, p a → ∃ b, p b ∧ f a < f b) (a : α) : ¬p a := by
  have hbound : ∀ k a, p a → (l.map f).sum < f a + k → False := by
    intro k
    induction k with
    | zero =>
      intro a ha hlt
      have hle := List.single_le_sum (fun _ _ => Nat.zero_le _) (f a)
        (List.mem_map_of_mem (hmem a ha))
      omega
    | succ k ih =>
      intro a ha hlt
      obtain ⟨b, hb, hab⟩ := hgreater a ha
      exact ih b hb (by omega)
  exact fun ha => hbound ((l.map f).sum + 1) a ha (by omega)

/-- No second pass, in whatever order, changes a transaction. -/
def StaysUnchanged (u : Unicode) (txns : List Transaction) : Prop :=
  ∀ (names : HashOrder (List Char)) (entries : HashOrder (List Char × List Char)), ∀ t ∈ txns,
    renameParty u (nameTable u names entries txns) t = t

/-- A name that is read again is resolved to the text it is read off, if to any. -/
theorem Keeps.resolved_of_unchanged (h : Keeps u txns names pick)
    (hsame : StaysUnchanged u (afterPass u txns names entries))
    (hagain : IsReadAgain u txns pick x) {r : List Char}
    (hr : (nameTable u names' entries' (afterPass u txns names entries)).resolved u (trim x) =
      some r) : r = x := by
  obtain ⟨t, ht, hopen, f, hf, n, b, hname, hb, hx, hread⟩ := hagain
  have hleft := renameParty_eq_self_iff.mp (hsame names' entries' _ (List.mem_map_of_mem ht))
  rw [isOpeningBalance_renameParty] at hleft
  have hmem : (f.1, x) ∈ nameFields u (renameParty u (nameTable u names entries txns) t) := by
    rw [nameFields_renameParty hopen]
    refine List.mem_map.mpr ⟨f, hf, ?_⟩
    rw [renameField, hname, Option.bind_some, h.resolved_iff.mpr ⟨b, hb, hx⟩, Option.getD_some]
  have hfield := hleft hopen _ hmem
  dsimp only [renameField] at hfield
  rw [hread, Option.bind_some, hr, Option.getD_some] at hfield
  exact hfield

/-- A name that is long enough is resolved to the text it is read off, in every order. -/
theorem Keeps.resolvedName_of_unchanged (h : Keeps u txns names pick)
    (hsame : StaysUnchanged u (afterPass u txns names entries))
    (hagain : IsReadAgain u txns pick x) (hlen : 2 ≤ len (trim x)) {raws : List (List Char)}
    (hperm : raws.Perm (partyNames u (afterPass u txns names entries)).dedup) :
    resolvedName u (sigWeight u (afterPass u txns names entries)) .asMade (sigMapOf u raws)
      (nameSignature u (trim x)) = some x := by
  have hresolved : (nameTable u (.listing _ raws hperm) .asMade
      (afterPass u txns names entries)).resolved u (trim x) =
        resolvedName u (sigWeight u (afterPass u txns names entries)) .asMade (sigMapOf u raws)
          (nameSignature u (trim x)) := by
    rw [resolved_nameTable, HashOrder.listing_order]
  have hform : IsForm u (partyNames u (afterPass u txns names entries))
      (nameSignature u (trim x)) (normalizeLedgerName u (trim x)) :=
    ⟨trim x, h.mem_partyNames_iff.mpr (Or.inl ⟨x, hagain, rfl⟩), hlen, rfl, rfl⟩
  obtain ⟨r, hr⟩ := Option.isSome_iff_exists.mp ((isSome_resolved_nameTable
    (.listing _ raws hperm) .asMade).mpr ⟨_, hform⟩)
  rw [← hresolved, hr, h.resolved_of_unchanged hsame hagain hr]

/-- Such a name is its own form: one that is not would be a part of another such one. -/
theorem Keeps.normalize_of_unchanged (h : Keeps u txns names pick)
    (hsame : StaysUnchanged u (afterPass u txns names entries))
    (hagain : IsReadAgain u txns pick x) (hlen : 2 ≤ len (trim x)) :
    normalizeLedgerName u (trim x) = x := by
  have hmem : ∀ x, (IsReadAgain u txns pick x ∧ 2 ≤ len (trim x) ∧
      normalizeLedgerName u (trim x) ≠ x) →
      x ∈ (sigMapOf u (names.order (partyNames u txns).dedup)).map Prod.snd :=
    fun x hx => List.mem_map.mpr ⟨_, (h _).mpr hx.1.isPicked, rfl⟩
  by_contra hne
  refine not_of_exists_greater (fun x => (nameTokens u x).length) _ hmem ?_ x ⟨hagain, hlen, hne⟩
  have hlonger : ∀ x, IsReadAgain u txns pick x → 2 ≤ len (trim x) →
      normalizeLedgerName u (trim x) ≠ x →
      (nameTokens u (normalizeLedgerName u (trim x))).length < (nameTokens u x).length ∧
        ∃ n ∈ partyNames u (afterPass u txns names entries), 2 ≤ len n ∧
          normalizeLedgerName u n = x := by
    intro x hagain hlen hne
    have hform : IsForm u (partyNames u (afterPass u txns names entries)).dedup
        (nameSignature u (trim x)) (normalizeLedgerName u (trim x)) := by
      refine ⟨trim x, List.mem_dedup.mpr ?_, hlen, rfl, rfl⟩
      exact h.mem_partyNames_iff.mpr (Or.inl ⟨x, hagain, rfl⟩)
    obtain ⟨raws, hperm, hentry⟩ := hform.exists_perm
    have hresolved := h.resolvedName_of_unchanged hsame hagain hlen hperm
    by_cases hlong : ∃ e ∈ sigMapOf u raws,
        IsLonger u (nameSignature u (trim x), normalizeLedgerName u (trim x)) e
    · obtain ⟨e, he, hlong⟩ := hlong
      obtain ⟨b, hb, hlong, hname, -⟩ := resolvedName_of_longer
        (sigWeight u (afterPass u txns names entries)) .asMade nodup_sigMapOf hentry he hlong
      have hx : b.2 = x := Option.some.inj (hname.symm.trans hresolved)
      obtain ⟨n, hn, hn2, hform'⟩ := mem_sigMapOf hb
      refine ⟨hx ▸ length_lt_of_isLonger hlong, n, ?_, hn2, ?_⟩
      · exact List.mem_dedup.mp (hperm.mem_iff.mp hn)
      · rw [← hx, hform']
    · have hname := resolvedName_of_no_longer
        (sigWeight u (afterPass u txns names entries)) .asMade nodup_sigMapOf hentry
        fun e he hlong' => hlong ⟨e, he, hlong'⟩
      exact absurd (Option.some.inj (hname.symm.trans hresolved)) hne
  rintro x ⟨hagain, hlen, hne⟩
  obtain ⟨-, n, hn, hn2, hx⟩ := hlonger x hagain hlen hne
  obtain ⟨x', hagain', rfl⟩ := h.exists_isReadAgain hn2 hn
  have hne' : normalizeLedgerName u (trim x') ≠ x' := by
    intro hfixed
    obtain rfl : x' = x := hfixed.symm.trans hx
    exact hne hfixed
  refine ⟨x', ⟨hagain', hn2, hne'⟩, ?_⟩
  have hlt := (hlonger x' hagain' hn2 hne').1
  rw [hx] at hlt
  exact hlt

theorem Keeps.staysSo_of_unchanged (h : Keeps u txns names pick)
    (hsame : StaysUnchanged u (afterPass u txns names entries))
    (hagain : IsReadAgain u txns pick x) : StaysSo u (IsReadAgain u txns pick) x := by
  have hform : ∀ x, IsReadAgain u txns pick x → 2 ≤ len (trim x) →
      IsForm u (partyNames u (afterPass u txns names entries)).dedup (signature u x) x := by
    intro x hagain hlen
    have hfixed := h.normalize_of_unchanged hsame hagain hlen
    refine ⟨trim x, List.mem_dedup.mpr ?_, hlen, by rw [nameSignature, hfixed], hfixed⟩
    exact h.mem_partyNames_iff.mpr (Or.inl ⟨x, hagain, rfl⟩)
  refine ⟨fun hlen => ⟨h.normalize_of_unchanged hsame hagain hlen, ?_⟩, ?_⟩
  · intro x' hagain' hlen' hlonger
    obtain ⟨raws, hperm, hentry, hentry'⟩ :=
      (hform x hagain hlen).exists_perm_two (hform x' hagain' hlen') hlonger.1
    have hresolved := h.resolvedName_of_unchanged hsame hagain hlen hperm
    rw [nameSignature, h.normalize_of_unchanged hsame hagain hlen] at hresolved
    obtain ⟨b, hb, hlong, hname, -⟩ := resolvedName_of_longer
      (sigWeight u (afterPass u txns names entries)) .asMade nodup_sigMapOf hentry hentry' hlonger
    obtain rfl : b.2 = x := Option.some.inj (hname.symm.trans hresolved)
    obtain ⟨n, -, -, hb'⟩ := mem_sigMapOf hb
    refine hlong.1 ?_
    rw [hb', nameSignature]
  · intro hshort x' hagain' hlen' hsig
    have hresolved := h.resolvedName_of_unchanged hsame hagain' hlen' (List.Perm.refl _)
    have htable : (nameTable u .asMade .asMade (afterPass u txns names entries)).resolved u
        (trim x) = some x' := by
      rw [resolved_nameTable, hsig]
      exact hresolved
    obtain rfl := h.resolved_of_unchanged hsame hagain htable
    omega

theorem normalizeVendors_eq_self_iff {l : List Transaction} :
    normalizeVendors u names entries l = (l, 0) ↔
      ∀ t ∈ l, renameParty u (nameTable u names entries l) t = t := by
  dsimp only [normalizeVendors]
  rw [Prod.mk.injEq]
  constructor
  · rintro ⟨hmap, -⟩ t ht
    exact List.map_inj_left.mp (hmap.trans (List.map_id' _).symm) t ht
  · intro hsame
    refine ⟨(List.map_congr_left hsame).trans (List.map_id' _), ?_⟩
    refine List.countP_eq_zero.mpr fun t ht => ?_
    simp [hsame t ht]

/-- A second pass changes nothing, in whatever order each of the two goes through its tables, just
where, whatever forms the first one keeps, each name that is read again is the form of itself and
none is a part of another. -/
theorem normalizeVendors_twice_iff (u : Unicode) (txns : List Transaction) :
    (∀ (names names' : HashOrder (List Char))
        (entries entries' : HashOrder (List Char × List Char)),
      normalizeVendors u names' entries' (normalizeVendors u names entries txns).1 =
        ((normalizeVendors u names entries txns).1, 0)) ↔
      ∀ pick, IsChoice u (partyNames u txns) pick → ∀ x, IsReadAgain u txns pick x →
        StaysSo u (IsReadAgain u txns pick) x := by
  simp only [normalizeVendors_eq_self_iff]
  constructor
  · intro hsame pick hpick x hagain
    have hpick' : IsChoice u (partyNames u txns).dedup pick := by
      simpa only [IsChoice, IsForm, List.mem_dedup] using hpick
    obtain ⟨raws, hperm, hkept⟩ := hpick'.exists_perm
    have hkeeps : Keeps u txns (.listing _ raws hperm) pick := by
      intro e
      rw [HashOrder.listing_order, hkept e]
      simp only [IsPicked, IsForm, List.mem_dedup]
    have hsame' : StaysUnchanged u (afterPass u txns (.listing _ raws hperm) .asMade) :=
      fun names' entries' => hsame _ names' .asMade entries'
    exact hkeeps.staysSo_of_unchanged hsame' hagain
  · intro hstay names names' entries entries' t ht
    have hraws : ∀ n, n ∈ names.order (partyNames u txns).dedup ↔ n ∈ partyNames u txns :=
      fun n => names.mem_order.trans List.mem_dedup
    have hkeeps : Keeps u txns names
        (keptForm (sigMapOf u (names.order (partyNames u txns).dedup))) :=
      fun e => mem_sigMapOf_iff_isPicked hraws
    exact hkeeps.renameParty_again (hstay _ (isChoice_keptForm hraws)) ht

/-- A payment by an app. -/
def appPayment : List Transaction := [{ Transaction.new "1" with vendor := "GPAY" }]

/-- What a name is made of is made something else in turn. -/
theorem canonical_name_is_renamed :
    ¬ ∀ (names names' : HashOrder (List Char))
        (entries entries' : HashOrder (List Char × List Char)),
      normalizeVendors .ascii names' entries' (normalizeVendors .ascii names entries appPayment).1 =
        ((normalizeVendors .ascii names entries appPayment).1, 0) := by
  intro hsame
  have hcount := congrArg Prod.snd (hsame .asMade .asMade .asMade .asMade)
  have hchanged : (normalizeVendors .ascii .asMade .asMade
      (normalizeVendors .ascii .asMade .asMade appPayment).1).2 ≠ 0 := by decide +kernel
  exact hchanged hcount

end

end Desktop
