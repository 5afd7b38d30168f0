import BankStatementProcessor.Desktop.NarrationCleaner
import BankStatementProcessor.Desktop.Parser.AmountFormat
import BankStatementProcessor.Infra.Ascii

/-!
# Names of ledgers

A name that has been brought into its form is in its form, where the table knows it under the name
it gives, or where its words come back in upper case and none of them is then taken off the end.
-/

namespace Desktop

open Infra Desktop.Parser

/-! ## The words of a name -/

section

variable {ws vs : List (List Char)} {n : List Char}

theorem stripNoise_isPrefix_self : ∀ ws : List (List Char), stripNoise ws <+: ws
  | [] => List.prefix_rfl
  | _ :: ws => (List.prefix_cons_inj _).mpr ( List.rdropWhile_prefix _ ws)

theorem collapseRepeated_isPrefix_self (ws : List (List Char)) : collapseRepeated ws <+: ws := by
  have hprefix : (ws.drop 2).takeWhile (fun w => !(ws.take 2).contains w) <+: ws.drop 2 :=
    List.takeWhile_prefix _
  have happend := (List.prefix_append_right_inj (ws.take 2)).mpr hprefix
  rw [List.take_append_drop] at happend
  exact happend

theorem capPersonal_isPrefix_self (ws : List (List Char)) : capPersonal ws <+: ws := by
  unfold capPersonal
  split
  · exact List.take_prefix _ _
  · exact List.prefix_rfl

theorem orderPersonal_perm (ws : List (List Char)) : (orderPersonal ws).Perm ws := by
  unfold orderPersonal
  split
  · split
    · exact .swap _ _ _
    · exact .rfl
  · exact .rfl

/-- The words that are left, in the order they stood in. -/
def leftWords (ws : List (List Char)) : List (List Char) :=
  capPersonal (collapseRepeated (stripNoise ws))

theorem leftWords_isPrefix_self (ws : List (List Char)) : leftWords ws <+: ws :=
  (capPersonal_isPrefix_self _).trans
    ((collapseRepeated_isPrefix_self _).trans (stripNoise_isPrefix_self _))

theorem ledgerWords_eq (n : List Char) :
    ledgerWords n = orderPersonal (leftWords (words isWhitespace n)) := rfl

theorem mem_words_of_mem_ledgerWords {w : List Char} (h : w ∈ ledgerWords n) :
    w ∈ words isWhitespace n :=
  (leftWords_isPrefix_self _).subset ((orderPersonal_perm _).mem_iff.mp h)

/-- Noise is taken off the end again where it stands there again. -/
def EndsPlain (ws : List (List Char)) : Prop :=
  2 ≤ ws.length → ∀ w ∈ ws.getLast?, isSuffixNoise w = false

theorem stripNoise_eq_self (h : EndsPlain ws) : stripNoise ws = ws := by
  match ws with
  | [] => rfl
  | [w] => rfl
  | w :: v :: ws =>
    have hlast : ∀ hne : v :: ws ≠ [], ¬isSuffixNoise ((v :: ws).getLast hne) = true := by
      intro hne
      refine ne_true_of_eq_false (h (by simp) _ ?_)
      rw [List.getLast?_cons_cons, List.getLast?_eq_getLast_of_ne_nil hne]
      rfl
    rw [stripNoise, List.rdropWhile_eq_self_iff.mpr hlast]

theorem collapseRepeated_eq_self_iff :
    collapseRepeated ws = ws ↔ ∀ w ∈ ws.drop 2, w ∉ ws.take 2 := by
  have hsplit : collapseRepeated ws = ws ↔
      ws.take 2 ++ (ws.drop 2).takeWhile (fun w => !(ws.take 2).contains w) =
        ws.take 2 ++ ws.drop 2 := by
    rw [List.take_append_drop]
    rfl
  rw [hsplit, List.append_cancel_left_eq, List.takeWhile_eq_self_iff]
  simp

theorem collapseRepeated_collapseRepeated (ws : List (List Char)) :
    collapseRepeated (collapseRepeated ws) = collapseRepeated ws := by
  rw [collapseRepeated_eq_self_iff]
  match ws with
  | [] => simp [collapseRepeated]
  | [a] => simp [collapseRepeated]
  | a :: b :: ws =>
    intro w hw
    have hnot := List.mem_takeWhile_imp hw
    simpa [collapseRepeated] using hnot

theorem collapseRepeated_of_prefix (h : vs <+: ws) (hws : collapseRepeated ws = ws) :
    collapseRepeated vs = vs := by
  rw [collapseRepeated_eq_self_iff] at hws ⊢
  intro w hw hmem
  exact hws w ((h.drop 2).subset hw) ((h.take 2).subset hmem)

/-- The name of a business, or one of at most two words. -/
def FitsCap (ws : List (List Char)) : Prop := 3 ≤ ws.length → ws.any isBizWord = true

theorem capPersonal_eq_self (h : FitsCap ws) : capPersonal ws = ws := by
  refine if_neg ?_
  rw [Bool.and_eq_true, decide_eq_true_eq, Bool.not_eq_true']
  rintro ⟨hlen, hbiz⟩
  rw [h hlen] at hbiz
  cases hbiz

theorem fitsCap_capPersonal (ws : List (List Char)) : FitsCap (capPersonal ws) := by
  unfold capPersonal
  split
  · intro hlen
    rw [List.length_take] at hlen
    omega
  · next hguard =>
    intro hlen
    by_contra hbiz
    exact hguard (by simp [hlen, eq_false_of_ne_true hbiz])

theorem FitsCap.perm (h : FitsCap ws) (hperm : vs.Perm ws) : FitsCap vs := by
  intro hlen
  rw [hperm.length_eq] at hlen
  obtain ⟨w, hw, hbiz⟩ := List.any_eq_true.mp (h hlen)
  exact List.any_eq_true.mpr ⟨w, hperm.mem_iff.mpr hw, hbiz⟩

theorem orderPersonal_orderPersonal (ws : List (List Char)) :
    orderPersonal (orderPersonal ws) = orderPersonal ws := by
  match ws with
  | [] => rfl
  | [a] => rfl
  | a :: b :: c :: ws => rfl
  | [a, b] =>
    rw [orderPersonal]
    split
    · next hguard =>
      simp only [Bool.and_eq_true, Bool.not_eq_true', decide_eq_true_eq] at hguard
      refine if_neg ?_
      simp only [Bool.and_eq_true, decide_eq_true_eq, not_and]
      exact fun _ => List.lt_asymm hguard.2
    · next hguard => rw [orderPersonal, if_neg hguard]

theorem orderPersonal_of_ne_two (h : ws.length ≠ 2) : orderPersonal ws = ws := by
  match ws with
  | [] => rfl
  | [a] => rfl
  | [a, b] => exact absurd rfl h
  | a :: b :: c :: ws => rfl

/-- Two words keep their order where one is that of a business. -/
theorem orderPersonal_of_biz (h : ws.any isBizWord = true) : orderPersonal ws = ws := by
  match ws with
  | [] => rfl
  | [a] => rfl
  | a :: b :: c :: ws => rfl
  | [a, b] =>
    refine if_neg ?_
    simp only [Bool.and_eq_true, Bool.not_eq_true', not_and]
    rintro ⟨ha, hb⟩
    simp [ha, hb] at h

theorem leftWords_of_fits (hplain : EndsPlain ws) (hrepeat : collapseRepeated ws = ws)
    (hfits : FitsCap ws) : leftWords ws = ws := by
  rw [leftWords, stripNoise_eq_self hplain, hrepeat, capPersonal_eq_self hfits]

/-- No word of the name repeats one of the first two, and the name fits. -/
theorem ledgerWords_fits (n : List Char) :
    collapseRepeated (ledgerWords n) = ledgerWords n ∧ FitsCap (ledgerWords n) := by
  have hfits : FitsCap (leftWords (words isWhitespace n)) := fitsCap_capPersonal _
  refine ⟨?_, hfits.perm (orderPersonal_perm _)⟩
  by_cases hlen : (leftWords (words isWhitespace n)).length = 2
  · rw [collapseRepeated_eq_self_iff]
    intro w hw
    rw [List.drop_eq_nil_of_le] at hw
    · cases hw
    · rw [ledgerWords_eq, (orderPersonal_perm _).length_eq, hlen]
  · rw [ledgerWords_eq, orderPersonal_of_ne_two hlen]
    exact collapseRepeated_of_prefix (capPersonal_isPrefix_self _)
      (collapseRepeated_collapseRepeated _)

/-- What is left of a name is left again, where it does not end in noise. -/
theorem ledgerWords_again {s : List Char} (hwords : words isWhitespace s = ledgerWords n)
    (hplain : EndsPlain (ledgerWords n)) : ledgerWords s = ledgerWords n := by
  obtain ⟨hrepeat, hfits⟩ := ledgerWords_fits n
  rw [ledgerWords_eq, hwords, leftWords_of_fits hplain hrepeat hfits, ledgerWords_eq,
    orderPersonal_orderPersonal]

theorem biz_not_noise {w : List Char} (h : isBizWord w = true) : isSuffixNoise w = false := by
  have hlists : ∀ b ∈ ledgerBizWords, b ∉ ledgerSuffixNoise := by decide +kernel
  rw [isBizWord, List.any_eq_true] at h
  obtain ⟨b, hb, hw⟩ := h
  rw [isSuffixNoise, List.any_eq_false]
  intro noise hnoise heq
  rw [decide_eq_true_eq] at hw heq
  exact hlists b hb (String.toList_inj.mp (hw.trans heq.symm) ▸ hnoise)

theorem stripNoise_append (ws : List (List Char)) :
    stripNoise ws ++ ws.tail.rtakeWhile isSuffixNoise = ws := by
  cases ws with
  | nil => rfl
  | cons w ws =>
    rw [stripNoise, List.tail_cons, List.cons_append, List.rdropWhile_append_rtakeWhile]

theorem rtakeWhile_ne_nil_of_not_endsPlain (h : ¬EndsPlain ws) :
    ws.tail.rtakeWhile isSuffixNoise ≠ [] := by
  rw [Ne, List.rtakeWhile_eq_nil_iff]
  intro hlast
  refine h fun hlen w hw => ?_
  match ws with
  | [] => cases hw
  | [a] => exact absurd hlen (by simp)
  | a :: b :: ws =>
    rw [List.getLast?_cons_cons, List.getLast?_eq_getLast_of_ne_nil (List.cons_ne_nil _ _)] at hw
    obtain rfl := Option.some.inj hw
    exact eq_false_of_ne_true (hlast (List.cons_ne_nil _ _))

/-- A name that ends in noise loses words of its end, and the others keep their order. -/
theorem ledgerWords_of_noise {s : List Char} (hwords : words isWhitespace s = ledgerWords n)
    (hplain : ¬EndsPlain (ledgerWords n)) :
    ∃ lost, lost ≠ [] ∧ ledgerWords n = ledgerWords s ++ lost := by
  obtain ⟨hrepeat, hfits⟩ := ledgerWords_fits n
  rw [ledgerWords_eq s, hwords]
  generalize ledgerWords n = ws at hplain hrepeat hfits ⊢
  have hlost := rtakeWhile_ne_nil_of_not_endsPlain hplain
  have hstrip := stripNoise_append ws
  have hrepeat' : collapseRepeated (stripNoise ws) = stripNoise ws :=
    collapseRepeated_of_prefix (stripNoise_isPrefix_self ws) hrepeat
  -- what stands before the noise is kept whole
  have hkept : capPersonal (stripNoise ws) = stripNoise ws ∧
      orderPersonal (stripNoise ws) = stripNoise ws := by
    rcases Nat.lt_or_ge ws.length 3 with hlen | hlen
    · have hshort : (stripNoise ws).length < 2 := by
        have hpos := List.length_pos_iff.mpr hlost
        have hsum := congrArg List.length hstrip
        rw [List.length_append] at hsum
        omega
      refine ⟨capPersonal_eq_self fun hlong => ?_, orderPersonal_of_ne_two (by omega)⟩
      omega
    · have hbiz : (stripNoise ws).any isBizWord = true := by
        obtain ⟨w, hw, hbiz⟩ := List.any_eq_true.mp (hfits hlen)
        rw [← hstrip, List.mem_append] at hw
        refine List.any_eq_true.mpr ⟨w, hw.resolve_right fun hnoise => ?_, hbiz⟩
        have hnot := List.mem_rtakeWhile_imp hnoise
        rw [biz_not_noise hbiz] at hnot
        cases hnot
      exact ⟨capPersonal_eq_self fun _ => hbiz, orderPersonal_of_biz hbiz⟩
  refine ⟨_, hlost, ?_⟩
  rw [leftWords, hrepeat', hkept.1, hkept.2, hstrip]

end

/-! ## Names that are looked up -/

section

variable {u : Unicode} {ws : List (List Char)} {s w : List Char}

/-- The name that the table gives, if it knows one. -/
def aliasOf (u : Unicode) (raw : List Char) : Option String :=
  (dictVendor (nameUp u raw)).or (dictVendor ([' '].intercalate (ledgerWords (nameUp u raw))))

theorem dictVendor_nil : dictVendor [] = none := by decide +kernel

theorem ledgerWords_nil : ledgerWords [] = [] := rfl

theorem nameUp_nil : nameUp u [] = [] := by
  have hupper : u.toUppercase [] = [] := u.toUppercase_ascii [] rfl
  change trim (u.toUppercase []) = []
  rw [hupper]
  rfl

theorem aliasOf_nil : aliasOf u [] = none := by
  rw [aliasOf, nameUp_nil, ledgerWords_nil, dictVendor_nil]
  exact dictVendor_nil

theorem normalizeLedgerName_of_alias {canonical : String} (h : aliasOf u s = some canonical) :
    normalizeLedgerName u s = canonical.toList := by
  cases s with
  | nil => rw [aliasOf_nil] at h; cases h
  | cons c cs =>
    unfold aliasOf at h
    unfold normalizeLedgerName
    rw [List.isEmpty_cons, if_neg Bool.false_ne_true]
    cases hname : dictVendor (nameUp u (c :: cs)) with
    | some canonical' =>
      rw [hname] at h
      rw [Option.some.inj h]
    | none =>
      rw [hname, Option.none_or] at h
      dsimp only
      rw [h]

theorem normalizeLedgerName_of_no_alias (h : aliasOf u s = none) : normalizeLedgerName u s =
    toTitleCase u ([' '].intercalate (ledgerWords (nameUp u s))) := by
  cases s with
  | nil => rw [nameUp_nil]; rfl
  | cons c cs =>
    unfold aliasOf at h
    obtain ⟨hname, hwords⟩ := Option.or_eq_none_iff.mp h
    unfold normalizeLedgerName
    rw [List.isEmpty_cons, if_neg Bool.false_ne_true, hname]
    dsimp only
    rw [hwords]

theorem isWord_of_mem_ledgerWords (h : w ∈ ledgerWords s) : IsWord isWhitespace w :=
  isWord_of_mem_words (mem_words_of_mem_ledgerWords h)

theorem words_join_ledgerWords (s : List Char) :
    words isWhitespace ([' '].intercalate (ledgerWords s)) = ledgerWords s :=
  words_join (by decide) fun _ hw => isWord_of_mem_ledgerWords hw

theorem toTitleCase_join (h : ∀ w ∈ ws, IsWord isWhitespace w) :
    toTitleCase u ([' '].intercalate ws) = [' '].intercalate (ws.mapIdx (titleWord u)) := by
  rw [toTitleCase, words_join (by decide) h]

/-- The words come back in upper case. -/
def ComesBack (u : Unicode) (ws : List (List Char)) : Prop :=
  nameUp u (toTitleCase u ([' '].intercalate ws)) = [' '].intercalate ws

/-- Names that the table itself knows under another name. -/
def renamedAliases : List String := ["ICICI Prudential", "Meta (Facebook)", "Google Pay"]

/-- The name is given one that stays: by the table, or by its words. -/
def IsGivenStable (u : Unicode) (raw : List Char) : Prop :=
  (∀ canonical ∈ aliasOf u raw, canonical ∉ renamedAliases) ∧
    (aliasOf u raw = none →
      ComesBack u (ledgerWords (nameUp u raw)) ∧ EndsPlain (ledgerWords (nameUp u raw)))

/-- Words that come back and do not end in noise stay. -/
theorem normalizeLedgerName_of_plain (h : aliasOf u s = none)
    (hback : ComesBack u (ledgerWords (nameUp u s)))
    (hplain : EndsPlain (ledgerWords (nameUp u s))) :
    normalizeLedgerName u (normalizeLedgerName u s) = normalizeLedgerName u s := by
  have hname : nameUp u (normalizeLedgerName u s) =
      [' '].intercalate (ledgerWords (nameUp u s)) := by
    rw [normalizeLedgerName_of_no_alias h]
    exact hback
  have hwords : ledgerWords ([' '].intercalate (ledgerWords (nameUp u s))) =
      ledgerWords (nameUp u s) := ledgerWords_again (words_join_ledgerWords _) hplain
  have hnone : aliasOf u (normalizeLedgerName u s) = none := by
    obtain ⟨-, hdict⟩ := Option.or_eq_none_iff.mp h
    rw [aliasOf, hname, hwords, hdict]
    rfl
  rw [normalizeLedgerName_of_no_alias hnone, hname, hwords, ← normalizeLedgerName_of_no_alias h]

end

/-! ## ASCII text -/

section

variable {u : Unicode} {ws : List (List Char)} {s w : List Char} {c : Char}

/-- Text of ASCII characters. -/
def IsAsciiText (s : List Char) : Prop := ∀ c ∈ s, isAscii c = true

theorem IsAsciiText.mono {t : List Char} (h : IsAsciiText s) (hsub : t ⊆ s) : IsAsciiText t :=
  fun c hc => h c (hsub hc)

theorem stripLocationSuffix_isPrefix_self (s : List Char) : stripLocationSuffix s <+: s := by
  unfold stripLocationSuffix
  split
  · exact ( List.rdropWhile_prefix _ _).trans ( List.take_prefix _ _)
  · exact List.prefix_rfl

theorem nameUp_of_isAsciiText (u : Unicode) (h : IsAsciiText s) : nameUp u s =
    trim (((stripLocationSuffix s).filter (· != '.')).map Char.toUpper) := by
  have hsub : (stripLocationSuffix s).filter (· != '.') ⊆ s :=
    List.Subset.trans (List.filter_subset_self _) (stripLocationSuffix_isPrefix_self s).subset
  rw [nameUp, toUppercase_eq_map u (h.mono hsub)]

/-- What is read of ASCII text is ASCII text in upper case without dots. -/
theorem mem_nameUp_of_isAsciiText (h : IsAsciiText s) (hc : c ∈ nameUp u s) :
    isAscii c = true ∧ c.toUpper = c ∧ c ≠ '.' := by
  rw [nameUp_of_isAsciiText u h] at hc
  obtain ⟨d, hd, rfl⟩ := List.mem_map.mp (trim_sublist.subset hc)
  obtain ⟨hmem, hdot⟩ := List.mem_filter.mp hd
  have hascii := h d ((stripLocationSuffix_isPrefix_self s).subset hmem)
  refine ⟨isAscii_toUpper hascii, toUpper_toUpper_of_isAscii hascii, fun heq => ?_⟩
  rw [(toUpper_eq_iff (by decide)).mp heq] at hdot
  cases hdot

theorem titleWord_of_isAsciiText (u : Unicode) (i : ℕ) (h : IsAsciiText w) :
    titleWord u i w = titleWord .ascii i w := by
  cases w with
  | nil => simp only [titleWord, toLowercase_eq_map _ h]
  | cons c cs =>
    obtain ⟨hc, hcs⟩ := List.forall_mem_cons.mp h
    have hone : ∀ d ∈ [c], isAscii d = true := by simpa using hc
    simp only [titleWord, toLowercase_eq_map _ h, toLowercase_eq_map _ hcs,
      toUppercase_eq_map _ hone]

theorem map_toUpper_titleWord (u : Unicode) (i : ℕ) (h : IsAsciiText w) :
    (titleWord u i w).map Char.toUpper = w.map Char.toUpper := by
  have hlower : ∀ cs, IsAsciiText cs →
      (cs.map Char.toLower).map Char.toUpper = cs.map Char.toUpper := by
    intro cs hcs
    rw [List.map_map]
    exact List.map_congr_left fun c hc => toUpper_toLower_of_isAscii (hcs c hc)
  unfold titleWord
  dsimp only
  split
  · rfl
  · split
    · rw [toLowercase_eq_map u h, hlower w h]
    · cases w with
      | nil => rfl
      | cons c cs =>
        obtain ⟨hc, hcs⟩ := List.forall_mem_cons.mp h
        have hone : ∀ d ∈ [c], isAscii d = true := by simpa using hc
        dsimp only
        rw [toUppercase_eq_map u hone, toLowercase_eq_map u hcs, List.map_append, hlower cs hcs,
          List.map_singleton, List.map_singleton, toUpper_toUpper_of_isAscii hc]
        rfl

theorem isAsciiText_of_mem_words (h : IsAsciiText s) (hw : w ∈ words isWhitespace s) :
    IsAsciiText w :=
  fun c hc => h c (mem_flatten_words.mp (List.mem_flatten.mpr ⟨w, hw, hc⟩)).1

theorem toTitleCase_of_isAsciiText (u : Unicode) (h : IsAsciiText s) :
    toTitleCase u s = toTitleCase .ascii s := by
  rw [toTitleCase, toTitleCase]
  refine congrArg ([' '].intercalate ·) (List.ext_getElem (by simp) fun i hi hi' => ?_)
  rw [List.getElem_mapIdx, List.getElem_mapIdx]
  exact titleWord_of_isAsciiText u i (isAsciiText_of_mem_words h (List.getElem_mem _))

theorem isAsciiText_join (h : ∀ w ∈ ws, IsAsciiText w) : IsAsciiText ([' '].intercalate ws) := by
  intro c hc
  rcases mem_intercalate hc with rfl | hmem
  · rfl
  · obtain ⟨w, hw, hc⟩ := List.mem_flatten.mp hmem
    exact h w hw c hc

theorem isAsciiText_of_mem_ledgerWords (h : IsAsciiText s) (hw : w ∈ ledgerWords (nameUp u s)) :
    IsAsciiText w :=
  isAsciiText_of_mem_words (fun _ hc => (mem_nameUp_of_isAsciiText h hc).1)
    (mem_words_of_mem_ledgerWords hw)

/-- On ASCII text all tables agree. -/
theorem normalizeLedgerName_of_isAsciiText (u : Unicode) (h : IsAsciiText s) :
    normalizeLedgerName u s = normalizeLedgerName .ascii s := by
  have hname : nameUp u s = nameUp .ascii s := by
    rw [nameUp_of_isAsciiText u h, nameUp_of_isAsciiText .ascii h]
  have htitle := toTitleCase_of_isAsciiText u
    (isAsciiText_join fun w hw => isAsciiText_of_mem_ledgerWords (u := .ascii) h hw)
  simp only [normalizeLedgerName, hname, htitle]

theorem map_intercalate {α β : Type*} (f : α → β) (sep : List α) (xs : List (List α)) :
    (sep.intercalate xs).map f = (sep.map f).intercalate (xs.map (·.map f)) := by
  match xs with
  | [] => rfl
  | [x] => simp
  | x :: y :: xs =>
    rw [List.intercalate_cons_cons, List.map_append, List.map_append,
      map_intercalate f sep (y :: xs)]
    simp [List.intercalate_cons_cons]

/-- The words of a name come back in upper case, one by one. -/
theorem map_toUpper_toTitleCase (u : Unicode) (h : IsAsciiText s) :
    (toTitleCase u ([' '].intercalate (ledgerWords (nameUp u s)))).map Char.toUpper =
      [' '].intercalate (ledgerWords (nameUp u s)) := by
  rw [toTitleCase_join fun w hw => isWord_of_mem_ledgerWords hw, map_intercalate]
  refine congrArg ([' '].intercalate ·) (List.ext_getElem (by simp) fun i hi hi' => ?_)
  rw [List.getElem_map, List.getElem_mapIdx]
  have hw : (ledgerWords (nameUp u s))[i] ∈ ledgerWords (nameUp u s) := List.getElem_mem _
  rw [map_toUpper_titleWord u i (isAsciiText_of_mem_ledgerWords h hw)]
  refine (List.map_congr_left fun c hc => ?_).trans (List.map_id' _)
  have hmem : c ∈ nameUp u s :=
    (mem_flatten_words.mp (List.mem_flatten.mpr ⟨_, mem_words_of_mem_ledgerWords hw, hc⟩)).1
  exact (mem_nameUp_of_isAsciiText h hmem).2.1

/-! ## Names given by the table -/

theorem mem_of_dictVendor {name : List Char} {canonical : String}
    (h : dictVendor name = some canonical) : canonical ∈ vendorDict.map Prod.snd := by
  obtain ⟨v, hv, rfl⟩ := Option.map_eq_some_iff.mp h
  exact List.mem_map_of_mem (List.mem_of_find?_eq_some hv)

theorem mem_of_aliasOf {canonical : String} (h : aliasOf u s = some canonical) :
    canonical ∈ vendorDict.map Prod.snd := by
  rcases Option.or_eq_some_iff.mp h with h | ⟨-, h⟩
  · exact mem_of_dictVendor h
  · exact mem_of_dictVendor h

/-- A table is checked in two parts. -/
theorem forall_mem_of_take_drop {α : Type*} {p : α → Prop} {xs : List α} (k : ℕ)
    (htake : ∀ x ∈ xs.take k, p x) (hdrop : ∀ x ∈ xs.drop k, p x) : ∀ x ∈ xs, p x := by
  intro x hx
  rw [← List.take_append_drop k xs, List.mem_append] at hx
  exact hx.elim (htake x) (hdrop x)

/-- Of the names that the table gives, three are not their own. -/
theorem normalizeLedgerName_alias_iff {canonical : String}
    (h : canonical ∈ vendorDict.map Prod.snd) :
    normalizeLedgerName u canonical.toList = canonical.toList ↔ canonical ∉ renamedAliases := by
  have hallAscii : ∀ canonical ∈ vendorDict.map Prod.snd,
      canonical.toList.all isAscii = true := by decide +kernel
  have hascii : ∀ canonical ∈ vendorDict.map Prod.snd,
      ∀ c ∈ canonical.toList, isAscii c = true := fun canonical hmem =>
    List.all_eq_true.mp (hallAscii canonical hmem)
  have hstable : ∀ canonical ∈ vendorDict.map Prod.snd,
      normalizeLedgerName .ascii canonical.toList = canonical.toList ↔
        canonical ∉ renamedAliases := by
    refine forall_mem_of_take_drop 16 (by decide +kernel) (forall_mem_of_take_drop 16 ?_ ?_)
    · decide +kernel
    · decide +kernel
  rw [normalizeLedgerName_of_isAsciiText u (hascii canonical h)]
  exact hstable canonical h

/-! ## Text that is lost -/

theorem count_map_toUpper (s : List Char) : (s.map Char.toUpper).count '-' = s.count '-' := by
  rw [List.count_eq_countP, List.countP_map, List.count_eq_countP]
  refine List.countP_congr fun c _ => ?_
  have hkeeps : c.toUpper = '-' ↔ c = '-' := toUpper_eq_iff (by decide)
  simpa using hkeeps

theorem count_join (ws : List (List Char)) :
    ([' '].intercalate ws).count '-' = ws.flatten.count '-' := by
  have hfilter : ∀ s : List Char, (s.filter (· != ' ')).count '-' = s.count '-' :=
    fun s => List.count_filter (by decide)
  rw [← hfilter, filter_intercalate, hfilter]

theorem count_ledgerWords_le (n : List Char) :
    (ledgerWords n).flatten.count '-' ≤ n.count '-' := by
  have hperm : (ledgerWords n).flatten.Perm (leftWords (words isWhitespace n)).flatten :=
    (orderPersonal_perm _).flatten
  rw [hperm.count_eq]
  refine ((leftWords_isPrefix_self _).sublist.flatten.count_le _).trans ?_
  rw [flatten_words]
  exact (List.filter_sublist).count_le _

theorem count_of_alias {canonical : String} (h : aliasOf u s = some canonical) :
    canonical.toList.count '-' = 0 := by
  have htable : ∀ canonical ∈ vendorDict.map Prod.snd, canonical.toList.count '-' = 0 := by
    decide +kernel
  exact htable canonical (mem_of_aliasOf h)

/-- A name has no more hyphens than what is read of it. -/
theorem count_normalizeLedgerName_le (u : Unicode) (h : IsAsciiText s) :
    (normalizeLedgerName u s).count '-' ≤ (nameUp u s).count '-' := by
  cases halias : aliasOf u s with
  | some canonical =>
    rw [normalizeLedgerName_of_alias halias, count_of_alias halias]
    exact Nat.zero_le _
  | none =>
    rw [normalizeLedgerName_of_no_alias halias, ← count_map_toUpper,
      map_toUpper_toTitleCase u h, count_join]
    exact count_ledgerWords_le _

theorem isAsciiText_toTitleCase (u : Unicode) (h : IsAsciiText s) : IsAsciiText
    (toTitleCase u ([' '].intercalate (ledgerWords (nameUp u s)))) := by
  intro c hc
  have hmem := List.mem_map_of_mem (f := Char.toUpper) hc
  rw [map_toUpper_toTitleCase u h] at hmem
  have hupper : isAscii c.toUpper = true :=
    isAsciiText_join (fun w hw => isAsciiText_of_mem_ledgerWords h hw) _ hmem
  cases hascii : isAscii c with
  | true => rfl
  | false => rw [toUpper_of_not_isAscii hascii, hascii] at hupper; exact hupper

theorem count_take_lt_of_find {i : ℕ}
    (h : (List.range s.length).find? (isLocationHyphen s) = some i) :
    (s.take i).count '-' < s.count '-' := by
  have hhyphen := List.find?_some h
  rw [isLocationHyphen, Bool.and_eq_true, beq_iff_eq] at hhyphen
  obtain ⟨hi, hget⟩ := List.getElem?_eq_some_iff.mp hhyphen.1
  have hsplit : s = s.take i ++ '-' :: s.drop (i + 1) := by
    rw [← hget, ← List.drop_eq_getElem_cons hi, List.take_append_drop]
  conv_rhs => rw [hsplit]
  rw [List.count_append, List.count_cons_self]
  omega

/-- Words that do not come back lose a hyphen. -/
theorem comesBack_of_idem (h : IsAsciiText s) (halias : aliasOf u s = none)
    (hidem : normalizeLedgerName u (normalizeLedgerName u s) = normalizeLedgerName u s) :
    ComesBack u (ledgerWords (nameUp u s)) := by
  rw [normalizeLedgerName_of_no_alias halias] at hidem
  have hascii := isAsciiText_toTitleCase u h
  have hupper := map_toUpper_toTitleCase u h
  rw [ComesBack]
  generalize toTitleCase u ([' '].intercalate (ledgerWords (nameUp u s))) = y
    at hidem hascii hupper ⊢
  cases hfind : (List.range y.length).find? (isLocationHyphen y) with
  | some i =>
    have hcut : stripLocationSuffix y <+: y.take i := by
      rw [stripLocationSuffix, hfind]
      exact List.rdropWhile_prefix _ _
    have hle := count_normalizeLedgerName_le u hascii
    have hless : (nameUp u y).count '-' ≤ (y.take i).count '-' := by
      rw [nameUp_of_isAsciiText u hascii]
      refine (trim_sublist.count_le _).trans ?_
      rw [count_map_toUpper]
      exact ((List.filter_sublist).trans hcut.sublist).count_le _
    have hlost := count_take_lt_of_find hfind
    rw [hidem] at hle
    omega
  | none =>
    have hwhole : stripLocationSuffix y = y := by rw [stripLocationSuffix, hfind]
    have hdots : y.filter (· != '.') = y := by
      refine List.filter_eq_self.mpr fun c hc => ?_
      have hmem := List.mem_map_of_mem (f := Char.toUpper) hc
      rw [hupper] at hmem
      have hne : c ≠ '.' := by
        rintro rfl
        rcases mem_intercalate hmem with hspace | hmem
        · cases hspace
        · obtain ⟨w, hw, hc⟩ := List.mem_flatten.mp hmem
          have hin := mem_flatten_words.mp
            (List.mem_flatten.mpr ⟨w, mem_words_of_mem_ledgerWords hw, hc⟩)
          exact (mem_nameUp_of_isAsciiText h hin.1).2.2 rfl
      simpa using hne
    rw [nameUp_of_isAsciiText u hascii, hwhole, hdots, hupper]
    refine trim_intercalate fun w hw => ?_
    have hword := isWord_of_mem_ledgerWords hw
    exact ⟨hword.1, trim_eq_self hword.2⟩

/-- What the table does not know it does not know when words are lost at the end. -/
theorem dictVendor_of_lost {lost : List (List Char)}
    (h : dictVendor ([' '].intercalate (ws ++ lost)) = none) (hlost : lost ≠ []) :
    dictVendor ([' '].intercalate ws) = none := by
  by_cases hws : ws = []
  · subst hws
    exact dictVendor_nil
  · rw [intercalate_append _ _ _ hws hlost, List.append_assoc] at h
    rw [dictVendor, Option.map_eq_none_iff, List.find?_eq_none] at h ⊢
    intro v hv
    have hnot := h v hv
    simp only [Bool.or_eq_true, decide_eq_true_eq, List.isPrefixOf_iff_prefix, not_or] at hnot ⊢
    refine ⟨fun heq => hnot.2 ?_, fun hprefix => hnot.2 ?_⟩
    · rw [heq, ← List.append_assoc]
      exact List.prefix_append _ _
    · exact hprefix.trans (List.prefix_append _ _)

/-- Noise at the end is lost. -/
theorem endsPlain_of_idem (h : IsAsciiText s) (halias : aliasOf u s = none)
    (hback : ComesBack u (ledgerWords (nameUp u s)))
    (hidem : normalizeLedgerName u (normalizeLedgerName u s) = normalizeLedgerName u s) :
    EndsPlain (ledgerWords (nameUp u s)) := by
  by_contra hplain
  obtain ⟨lost, hne, hlost⟩ := ledgerWords_of_noise (words_join_ledgerWords _) hplain
  obtain ⟨left, hleft⟩ : ∃ left,
      ledgerWords ([' '].intercalate (ledgerWords (nameUp u s))) = left := ⟨_, rfl⟩
  rw [hleft] at hlost
  have hname : nameUp u (normalizeLedgerName u s) =
      [' '].intercalate (ledgerWords (nameUp u s)) := by
    rw [normalizeLedgerName_of_no_alias halias]
    exact hback
  obtain ⟨-, hdict⟩ := Option.or_eq_none_iff.mp halias
  have hnone : aliasOf u (normalizeLedgerName u s) = none := by
    have hless : dictVendor ([' '].intercalate left) = none := by
      rw [hlost] at hdict
      exact dictVendor_of_lost hdict hne
    rw [aliasOf, hname, hleft, hdict, hless]
    rfl
  have hascii : IsAsciiText (normalizeLedgerName u s) := by
    rw [normalizeLedgerName_of_no_alias halias]
    exact isAsciiText_toTitleCase u h
  -- the second name is shorter
  have hlong := congrArg List.length (map_toUpper_toTitleCase u h)
  have hshort := congrArg List.length (map_toUpper_toTitleCase u hascii)
  rw [← normalizeLedgerName_of_no_alias halias, List.length_map] at hlong
  rw [← normalizeLedgerName_of_no_alias hnone, List.length_map, hidem, hname, hleft] at hshort
  have hsame := hlong.symm.trans hshort
  rw [hlost] at hsame
  by_cases hnil : left = []
  · have hjoin : [' '].intercalate lost = [] := by
      rw [hnil, List.nil_append] at hsame
      exact List.length_eq_zero_iff.mp hsame
    have hword : ∀ w ∈ lost, IsWord isWhitespace w := by
      intro w hw
      refine isWord_of_mem_ledgerWords (s := nameUp u s) ?_
      rw [hlost]
      exact List.mem_append_right _ hw
    have hwords := words_join (c := ' ') (by decide) hword
    rw [hjoin] at hwords
    exact hne hwords.symm
  · rw [intercalate_append _ _ _ hnil hne, List.length_append, List.length_append,
      List.length_singleton] at hsame
    omega

end

/-! ## The theorem -/

/-- A name stays as it is, once it has been brought into its form, where the form is stable. On
ASCII text it stays nowhere else. -/
theorem normalizeLedgerName_twice (u : Unicode) (s : List Char) :
    (IsGivenStable u s →
      normalizeLedgerName u (normalizeLedgerName u s) = normalizeLedgerName u s) ∧
    (IsAsciiText s →
      (normalizeLedgerName u (normalizeLedgerName u s) = normalizeLedgerName u s ↔
        IsGivenStable u s)) := by
  have hstays : IsGivenStable u s →
      normalizeLedgerName u (normalizeLedgerName u s) = normalizeLedgerName u s := by
    rintro ⟨htable, hwords⟩
    cases halias : aliasOf u s with
    | some canonical =>
      rw [normalizeLedgerName_of_alias halias]
      exact (normalizeLedgerName_alias_iff (mem_of_aliasOf halias)).mpr (htable canonical halias)
    | none =>
      obtain ⟨hback, hplain⟩ := hwords halias
      exact normalizeLedgerName_of_plain halias hback hplain
  refine ⟨hstays, fun hascii => ⟨fun hidem => ⟨fun canonical halias => ?_, fun halias => ?_⟩,
    hstays⟩⟩
  · rw [normalizeLedgerName_of_alias halias] at hidem
    exact (normalizeLedgerName_alias_iff (mem_of_aliasOf halias)).mp hidem
  · have hback := comesBack_of_idem hascii halias hidem
    exact ⟨hback, endsPlain_of_idem hascii halias hback hidem⟩

/-- A name that the table gives is given another one, and noise that is uncovered is lost. -/
theorem ledger_name_is_changed_again :
    normalizeLedgerName .ascii (normalizeLedgerName .ascii "GPAY".toList) ≠
      normalizeLedgerName .ascii "GPAY".toList ∧
    normalizeLedgerName .ascii (normalizeLedgerName .ascii "XOO LTD BAR".toList) ≠
      normalizeLedgerName .ascii "XOO LTD BAR".toList := by
  decide +kernel

end Desktop
