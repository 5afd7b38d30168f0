import BankStatementProcessor.Desktop.Rules

/-!
# What an import reads from an export

The export escapes quotes and backslashes, and the expression of the import knows no escapes:
a group ends at the first quote, escaped or not. So a rule with a quote in its pattern, vendor
or ledger is not found again, a backslash comes back twice, and a type is cut at its first
quote. No rule is read from a place where none was written, whatever the texts are.
-/

namespace Desktop

open Infra Piece

/-! ## Escapes -/

def escapeChar (c : Char) : List Char :=
  if c = '\\' then ['\\', '\\'] else if c = '"' then ['\\', '"'] else [c]

theorem jsonEscape_eq (cs : List Char) : jsonEscape cs = cs.flatMap escapeChar := by
  rw [jsonEscape, replaceChar, replaceChar, List.flatMap_assoc]
  congr 1
  funext c
  by_cases hback : c = '\\'
  · subst hback
    rfl
  · simp [escapeChar, hback]

@[simp] theorem jsonEscape_nil : jsonEscape [] = [] := rfl

theorem jsonEscape_cons (c : Char) (cs : List Char) :
    jsonEscape (c :: cs) = escapeChar c ++ jsonEscape cs := by
  rw [jsonEscape_eq, jsonEscape_eq, List.flatMap_cons]

theorem jsonEscape_append (cs ds : List Char) :
    jsonEscape (cs ++ ds) = jsonEscape cs ++ jsonEscape ds := by
  rw [jsonEscape_eq, jsonEscape_eq, jsonEscape_eq, List.flatMap_append]

/-- The texts that come back from a group. -/
def hasQuote (s : String) : Bool := s.toList.contains '"'

/-- A text without quotes has none when its backslashes are doubled. -/
theorem jsonEscape_eq_replaceChar {cs : List Char} (h : '"' ∉ cs) :
    jsonEscape cs = replaceChar '\\' ['\\', '\\'] cs := by
  induction cs with
  | nil => rfl
  | cons c cs ih =>
    rw [List.mem_cons, not_or] at h
    rw [jsonEscape_cons, ih h.2, escapeChar, replaceChar, replaceChar, List.flatMap_cons]
    split
    · rfl
    · rw [if_neg (Ne.symm h.1)]

theorem quote_notMem_replaceChar {cs : List Char} (h : '"' ∉ cs) :
    (replaceChar '\\' ['\\', '\\'] cs).all (· != '"') = true := by
  rw [replaceChar, List.all_flatMap, List.all_eq_true]
  intro c hc
  split
  · rfl
  · have hne : c ≠ '"' := fun heq => h (heq ▸ hc)
    simpa using hne

/-! ## Where no rule begins -/

theorem objRe_eq : objRe = .lit "\"pattern\"".toList :: .run isSpace :: .lit [':'] ::
    (objRe.drop 3) := rfl

/-- A match begins with a quote. -/
theorem matchAt_objRe_ne {c : Char} (h : c ≠ '"') (z : List Char) :
    matchAt objRe (c :: z) = none :=
  matchAt_lit_cons_ne h

/-- Its key does. -/
theorem matchAt_objRe_eq_none {z : List Char} (h : ¬"pattern\"".toList <+: z) :
    matchAt objRe ('"' :: z) = none := by
  apply matchAt_lit_eq_none
  intro hprefix
  exact h (List.cons_prefix_cons.mp hprefix).2

theorem matchAt_objRe_quote_ne {c : Char} (h : c ≠ 'p') (z : List Char) :
    matchAt objRe ('"' :: c :: z) = none := by
  apply matchAt_objRe_eq_none
  intro hprefix
  exact h (List.cons_prefix_cons.mp hprefix).1.symm

/-- What stands in quotes is the word before the first quote, or it has an escape. -/
theorem eq_of_prefix_escaped {key cs z : List Char} (hquote : '"' ∉ key) (hback : '\\' ∉ key)
    (h : key ++ ['"'] <+: jsonEscape cs ++ '"' :: z) : cs = key := by
  induction key generalizing cs with
  | nil =>
    cases cs with
    | nil => rfl
    | cons c cs =>
      rw [jsonEscape_cons, escapeChar] at h
      split at h
      · cases (List.cons_prefix_cons.mp h).1
      · split at h
        · cases (List.cons_prefix_cons.mp h).1
        · next hc => exact absurd (List.cons_prefix_cons.mp h).1.symm hc
  | cons k key ih =>
    rw [List.mem_cons, not_or] at hquote hback
    cases cs with
    | nil => exact absurd (List.cons_prefix_cons.mp h).1.symm hquote.1
    | cons c cs =>
      rw [jsonEscape_cons, escapeChar] at h
      split at h
      · exact absurd (List.cons_prefix_cons.mp h).1.symm hback.1
      · split at h
        · exact absurd (List.cons_prefix_cons.mp h).1.symm hback.1
        · obtain ⟨hk, hrest⟩ := List.cons_prefix_cons.mp h
          rw [hk, ih hquote.2 hback.2 hrest]

/-- The characters that follow a value. -/
def IsStop (c : Char) : Prop := c = ',' ∨ c = '}'

variable {c : Char} {z : List Char}

/-- No rule begins with the opening quote of a value or with an escaped one. -/
theorem matchAt_objRe_value (hc : IsStop c) (cs : List Char) :
    matchAt objRe ('"' :: (jsonEscape cs ++ '"' :: c :: z)) = none := by
  by_cases hprefix : "pattern\"".toList <+: jsonEscape cs ++ '"' :: c :: z
  · -- the value is the word itself, and no colon follows
    have hcs : cs = "pattern".toList := eq_of_prefix_escaped (by decide) (by decide) hprefix
    have htext : '"' :: (jsonEscape cs ++ '"' :: c :: z) = "\"pattern\"".toList ++ c :: z := by
      rw [hcs]
      rfl
    rw [htext, objRe_eq, matchAt_lit_append, matchAt_run_lit (by decide)]
    rcases hc with rfl | rfl
    · exact matchAt_lit_cons_ne (by decide)
    · exact matchAt_lit_cons_ne (by decide)
  · exact matchAt_objRe_eq_none hprefix

theorem noMatchIn_escaped (hc : IsStop c) (cs : List Char) :
    NoMatchIn objRe (jsonEscape cs ++ ['"']) (c :: z) := by
  induction cs with
  | nil =>
    refine ⟨?_, trivial⟩
    rcases hc with rfl | rfl
    · exact matchAt_objRe_quote_ne (by decide) z
    · exact matchAt_objRe_quote_ne (by decide) z
  | cons d cs ih =>
    rw [jsonEscape_cons, escapeChar]
    split
    · exact ⟨matchAt_objRe_ne (by decide) _, matchAt_objRe_ne (by decide) _, ih⟩
    · split
      · refine ⟨matchAt_objRe_ne (by decide) _, ?_, ih⟩
        have hvalue := matchAt_objRe_value (z := z) hc cs
        simpa using hvalue
      · next hquote => exact ⟨matchAt_objRe_ne hquote _, ih⟩

theorem noMatchIn_jsonStr (hc : IsStop c) (s : String) :
    NoMatchIn objRe (jsonStr s) (c :: z) := by
  refine ⟨?_, noMatchIn_escaped hc s.toList⟩
  have hvalue := matchAt_objRe_value (z := z) hc s.toList
  simpa using hvalue

/-- A text with no quote at its end and no `p` behind a quote. -/
def isPassed : List Char → Bool
  | [] => true
  | ['"'] => false
  | '"' :: c :: cs => c != 'p' && isPassed (c :: cs)
  | _ :: cs => isPassed cs

theorem noMatchIn_of_isPassed (w : List Char) (h : isPassed w = true) :
    NoMatchIn objRe w z := by
  fun_induction isPassed w with
  | case1 => trivial
  | case2 => cases h
  | case3 c cs ih =>
    rw [Bool.and_eq_true, bne_iff_ne] at h
    exact ⟨matchAt_objRe_quote_ne h.1 _, ih h.2⟩
  | case4 c cs hlast hquote ih =>
    refine ⟨matchAt_objRe_ne ?_ _, ih h⟩
    rintro rfl
    cases cs with
    | nil => exact hlast rfl rfl
    | cons d cs => exact hquote d cs rfl rfl

/-! ## What a group captures -/

/-- What the group captures of a value, and where it goes on. -/
def groupText (cs : List Char) : List Char := (jsonEscape cs ++ ['"']).takeWhile (· != '"')

def afterGroup (cs z : List Char) : List Char :=
  ((jsonEscape cs ++ '"' :: z).dropWhile (· != '"')).tail

theorem groupText_eq (cs z : List Char) :
    (jsonEscape cs ++ '"' :: z).takeWhile (· != '"') = groupText cs := by
  rw [groupText]
  generalize jsonEscape cs = ds
  induction ds with
  | nil => rfl
  | cons d ds ih => rw [List.cons_append, List.cons_append, List.takeWhile, List.takeWhile, ih]

/-- A value without quotes is captured whole. -/
theorem group_of_noQuote {cs : List Char} (h : '"' ∉ cs) (z : List Char) :
    groupText cs = replaceChar '\\' ['\\', '\\'] cs ∧ afterGroup cs z = z := by
  have hall : ∀ c ∈ jsonEscape cs, (c != '"') = true := by
    rw [jsonEscape_eq_replaceChar h]
    exact List.all_eq_true.mp (quote_notMem_replaceChar h)
  rw [groupText, afterGroup, List.takeWhile_append_of_pos hall, List.dropWhile_append_of_pos hall,
    jsonEscape_eq_replaceChar h]
  simp

/-- A value with a quote is cut there: the group ends with a backslash, and the rest of the
value follows. -/
theorem group_of_quote {cs : List Char} (h : '"' ∈ cs) :
    '\\' ∈ groupText cs ∧
      ∃ ds, ∀ z, afterGroup cs z = jsonEscape ds ++ '"' :: z := by
  induction cs with
  | nil => cases h
  | cons c cs ih =>
    by_cases hback : c = '\\'
    · subst hback
      obtain ⟨-, ds, hds⟩ := ih (by simpa using h)
      exact ⟨by simp [groupText, jsonEscape_cons, escapeChar], ds, hds⟩
    · by_cases hquote : c = '"'
      · subst hquote
        exact ⟨by simp [groupText, jsonEscape_cons, escapeChar], cs, fun z => rfl⟩
      · have hmem : '"' ∈ cs := by simpa [Ne.symm hquote] using h
        obtain ⟨htext, ds, hds⟩ := ih hmem
        have hne : (c != '"') = true := by simpa using hquote
        refine ⟨?_, ds, fun z => ?_⟩
        · rw [groupText, jsonEscape_cons, escapeChar, if_neg hback, if_neg hquote,
            List.singleton_append, List.cons_append, List.takeWhile_cons_of_pos (p := (· != '"')) hne]
          exact List.mem_cons_of_mem _ htext
        · rw [← hds z, afterGroup, afterGroup, jsonEscape_cons, escapeChar, if_neg hback,
            if_neg hquote, List.singleton_append, List.cons_append,
            List.dropWhile_cons_of_pos (p := (· != '"')) hne]

variable {ps : List Piece}

/-- A key and its value, up to where the group ends. -/
theorem matchAt_keyedGroup (key cs : List Char) :
    matchAt (keyedGroup key ++ ps)
        (('"' :: key ++ ['"']) ++ (':' :: '"' :: (jsonEscape cs ++ '"' :: z))) =
      (matchAt ps (afterGroup cs z)).map fun m => (groupText cs :: m.1, m.2) := by
  have hquote : '"' ∈ jsonEscape cs ++ '"' :: z := by simp
  have hpieces : keyedGroup key ++ ps = .lit ('"' :: key ++ ['"']) :: .run isSpace :: .lit [':'] ::
      .run isSpace :: .lit ['"'] :: .group (· != '"') :: .lit ['"'] :: ps := rfl
  rw [hpieces, matchAt_lit_append, matchAt_run_lit_self (by decide),
    matchAt_run_lit_self (by decide), matchAt_group_lit hquote, groupText_eq, afterGroup]

/-- A comma with no space around it. -/
theorem matchAt_commaPieces {d : Char} {key : List Char} (hd : isSpace d = false) :
    matchAt (commaPieces ++ .lit (d :: key) :: ps) (',' :: d :: z) =
      matchAt (.lit (d :: key) :: ps) (d :: z) := by
  have hpieces : commaPieces ++ .lit (d :: key) :: ps =
      .run isSpace :: .lit [','] :: .run isSpace :: .lit (d :: key) :: ps := rfl
  rw [hpieces, matchAt_run_lit_self (by decide), matchAt_run_lit hd,
    List.dropWhile_cons_of_neg (by simp [hd])]

/-- Spaces are not escaped. -/
theorem dropWhile_isSpace_jsonEscape (cs : List Char) :
    ∃ ds, (jsonEscape cs ++ '"' :: z).dropWhile isSpace = jsonEscape ds ++ '"' :: z := by
  induction cs with
  | nil => exact ⟨[], rfl⟩
  | cons c cs ih =>
    by_cases hc : isSpace c = true
    · have hescape : escapeChar c = [c] := by
        rw [escapeChar, if_neg, if_neg]
        · rintro rfl
          exact absurd hc (by decide)
        · rintro rfl
          exact absurd hc (by decide)
      obtain ⟨ds, hds⟩ := ih
      refine ⟨ds, ?_⟩
      rw [jsonEscape_cons, hescape, List.singleton_append, List.cons_append,
        List.dropWhile_cons_of_pos hc, hds]
    · refine ⟨c :: cs, ?_⟩
      rw [jsonEscape_cons, escapeChar]
      split
      · rfl
      · split
        · rfl
        · rw [List.singleton_append, List.cons_append, List.dropWhile_cons_of_neg hc]

/-- Behind a quote that was escaped no key follows: its own quote would be escaped too. -/
theorem matchAt_commaPieces_escaped {key : List Char} (hkey : key.head?.any (· != ',') = true)
    (cs : List Char) :
    matchAt (commaPieces ++ .lit ('"' :: key) :: ps) (jsonEscape cs ++ '"' :: ',' :: z) = none := by
  have hpieces : commaPieces ++ .lit ('"' :: key) :: ps =
      .run isSpace :: .lit [','] :: .run isSpace :: .lit ('"' :: key) :: ps := rfl
  obtain ⟨ds, hds⟩ := dropWhile_isSpace_jsonEscape (z := ',' :: z) cs
  rw [hpieces, matchAt_run_lit (by decide), hds]
  cases ds with
  | nil => exact matchAt_lit_cons_ne (by decide)
  | cons d ds =>
    by_cases hd : d = ','
    · subst hd
      obtain ⟨es, hes⟩ := dropWhile_isSpace_jsonEscape (z := ',' :: z) ds
      have hcomma : jsonEscape (',' :: ds) = ',' :: jsonEscape ds := jsonEscape_cons _ _
      rw [hcomma, List.cons_append, matchAt_lit_self, matchAt_run_lit (by decide), hes]
      cases es with
      | nil =>
        apply matchAt_lit_eq_none
        intro hprefix
        have hrest := (List.cons_prefix_cons.mp hprefix).2
        cases key with
        | nil => cases hkey
        | cons k key =>
          rw [(List.cons_prefix_cons.mp hrest).1] at hkey
          cases hkey
      | cons e es =>
        rw [jsonEscape_cons, escapeChar]
        split
        · exact matchAt_lit_cons_ne (by decide)
        · split
          · exact matchAt_lit_cons_ne (by decide)
          · next hquote => exact matchAt_lit_cons_ne hquote
    · rw [jsonEscape_cons, escapeChar]
      split
      · exact matchAt_lit_cons_ne (by decide)
      · split
        · exact matchAt_lit_cons_ne (by decide)
        · exact matchAt_lit_cons_ne hd

/-! ## One rule -/

/-- A key and its value before `z`. -/
def keyedText (key : List Char) (s : String) (z : List Char) : List Char :=
  ('"' :: key ++ ['"']) ++ (':' :: '"' :: (jsonEscape s.toList ++ '"' :: z))

theorem matchAt_keyedText {key' : List Char} (hkey : (key' ++ ['"']).head?.any (· != ',') = true)
    (key : List Char) (s s' : String) :
    matchAt (keyedGroup key ++ (commaPieces ++ (keyedGroup key' ++ ps)))
        (keyedText key s (',' :: keyedText key' s' z)) =
      if hasQuote s then none
      else (matchAt (keyedGroup key' ++ ps) (keyedText key' s' z)).map
        fun m => (groupText s.toList :: m.1, m.2) := by
  rw [keyedText, matchAt_keyedGroup]
  split
  · next hquote =>
    obtain ⟨-, ds, hds⟩ := group_of_quote (by simpa [hasQuote] using hquote)
    have hnone : matchAt (commaPieces ++ (keyedGroup key' ++ ps))
        (jsonEscape ds ++ '"' :: ',' :: keyedText key' s' z) = none :=
      matchAt_commaPieces_escaped hkey ds
    rw [hds, hnone, Option.map_none]
  · next hquote =>
    have hgroup := group_of_noQuote (by simpa [hasQuote] using hquote)
      (',' :: keyedText key' s' z)
    have hcomma : matchAt (commaPieces ++ (keyedGroup key' ++ ps)) (',' :: keyedText key' s' z) =
        matchAt (keyedGroup key' ++ ps) (keyedText key' s' z) :=
      matchAt_commaPieces (by decide)
    rw [hgroup.2, hcomma]

/-- The groups of the match at a rule. -/
def readGroups (r : ClassificationRule) : Option (List (List Char)) :=
  if hasQuote r.pattern || hasQuote r.vendor || hasQuote r.accountHead then none
  else some [groupText r.pattern.toList, groupText r.vendor.toList, groupText r.accountHead.toList,
    groupText r.txnType.toList]

/-- The object without its first brace. -/
def objectText (r : ClassificationRule) (z : List Char) : List Char :=
  keyedText "pattern".toList r.pattern (',' :: keyedText "vendor".toList r.vendor
    (',' :: keyedText "account_head".toList r.accountHead
      (',' :: keyedText "txn_type".toList r.txnType ('}' :: z))))

theorem ruleObject_append (r : ClassificationRule) (z : List Char) :
    ruleObject r ++ z = '{' :: objectText r z := by
  simp [ruleObject, objectText, keyedText, jsonStr]

theorem matchAt_objectText (r : ClassificationRule) (z : List Char) :
    matchAt objRe (objectText r z) =
      (readGroups r).map fun groups => (groups, afterGroup r.txnType.toList ('}' :: z)) := by
  have hpieces : objRe = keyedGroup "pattern".toList ++ (commaPieces ++
      (keyedGroup "vendor".toList ++ (commaPieces ++ (keyedGroup "account_head".toList ++
        (commaPieces ++ (keyedGroup "txn_type".toList ++ [])))))) := rfl
  have htype : matchAt (keyedGroup "txn_type".toList ++ [])
      (keyedText "txn_type".toList r.txnType ('}' :: z)) =
        some ([groupText r.txnType.toList], afterGroup r.txnType.toList ('}' :: z)) :=
    matchAt_keyedGroup _ _
  rw [hpieces, objectText, matchAt_keyedText (by decide), matchAt_keyedText (by decide),
    matchAt_keyedText (by decide), htype, readGroups]
  cases hasQuote r.pattern <;> cases hasQuote r.vendor <;> cases hasQuote r.accountHead <;> rfl

/-- No rule begins inside of one. -/
theorem noMatchIn_objectText (r : ClassificationRule) (z : List Char) :
    NoMatchIn objRe (objectText r []).tail z := by
  have htext : (objectText r []).tail = "pattern\":".toList ++ (jsonStr r.pattern ++
      (",\"vendor\":".toList ++ (jsonStr r.vendor ++ (",\"account_head\":".toList ++
        (jsonStr r.accountHead ++ (",\"txn_type\":".toList ++ (jsonStr r.txnType ++ ['}']))))))) := by
    simp [objectText, keyedText, jsonStr]
  rw [htext]
  refine (noMatchIn_of_isPassed _ (by decide)).append ?_
  refine (noMatchIn_jsonStr (Or.inl rfl) _).append ?_
  refine (noMatchIn_of_isPassed _ (by decide)).append ?_
  refine (noMatchIn_jsonStr (Or.inl rfl) _).append ?_
  refine (noMatchIn_of_isPassed _ (by decide)).append ?_
  refine (noMatchIn_jsonStr (Or.inl rfl) _).append ?_
  refine (noMatchIn_of_isPassed _ (by decide)).append ?_
  exact (noMatchIn_jsonStr (Or.inr rfl) _).append (noMatchIn_of_isPassed _ (by decide))

/-- The search goes on behind the value that the last group was read from. -/
theorem captures_afterGroup (cs z : List Char) :
    captures objRe 0 (afterGroup cs ('}' :: z)) = captures objRe 0 z := by
  have hbrace : captures objRe 0 ('}' :: z) = captures objRe 0 z :=
    NoMatchIn.captures (w := ['}']) (noMatchIn_of_isPassed _ (by decide))
  by_cases hquote : '"' ∈ cs
  · obtain ⟨-, ds, hds⟩ := group_of_quote hquote
    have hvalue := (noMatchIn_escaped (z := z) (Or.inr rfl) ds).captures
    rw [List.append_assoc] at hvalue
    rw [hds, ← hbrace]
    exact hvalue
  · rw [(group_of_noQuote hquote _).2, hbrace]

/-- **What the search finds at a rule**, whatever follows it. -/
theorem captures_ruleObject (r : ClassificationRule) (z : List Char) :
    captures objRe 0 (ruleObject r ++ z) = (readGroups r).toList ++ captures objRe 0 z := by
  have hbrace : captures objRe 0 ('{' :: objectText r z) = captures objRe 0 (objectText r z) :=
    NoMatchIn.captures (w := ['{']) (noMatchIn_of_isPassed _ (by decide))
  have hmatch := matchAt_objectText r z
  rw [ruleObject_append, hbrace]
  cases hread : readGroups r with
  | none =>
    rw [hread, Option.map_none] at hmatch
    have hquote : NoMatchIn objRe ('"' :: (objectText r []).tail) z := by
      refine ⟨?_, noMatchIn_objectText r z⟩
      rw [← hmatch]
      simp [objectText, keyedText]
    have htext : objectText r z = '"' :: (objectText r []).tail ++ z := by
      simp [objectText, keyedText]
    rw [htext, hquote.captures]
    rfl
  | some groups =>
    rw [hread, Option.map_some] at hmatch
    have hfound : captures objRe 0 (objectText r z) =
        groups :: captures objRe 0 (afterGroup r.txnType.toList ('}' :: z)) :=
      captures_of_match hmatch
    rw [hfound]
    rw [Option.toList_some, List.singleton_append]
    exact congrArg _ (captures_afterGroup _ _)

/-! ## The whole array -/

theorem captures_rules (rules : List ClassificationRule) :
    captures objRe 0 ([','].intercalate (rules.map ruleObject) ++ "]\x7d".toList) =
      rules.filterMap readGroups := by
  have hpass : ∀ w z, isPassed w = true → captures objRe 0 (w ++ z) = captures objRe 0 z :=
    fun w z hw => (noMatchIn_of_isPassed w hw).captures
  have hend : captures objRe 0 "]\x7d".toList = [] := hpass "]\x7d".toList [] (by decide)
  induction rules with
  | nil => exact hend
  | cons r rules ih =>
    cases rules with
    | nil =>
      rw [List.map_singleton, List.intercalate_singleton, captures_ruleObject, hend,
        List.append_nil]
      cases hread : readGroups r <;> simp [hread]
    | cons r' rules =>
      rw [List.map_cons, List.map_cons, List.intercalate_cons_cons, ← List.map_cons,
        List.append_assoc, List.append_assoc, captures_ruleObject, hpass [','] _ (by decide), ih]
      cases hread : readGroups r <;> simp [hread]

def doubleBackslash (s : String) : String :=
  String.ofList (replaceChar '\\' ['\\', '\\'] s.toList)

/-- A type up to its first quote, read with the backslash before it. -/
def cutType (s : String) : String := String.ofList (groupText s.toList)

/-- What an import reads of a rule. -/
def readRule (r : ClassificationRule) : Option RuleText :=
  if hasQuote r.pattern || hasQuote r.vendor || hasQuote r.accountHead then none
  else some ⟨doubleBackslash r.pattern, doubleBackslash r.vendor, doubleBackslash r.accountHead,
    cutType r.txnType⟩

theorem readGroups_map (r : ClassificationRule) :
    (readGroups r).map capturedRule = readRule r := by
  rw [readGroups, readRule]
  split
  · rfl
  · next hquote =>
    have hfree : ∀ s : String, hasQuote s = false → String.ofList (groupText s.toList) =
        doubleBackslash s := by
      intro s hs
      rw [doubleBackslash, (group_of_noQuote (by simpa [hasQuote] using hs) []).1]
    simp only [Bool.or_eq_true, not_or, Bool.not_eq_true] at hquote
    obtain ⟨⟨hpattern, hvendor⟩, hhead⟩ := hquote
    rw [← hfree _ hpattern, ← hfree _ hvendor, ← hfree _ hhead]
    rfl

theorem findText_rules (z : List Char) :
    findText "\"rules\"".toList ("\x7b\"version\":1,\"rules\":[".toList ++ z) =
      some ("\"rules\":[".toList ++ z) := by
  simp [findText]

theorem findText_bracket (z : List Char) :
    findText ['['] ("\"rules\":[".toList ++ z) = some ('[' :: z) := by
  simp [findText]

theorem rulesArray_rulesJson (rules : List ClassificationRule) :
    rulesArray (rulesJson rules) =
      some ([','].intercalate (rules.map ruleObject) ++ "]\x7d".toList) := by
  have hjson : rulesJson rules = "\x7b\"version\":1,\"rules\":[".toList ++
      ([','].intercalate (rules.map ruleObject) ++ "]\x7d".toList) := List.append_assoc _ _ _
  rw [rulesArray, hjson, findText_rules, Option.bind_some, findText_bracket, Option.map_some,
    List.tail_cons]

/-- **What an import reads of an export.** -/
theorem capturedRules_export (rules : List ClassificationRule) :
    (rulesArray (rulesJson rules)).map capturedRules = some (rules.filterMap readRule) := by
  rw [rulesArray_rulesJson, Option.map_some, capturedRules, captures_rules, List.map_filterMap]
  congr 2
  funext r
  exact readGroups_map r

/-! ## What comes back unchanged -/

theorem replaceChar_of_notMem {c : Char} {text cs : List Char} (h : c ∉ cs) :
    replaceChar c text cs = cs := by
  induction cs with
  | nil => rfl
  | cons d cs ih =>
    rw [List.mem_cons, not_or] at h
    rw [replaceChar, List.flatMap_cons, if_neg (Ne.symm h.1)]
    exact congrArg _ (ih h.2)

def hasBackslash (s : String) : Bool := s.toList.contains '\\'

theorem doubleBackslash_eq {s : String} (h : hasBackslash s = false) : doubleBackslash s = s := by
  rw [doubleBackslash, replaceChar_of_notMem (by simpa [hasBackslash] using h),
    String.ofList_toList]

theorem replaceChar_backslash_injective :
    Function.Injective (replaceChar '\\' ['\\', '\\']) := by
  intro cs
  induction cs with
  | nil =>
    intro ds h
    cases ds with
    | nil => rfl
    | cons d ds =>
      rw [replaceChar, replaceChar, List.flatMap_cons] at h
      split at h <;> cases h
  | cons c cs ih =>
    intro ds h
    cases ds with
    | nil =>
      rw [replaceChar, replaceChar, List.flatMap_cons] at h
      split at h <;> cases h
    | cons d ds =>
      rw [replaceChar, replaceChar, List.flatMap_cons, List.flatMap_cons] at h
      by_cases hc : c = '\\' <;> by_cases hd : d = '\\'
      · rw [if_pos hc, if_pos hd] at h
        rw [hc, hd, ih (List.append_cancel_left h)]
      · rw [if_pos hc, if_neg hd] at h
        exact absurd (List.cons.inj h).1.symm hd
      · rw [if_neg hc, if_pos hd] at h
        exact absurd (List.cons.inj h).1 hc
      · rw [if_neg hc, if_neg hd] at h
        obtain ⟨hhead, hrest⟩ := List.cons.inj h
        rw [hhead, ih hrest]

theorem doubleBackslash_injective : Function.Injective doubleBackslash := by
  intro s s' h
  rw [← String.toList_inj, replaceChar_backslash_injective (String.ofList_injective h)]

theorem toLower_eq_backslash {c : Char} : c.toLower = '\\' ↔ c = '\\' := by
  unfold Char.toLower
  split
  · next h =>
    have hlow : 65 ≤ c.val.toNat := h.1
    have hhigh : c.val.toNat ≤ 90 := h.2
    have hsum : (c.val + ('a'.val - 'A'.val)).toNat = c.val.toNat + 32 := by
      rw [UInt32.toNat_add, show ('a'.val - 'A'.val).toNat = 32 from rfl]
      omega
    constructor
    · intro heq
      have hval : (c.val + ('a'.val - 'A'.val)).toNat = 92 := congrArg (fun c => c.val.toNat) heq
      omega
    · rintro rfl
      exact absurd hhigh (by decide)
  · exact Iff.rfl

/-- Letters are no backslashes, so the case of a text may be folded before or after. -/
theorem noCase_doubleBackslash (s : String) :
    noCase (doubleBackslash s) = replaceChar '\\' ['\\', '\\'] (noCase s) := by
  rw [noCase, noCase, doubleBackslash, String.toList_ofList]
  induction s.toList with
  | nil => rfl
  | cons c cs ih =>
    rw [replaceChar, List.map_cons, replaceChar, List.flatMap_cons, List.flatMap_cons,
      List.map_append]
    by_cases hc : c = '\\'
    · rw [if_pos hc, if_pos (toLower_eq_backslash.mpr hc)]
      exact congrArg _ ih
    · rw [if_neg hc, if_neg (fun h => hc (toLower_eq_backslash.mp h))]
      exact congrArg _ ih

/-- A type is read as one of the known names only if it is that name. -/
theorem cutType_eq_iff (s name : String) (hquote : hasQuote name = false)
    (hback : hasBackslash name = false) : cutType s = name ↔ s = name := by
  have hname : '\\' ∉ name.toList := by simpa [hasBackslash] using hback
  by_cases hs : '"' ∈ s.toList
  · constructor
    · rintro rfl
      rw [cutType, String.toList_ofList] at hname
      exact absurd (group_of_quote hs).1 hname
    · rintro rfl
      exact absurd hs (by simpa [hasQuote] using hquote)
  · have hcut : cutType s = doubleBackslash s := by
      rw [cutType, (group_of_noQuote hs []).1, doubleBackslash]
    constructor
    · intro h
      apply doubleBackslash_injective
      rw [← hcut, h, doubleBackslash_eq hback]
    · rintro rfl
      rw [hcut, doubleBackslash_eq hback]

end Desktop
