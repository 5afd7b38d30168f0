import BankStatementProcessor.Desktop.Properties.RulesImport
import BankStatementProcessor.Desktop.Properties.VoucherDirection

/-!
# Restoring a backup of the rules

A client's rules are exported, deleted and imported again. The classification asks only which
rule is the first to match and what it sets, so a rule that comes back damaged or not at all
shows in the narrations it decides, unless another rule does there what it did.
-/

namespace Desktop

open Infra

/-! ## What a rule does -/

/-- The voucher type a rule sets. -/
def namedType (txnType : String) : Option VoucherType :=
  if txnType = "Payment" then some .payment
  else if txnType = "Receipt" then some .receipt
  else if txnType = "Contra" then some .contra
  else none

theorem ruleVoucherType_eq (r : ClassificationRule) (current : VoucherType) :
    ruleVoucherType r current = (namedType r.txnType).getD current := by
  rw [ruleVoucherType, namedType]
  split
  · rfl
  · split
    · rfl
    · split <;> rfl

theorem namedType_ne_journal (s : String) : namedType s ≠ some .journal := by
  rw [namedType]
  split
  · simp
  · split
    · simp
    · split <;> simp

/-- A type cut at its first quote sets what it set before. -/
theorem namedType_cutType (s : String) : namedType (cutType s) = namedType s := by
  rw [namedType, namedType]
  simp only [cutType_eq_iff s "Payment" (by decide) (by decide),
    cutType_eq_iff s "Receipt" (by decide) (by decide),
    cutType_eq_iff s "Contra" (by decide) (by decide)]

/-- What a rule sets; an empty text sets nothing. -/
structure RuleAction where
  vendor : String
  accountHead : String
  txnType : Option VoucherType
deriving DecidableEq, Repr

def ClassificationRule.action (r : ClassificationRule) : RuleAction :=
  ⟨r.vendor, r.accountHead, namedType r.txnType⟩

section

variable (parts : ClassifierParts)

/-- What the rules do to a text. -/
def ruleAction (upper : List Char) (rules : List ClassificationRule) : Option RuleAction :=
  (applyRules parts upper rules).map ClassificationRule.action

variable {parts} {rules rules' : List ClassificationRule} {t : Transaction}
  (bankLedger : String)

/-- Rules of a client that do the same classify the same. -/
theorem classifyText_congr (hrules : ∀ r ∈ rules, r.clientId ≠ 0)
    (hrules' : ∀ r ∈ rules', r.clientId ≠ 0)
    (h : ruleAction parts (upperText parts t) rules = ruleAction parts (upperText parts t) rules') :
    classifyText parts t bankLedger rules = classifyText parts t bankLedger rules' := by
  rw [ruleAction, ruleAction] at h
  rw [classifyText, classifyText]
  cases hr : applyRules parts (upperText parts t) rules with
  | none =>
    rw [hr, Option.map_none] at h
    rw [Option.map_eq_none_iff.mp h.symm]
  | some r =>
    rw [hr, Option.map_some] at h
    obtain ⟨r', hr', haction⟩ := Option.map_eq_some_iff.mp h.symm
    have hclient := hrules r (List.mem_of_find?_eq_some hr)
    have hclient' := hrules' r' (List.mem_of_find?_eq_some hr')
    simp only [ClassificationRule.action, RuleAction.mk.injEq] at haction
    obtain ⟨hvendor, hhead, htype⟩ := haction
    simp only [hr', applyRule, ruleVoucherType_eq, hvendor, hhead, htype, if_neg hclient,
      if_neg hclient']

/-- The transaction with nothing set that a rule sets, and with a type that no rule sets. -/
def Transaction.blank (t : Transaction) : Transaction :=
  { t with vendor := "", accountHead := "", txnType := .journal }

theorem upperText_blank : upperText parts t.blank = upperText parts t := rfl

/-- Without the GST analysis the last steps touch the tags and an unknown type only. -/
theorem classifyOne_eq :
    let text := classifyText parts t bankLedger rules
    let out := classifyOne parts bankLedger rules false false t
    out.classificationSource = text.classificationSource ∧ out.vendor = text.vendor ∧
      out.accountHead = text.accountHead ∧
      (text.txnType ≠ .unknown → out.txnType = text.txnType) := by
  intro text out
  have htyped : (inferMissing parts (upperText parts t) text).classificationSource =
        text.classificationSource ∧
      (inferMissing parts (upperText parts t) text).vendor = text.vendor ∧
      (inferMissing parts (upperText parts t) text).accountHead = text.accountHead ∧
      (text.txnType ≠ .unknown →
        (inferMissing parts (upperText parts t) text).txnType = text.txnType) := by
    rw [inferMissing]
    split
    · next hunknown => exact ⟨rfl, rfl, rfl, fun h => absurd hunknown h⟩
    · exact ⟨rfl, rfl, rfl, fun _ => rfl⟩
  have hout : out = inferMissing parts (upperText parts t) text ∨
      ∃ tag, out = addTag tag (inferMissing parts (upperText parts t) text) := by
    simp only [out, classifyOne, Bool.false_eq_true, if_false]
    split
    · next tag _ => exact Or.inr ⟨tag, rfl⟩
    · exact Or.inl rfl
  rcases hout with hout | ⟨tag, hout⟩
  · rw [hout]
    exact htyped
  · rw [hout]
    exact htyped

theorem classifyOne_blank_of_rule {r : ClassificationRule}
    (h : applyRules parts (upperText parts t) rules = some r) :
    let out := classifyOne parts bankLedger rules false false t.blank
    out.classificationSource = "rule" ∧ out.vendor = r.vendor ∧ out.accountHead = r.accountHead ∧
      out.txnType = (namedType r.txnType).getD .journal := by
  have htext : classifyText parts t.blank bankLedger rules = applyRule r t.blank := by
    rw [classifyText]
    simp only [upperText_blank, h]
  have htype : (applyRule r t.blank).txnType = (namedType r.txnType).getD .journal := by
    rw [applyRule, ruleVoucherType_eq]
    rfl
  have hknown : (applyRule r t.blank).txnType ≠ .unknown := by
    rw [htype, namedType]
    split
    · simp
    · split
      · simp
      · split <;> simp
  obtain ⟨hsource, hvendor, hhead, hout⟩ :=
    classifyOne_eq (t := t.blank) bankLedger
  rw [htext] at hsource hvendor hhead hout
  refine ⟨hsource, ?_, ?_, (hout hknown).trans htype⟩
  · rw [hvendor, applyRule]
    simp [Transaction.blank]
  · rw [hhead, applyRule]
    simp [Transaction.blank]

theorem classifyOne_blank_of_none (h : applyRules parts (upperText parts t) rules = none) :
    (classifyOne parts bankLedger rules false false t.blank).classificationSource ≠ "rule" := by
  obtain ⟨hsource, -⟩ :=
    classifyOne_eq (t := t.blank) bankLedger
  rw [hsource, classifyText]
  simp only [upperText_blank, h]
  split <;> simp

/-- Rules that classify every blank transaction the same do the same. -/
theorem ruleAction_of_classifyOne
    (h : classifyOne parts bankLedger rules false false t.blank =
      classifyOne parts bankLedger rules' false false t.blank) :
    ruleAction parts (upperText parts t) rules = ruleAction parts (upperText parts t) rules' := by
  have hnamed : ∀ s s' : String, (namedType s).getD .journal = (namedType s').getD .journal →
      namedType s = namedType s' := by
    intro s s' heq
    have hs := namedType_ne_journal s
    have hs' := namedType_ne_journal s'
    cases hn : namedType s with
    | none =>
      cases hn' : namedType s' with
      | none => rfl
      | some v =>
        rw [hn, hn'] at heq
        exact absurd (by rw [hn', ← show VoucherType.journal = v from heq]) hs'
    | some v =>
      cases hn' : namedType s' with
      | none =>
        rw [hn, hn'] at heq
        exact absurd (by rw [hn, show v = VoucherType.journal from heq]) hs
      | some v' =>
        rw [hn, hn'] at heq
        rw [show v = v' from heq]
  rw [ruleAction, ruleAction]
  cases hr : applyRules parts (upperText parts t) rules with
  | none =>
    cases hr' : applyRules parts (upperText parts t) rules' with
    | none => rfl
    | some r' =>
      have hsource := (classifyOne_blank_of_rule bankLedger hr').1
      rw [← h] at hsource
      exact absurd hsource (classifyOne_blank_of_none bankLedger hr)
  | some r =>
    obtain ⟨hsource, hvendor, hhead, htype⟩ :=
      classifyOne_blank_of_rule bankLedger hr
    cases hr' : applyRules parts (upperText parts t) rules' with
    | none =>
      rw [h] at hsource
      exact absurd hsource (classifyOne_blank_of_none bankLedger hr')
    | some r' =>
      obtain ⟨-, hvendor', hhead', htype'⟩ :=
        classifyOne_blank_of_rule bankLedger hr'
      rw [h] at hvendor hhead htype
      rw [Option.map_some, Option.map_some, ClassificationRule.action, ClassificationRule.action,
        ← hvendor, ← hhead, hvendor', hhead', hnamed _ _ (htype.symm.trans htype')]

end

/-! ## What comes back -/

/-- A quote or a backslash in the pattern, the vendor or the ledger. -/
def isDamaged (r : ClassificationRule) : Bool :=
  hasQuote r.pattern || hasQuote r.vendor || hasQuote r.accountHead ||
    hasBackslash r.pattern || hasBackslash r.vendor || hasBackslash r.accountHead

/-- The rule that comes back: none with a quote, and every backslash twice. -/
def restored (r : ClassificationRule) : Option ClassificationRule :=
  if hasQuote r.pattern || hasQuote r.vendor || hasQuote r.accountHead then none
  else some { r with
    pattern := doubleBackslash r.pattern
    vendor := doubleBackslash r.vendor
    accountHead := doubleBackslash r.accountHead }

theorem restored_of_not_damaged {r : ClassificationRule} (h : isDamaged r = false) :
    restored r = some r := by
  simp only [isDamaged, Bool.or_eq_false_iff] at h
  obtain ⟨⟨⟨⟨⟨hpq, hvq⟩, hhq⟩, hpb⟩, hvb⟩, hhb⟩ := h
  rw [restored, hpq, hvq, hhq, doubleBackslash_eq hpb, doubleBackslash_eq hvb,
    doubleBackslash_eq hhb]
  rfl

section

variable (parts : ClassifierParts)

/-- The pattern of a rule occurs in a text. -/
def patternIn (upper : List Char) (pattern : String) : Bool :=
  !pattern.isEmpty && decide (parts.unicode.toUppercase pattern.toList <:+: upper)

/-- The damage of a rule can show in a text: a damaged rule decides it, or the doubled pattern
of one occurs in it. -/
def damageShows (upper : List Char) (rules : List ClassificationRule) : Prop :=
  (∃ r, applyRules parts upper rules = some r ∧ isDamaged r = true) ∨
    ∃ r ∈ rules, isDamaged r = true ∧ patternIn parts upper (doubleBackslash r.pattern) = true

variable {parts} {rules : List ClassificationRule} {upper : List Char}

/-- Where no damage shows the rules that come back do what the rules did. -/
theorem ruleAction_restored (h : ¬damageShows parts upper rules) :
    ruleAction parts upper (rules.filterMap restored) = ruleAction parts upper rules := by
  rw [damageShows, not_or] at h
  obtain ⟨hdecides, hdoubled⟩ := h
  induction rules with
  | nil => rfl
  | cons r rules ih =>
    have hrest : ¬∃ r ∈ rules, isDamaged r = true ∧
        patternIn parts upper (doubleBackslash r.pattern) = true := by
      rintro ⟨r', hr', hr''⟩
      exact hdoubled ⟨r', List.mem_cons_of_mem _ hr', hr''⟩
    by_cases hmatch : patternIn parts upper r.pattern = true
    · -- the rule decides the text, so it is not damaged
      have hfirst : applyRules parts upper (r :: rules) = some r :=
        List.find?_cons_of_pos hmatch
      have hsound : isDamaged r = false := by
        cases hdamaged : isDamaged r with
        | false => rfl
        | true => exact absurd ⟨r, hfirst, hdamaged⟩ hdecides
      have hfirst' : applyRules parts upper (r :: rules.filterMap restored) = some r :=
        List.find?_cons_of_pos hmatch
      rw [List.filterMap_cons_some (restored_of_not_damaged hsound), ruleAction, ruleAction,
        hfirst, hfirst']
    · have hskip : ∀ rs, applyRules parts upper (r :: rs) = applyRules parts upper rs :=
        fun rs => List.find?_cons_of_neg hmatch
      have hih := ih (by rwa [hskip] at hdecides) hrest
      cases hdamaged : isDamaged r with
      | false =>
        rw [List.filterMap_cons_some (restored_of_not_damaged hdamaged), ruleAction, hskip,
          ruleAction, hskip]
        exact hih
      | true =>
        have hgone : applyRules parts upper ((r :: rules).filterMap restored) =
            applyRules parts upper (rules.filterMap restored) := by
          cases hrestored : restored r with
          | none => rw [List.filterMap_cons_none hrestored]
          | some r' =>
            rw [List.filterMap_cons_some hrestored]
            have hpattern : r'.pattern = doubleBackslash r.pattern := by
              rw [restored] at hrestored
              split at hrestored
              · cases hrestored
              · rw [← Option.some.inj hrestored]
            refine List.find?_cons_of_neg fun hr' => hdoubled ⟨r, List.mem_cons_self, hdamaged, ?_⟩
            rw [← hpattern]
            exact hr'
        rw [ruleAction, hgone, ruleAction, hskip]
        exact hih

end

/-! ## The rules after the import -/

def ClassificationRule.text (r : ClassificationRule) : RuleText :=
  ⟨r.pattern, r.vendor, r.accountHead, r.txnType⟩

section

variable {db : RuleDb} {clientId : ℕ}

/-- No client has the id of the global rules, so there are none. -/
theorem getRules_eq (db : RuleDb) (clientId : ℕ) :
    db.getRules clientId = ((db.stored clientId).mergeSort RuleRow.before).map RuleRow.toRule := by
  have hfilter : (db.rules.rows.filter fun r => r.clientId = clientId || r.clientId = 0) =
      db.stored clientId := by
    refine List.filter_congr fun r hr => ?_
    obtain ⟨c, hc, hid⟩ := db.rules_client r hr
    have hpos := db.clients_pos c hc
    have hzero : ¬r.clientId = 0 := by omega
    simp [hzero]
  rw [RuleDb.getRules, hfilter]

theorem mem_getRules {r : ClassificationRule} (h : r ∈ db.getRules clientId) :
    r.clientId = clientId ∧ ∃ c ∈ db.clients.rows, c.id = clientId := by
  rw [getRules_eq, List.mem_map] at h
  obtain ⟨row, hrow, rfl⟩ := h
  rw [List.mem_mergeSort, RuleDb.stored, List.mem_filter, decide_eq_true_iff] at hrow
  obtain ⟨c, hc, hid⟩ := db.rules_client row hrow.1
  exact ⟨hrow.2, c, hc, hid.trans hrow.2⟩

theorem clientId_ne_zero {r : ClassificationRule} (h : r ∈ db.getRules clientId) :
    r.clientId ≠ 0 := by
  obtain ⟨hclient, c, hc, hid⟩ := mem_getRules h
  have hpos := db.clients_pos c hc
  omega

/-- The patterns of a client differ in more than their case. -/
theorem getRules_nodup (db : RuleDb) (clientId : ℕ) :
    ((db.getRules clientId).map (fun r => noCase r.pattern)).Nodup := by
  have hstored : ((db.stored clientId).map (fun r => noCase r.pattern)).Nodup := by
    refine List.Nodup.map_on ?_ (db.rules.nodup_rows.filter _)
    intro r hr r' hr' hpattern
    rw [RuleDb.stored, List.mem_filter, decide_eq_true_iff] at hr hr'
    refine db.rules_unique r hr.1 r' hr'.1 r.index rfl (congrArg some ?_)
    exact Prod.ext (hr'.2.trans hr.2.symm) hpattern.symm
  rw [getRules_eq, List.map_map]
  exact (((db.stored clientId).mergeSort_perm RuleRow.before).map _).nodup_iff.mpr hstored

/-- New rows are stored in the order of the rules they were made of. -/
theorem newRows_sorted (ts : List RuleText) (n : ℕ) :
    (newRows clientId n ts).Pairwise (fun r r' => r.before r') ∧
      ∀ r ∈ newRows clientId n ts, n ≤ r.id ∧ r.priority = 1 ∧ r.clientId = clientId := by
  induction ts generalizing n with
  | nil => exact ⟨List.Pairwise.nil, by simp [newRows]⟩
  | cons t ts ih =>
    obtain ⟨hsorted, hrows⟩ := ih (n + 1)
    have hcons : newRows clientId n (t :: ts) =
        t.toRow clientId 1 n :: newRows clientId (n + 1) ts := rfl
    rw [hcons]
    constructor
    · refine List.Pairwise.cons (fun r hr => ?_) hsorted
      obtain ⟨hid, hpriority, -⟩ := hrows r hr
      have hle : n ≤ r.id := by omega
      simp [RuleRow.before, RuleText.toRow, hpriority, hle]
    · intro r hr
      rcases List.mem_cons.mp hr with rfl | hr
      · exact ⟨le_rfl, rfl, rfl⟩
      · obtain ⟨hid, hrest⟩ := hrows r hr
        exact ⟨by omega, hrest⟩

theorem map_text_newRows (ts : List RuleText) (n : ℕ) :
    ((newRows clientId n ts).map RuleRow.toRule).map ClassificationRule.text = ts := by
  induction ts generalizing n with
  | nil => rfl
  | cons t ts ih =>
    have hcons : newRows clientId n (t :: ts) =
        t.toRow clientId 1 n :: newRows clientId (n + 1) ts := rfl
    rw [hcons, List.map_cons, List.map_cons, ih (n + 1)]
    rfl

theorem readRule_pattern {r : ClassificationRule} {t : RuleText} (h : readRule r = some t) :
    t.pattern = doubleBackslash r.pattern := by
  rw [readRule] at h
  split at h
  · cases h
  · rw [← Option.some.inj h]

/-- The patterns that come back differ in more than their case. -/
theorem filterMap_readRule_nodup {rules : List ClassificationRule}
    (h : (rules.map (fun r => noCase r.pattern)).Nodup) :
    ((withPattern (rules.filterMap readRule)).map (fun t => noCase t.pattern)).Nodup := by
  refine (List.filter_sublist.map _).nodup ?_
  rw [List.Nodup, List.pairwise_map, List.pairwise_filterMap]
  rw [List.Nodup, List.pairwise_map] at h
  refine h.imp fun hne t ht t' ht' heq => hne ?_
  rw [readRule_pattern ht, readRule_pattern ht', noCase_doubleBackslash,
    noCase_doubleBackslash] at heq
  exact replaceChar_backslash_injective heq

/-- **Importing an export into the emptied client succeeds**, with the rules that can be read. -/
theorem import_export (db : RuleDb) (clientId : ℕ) :
    ∃ db' count, (db.deleteRules clientId).importRulesJson clientId (db.exportRulesJson clientId)
        .none = (db', .ok count) ∧
      (db'.getRules clientId).map ClassificationRule.text =
        withPattern ((db.getRules clientId).filterMap readRule) := by
  have harray : rulesArray (db.exportRulesJson clientId).toList ≠ none := by
    rw [RuleDb.exportRulesJson, String.toList_ofList, rulesArray_rulesJson]
    simp
  have hparsable : parsableRules (db.exportRulesJson clientId) =
      withPattern ((db.getRules clientId).filterMap readRule) := by
    rw [parsableRules, RuleDb.exportRulesJson, String.toList_ofList, capturedRules_export,
      Option.getD_some]
  have hknown : withPattern ((db.getRules clientId).filterMap readRule) ≠ [] →
      ∃ c ∈ db.clients.rows, c.id = clientId := by
    intro hne
    obtain ⟨t, ht⟩ := List.exists_mem_of_ne_nil _ hne
    obtain ⟨r, hr, -⟩ := List.mem_filterMap.mp (List.mem_of_mem_filter ht)
    exact (mem_getRules hr).2
  have hgone : ∀ r ∈ ((db.deleteRules clientId).deleteRules clientId).rules.rows,
      r.clientId ≠ clientId := fun r hr => by simpa using (List.mem_filter.mp hr).2
  obtain ⟨db', heq, -, hrows⟩ := insertCaptured_new 0
    ((db.deleteRules clientId).deleteRules clientId) 0 withPattern_pattern hknown
    (fun r hr hclient => absurd hclient (hgone r hr))
    (filterMap_readRule_nodup (getRules_nodup db clientId))
  refine ⟨db', 0 + (withPattern ((db.getRules clientId).filterMap readRule)).length, ?_, ?_⟩
  · rw [importRulesJson_eq _ _ harray rfl, hparsable]
    exact heq
  · have hstored : db'.stored clientId = newRows clientId db.rules.nextId
        (withPattern ((db.getRules clientId).filterMap readRule)) := by
      have hold : ((db.deleteRules clientId).deleteRules clientId).rules.rows.filter
          (fun r => r.clientId = clientId) = [] :=
        List.filter_eq_nil_iff.mpr fun r hr => by simpa using hgone r hr
      rw [RuleDb.stored, hrows, List.filter_append, hold, List.nil_append]
      exact List.filter_eq_self.mpr fun r hr => by simpa using ((newRows_sorted _ _).2 r hr).2.2
    rw [getRules_eq, hstored, List.mergeSort_of_pairwise (newRows_sorted _ _).1, map_text_newRows]

end

/-! ## The round trip -/

section

variable (parts : ClassifierParts)

/-- What rules with these texts do. -/
def textAction (upper : List Char) (ts : List RuleText) : Option RuleAction :=
  (ts.find? fun t => patternIn parts upper t.pattern).map
    fun t => ⟨t.vendor, t.accountHead, namedType t.txnType⟩

theorem ruleAction_eq (upper : List Char) (rules : List ClassificationRule) :
    ruleAction parts upper rules = textAction parts upper (rules.map ClassificationRule.text) := by
  rw [textAction, List.find?_map, Option.map_map]
  rfl

theorem textAction_cons (upper : List Char) (t : RuleText) (ts : List RuleText) :
    textAction parts upper (t :: ts) =
      if patternIn parts upper t.pattern then some ⟨t.vendor, t.accountHead, namedType t.txnType⟩
      else textAction parts upper ts := by
  rw [textAction, List.find?_cons]
  cases patternIn parts upper t.pattern <;> rfl

/-- Rules without a pattern do nothing. -/
theorem textAction_withPattern (upper : List Char) (ts : List RuleText) :
    textAction parts upper (withPattern ts) = textAction parts upper ts := by
  have hboth : ∀ t : RuleText, (!t.pattern.isEmpty && patternIn parts upper t.pattern) =
      patternIn parts upper t.pattern := by
    intro t
    rw [patternIn]
    cases t.pattern.isEmpty <;> rfl
  rw [textAction, withPattern, List.find?_filter]
  simp only [Bool.decide_and, Bool.decide_eq_true, hboth]
  rfl

theorem textAction_readRule (upper : List Char) (rules : List ClassificationRule) :
    textAction parts upper (rules.filterMap readRule) =
      ruleAction parts upper (rules.filterMap restored) := by
  rw [ruleAction_eq]
  induction rules with
  | nil => rfl
  | cons r rules ih =>
    by_cases hquote : (hasQuote r.pattern || hasQuote r.vendor || hasQuote r.accountHead) = true
    · have hread : readRule r = none := if_pos hquote
      have hrestored : restored r = none := if_pos hquote
      rw [List.filterMap_cons_none hread, List.filterMap_cons_none hrestored, ih]
    · have hread : readRule r = some ⟨doubleBackslash r.pattern, doubleBackslash r.vendor,
          doubleBackslash r.accountHead, cutType r.txnType⟩ := if_neg hquote
      have hrestored : restored r = some { r with
          pattern := doubleBackslash r.pattern
          vendor := doubleBackslash r.vendor
          accountHead := doubleBackslash r.accountHead } := if_neg hquote
      rw [List.filterMap_cons_some hread, List.filterMap_cons_some hrestored, List.map_cons,
        textAction_cons, textAction_cons, ih, namedType_cutType]
      rfl

/-- The rules exported and imported into the emptied client classify every transaction as
before. -/
def BackupRestores (db : RuleDb) (clientId : ℕ) : Prop :=
  ∃ db' count, (db.deleteRules clientId).importRulesJson clientId (db.exportRulesJson clientId)
      .none = (db', .ok count) ∧
    ∀ (t : Transaction) (bankLedger : String) (gstEnabled gstAutoLedgers : Bool),
      classifyOne parts bankLedger (db'.getRules clientId) gstEnabled gstAutoLedgers t =
        classifyOne parts bankLedger (db.getRules clientId) gstEnabled gstAutoLedgers t

/-- The round trip restores the rules exactly if those that come back do what the rules did. -/
theorem backupRestores_iff_action (db : RuleDb) (clientId : ℕ) :
    BackupRestores parts db clientId ↔
      ∀ t : Transaction,
        ruleAction parts (upperText parts t) ((db.getRules clientId).filterMap restored) =
          ruleAction parts (upperText parts t) (db.getRules clientId) := by
  obtain ⟨db', count, heq, htexts⟩ := import_export db clientId
  have hafter : ∀ upper, ruleAction parts upper (db'.getRules clientId) =
      ruleAction parts upper ((db.getRules clientId).filterMap restored) := by
    intro upper
    rw [ruleAction_eq, htexts, textAction_withPattern, textAction_readRule]
  constructor
  · rintro ⟨db₁, count₁, heq₁, hsame⟩ t
    rw [heq, Prod.mk.injEq] at heq₁
    obtain ⟨rfl, -⟩ := heq₁
    rw [← hafter]
    exact ruleAction_of_classifyOne "" (hsame t.blank "" false false)
  · intro h
    refine ⟨db', count, heq, ?_⟩
    intro t bankLedger gstEnabled gstAutoLedgers
    have hsame : ruleAction parts (upperText parts t) (db'.getRules clientId) =
        ruleAction parts (upperText parts t) (db.getRules clientId) :=
      (hafter _).trans (h t)
    have htext := classifyText_congr bankLedger (fun r hr => clientId_ne_zero hr)
      (fun r hr => clientId_ne_zero hr) hsame
    rw [classifyOne, classifyOne, htext]

/-- **A backup restores the rules exactly if, for every narration in which the damage of a rule
can show, the rules that come back do what the rules did.** -/
theorem backupRestores_iff (db : RuleDb) (clientId : ℕ) :
    BackupRestores parts db clientId ↔
      ∀ t : Transaction, damageShows parts (upperText parts t) (db.getRules clientId) →
        ruleAction parts (upperText parts t) ((db.getRules clientId).filterMap restored) =
          ruleAction parts (upperText parts t) (db.getRules clientId) := by
  rw [backupRestores_iff_action]
  constructor
  · exact fun h t _ => h t
  · intro h t
    by_cases hshows : damageShows parts (upperText parts t) (db.getRules clientId)
    · exact h t hshows
    · exact ruleAction_restored hshows

variable {parts}

/-- No damage shows in any narration if no rule of the client is damaged. -/
theorem not_damageShows {db : RuleDb} {clientId : ℕ}
    (h : ∀ r ∈ db.getRules clientId, isDamaged r = false) (upper : List Char) :
    ¬damageShows parts upper (db.getRules clientId) := by
  rintro (⟨r, hr, hdamaged⟩ | ⟨r, hr, hdamaged, -⟩)
  · rw [h r (List.mem_of_find?_eq_some hr)] at hdamaged
    cases hdamaged
  · rw [h r hr] at hdamaged
    cases hdamaged

end

/-- The rule learned from a narration about pipes of 7 inches. -/
def pipeRule : RuleText := ⟨"7\" PIPE", "Pipe Works", "Purchases", "Payment"⟩

/-- The rules of one client come back without it. -/
theorem rule_with_quote_lost : ¬BackupRestores keywordsOnly (oneRule pipeRule) 1 := by
  rw [backupRestores_iff_action]
  intro h
  have hrules : (oneRule pipeRule).getRules 1 = [(pipeRule.toRow 1 0 1).toRule] := by
    rw [getRules_eq]
    exact congrArg (List.map RuleRow.toRule) (List.mergeSort_singleton _)
  have hpipe := h (deposit "7\" PIPE")
  rw [hrules] at hpipe
  exact absurd hpipe (by decide +kernel)

end Desktop
