import BankStatementProcessor.Desktop.Properties.RulesJson

/-!
# Importing rules

The import deletes the rules of the client before it inserts the new ones, and no transaction
is open. So a failing insert, or an input without any rule, loses the old ones.
-/

namespace Desktop

open Infra

/-! ## What an import writes -/

/-- The rules an import inserts: those with a pattern. -/
def withPattern (ts : List RuleText) : List RuleText := ts.filter (fun t => !t.pattern.isEmpty)

section

variable {clientId : ℕ} {fails : ℕ → Bool} {db : RuleDb} {t : RuleText} {ts : List RuleText}
  {n count : ℕ}

/-- Rules without a pattern are passed over. -/
theorem insertCaptured_withPattern :
    insertCaptured clientId fails ts n db count =
      insertCaptured clientId fails (withPattern ts) n db count := by
  induction ts generalizing n db count with
  | nil => rfl
  | cons t ts ih =>
    by_cases hempty : t.pattern.isEmpty = true
    · rw [insertCaptured, if_pos hempty, withPattern, List.filter_cons_of_neg (by simp [hempty]), ih]
      rfl
    · rw [withPattern, List.filter_cons_of_pos (by simpa using hempty), insertCaptured,
        if_neg hempty, insertCaptured, if_neg hempty]
      split
      · rfl
      · split
        · rfl
        · exact ih

theorem insertOrIgnore_taken (htaken : ∃ r ∈ db.rules.rows, r.index = (clientId, noCase t.pattern)) :
    db.insertOrIgnore clientId t 1 = some (db, 0) := by
  rw [RuleDb.insertOrIgnore, dif_pos htaken]

theorem insertOrIgnore_unknown (htaken : ¬∃ r ∈ db.rules.rows,
    r.index = (clientId, noCase t.pattern)) (hclient : ¬∃ c ∈ db.clients.rows, c.id = clientId) :
    db.insertOrIgnore clientId t 1 = none := by
  rw [RuleDb.insertOrIgnore, dif_neg htaken, dif_neg hclient]

/-- A new rule of a known client gets the next id. -/
theorem insertOrIgnore_new (htaken : ¬∃ r ∈ db.rules.rows, r.index = (clientId, noCase t.pattern))
    (hclient : ∃ c ∈ db.clients.rows, c.id = clientId) :
    ∃ db', db.insertOrIgnore clientId t 1 = some (db', 1) ∧ db'.clients = db.clients ∧
      db'.rules.nextId = db.rules.nextId + 1 ∧
      db'.rules.rows = db.rules.rows ++ [t.toRow clientId 1 db.rules.nextId] := by
  rw [RuleDb.insertOrIgnore, dif_neg htaken, dif_pos hclient]
  exact ⟨_, rfl, rfl, rfl, rfl⟩

/-- An insert for a known client does not fail. -/
theorem insertOrIgnore_of_client (hclient : ∃ c ∈ db.clients.rows, c.id = clientId) :
    ∃ db' inserted, db.insertOrIgnore clientId t 1 = some (db', inserted) ∧
      db'.clients = db.clients := by
  by_cases htaken : ∃ r ∈ db.rules.rows, r.index = (clientId, noCase t.pattern)
  · exact ⟨db, 0, insertOrIgnore_taken htaken, rfl⟩
  · obtain ⟨db', heq, hclients, -⟩ := insertOrIgnore_new htaken hclient
    exact ⟨db', 1, heq, hclients⟩

/-- An insert keeps the rows there are and adds at most one, of the client and with a new id. -/
theorem insertOrIgnore_rows {db' : RuleDb} {inserted : ℕ}
    (h : db.insertOrIgnore clientId t 1 = some (db', inserted)) :
    db.rules.nextId ≤ db'.rules.nextId ∧ ∃ added, db'.rules.rows = db.rules.rows ++ added ∧
      ∀ r ∈ added, r.clientId = clientId ∧ db.rules.nextId ≤ r.id := by
  by_cases htaken : ∃ r ∈ db.rules.rows, r.index = (clientId, noCase t.pattern)
  · rw [insertOrIgnore_taken htaken, Option.some.injEq, Prod.mk.injEq] at h
    obtain ⟨rfl, -⟩ := h
    exact ⟨le_rfl, [], by simp, by simp⟩
  · by_cases hclient : ∃ c ∈ db.clients.rows, c.id = clientId
    · obtain ⟨db₁, heq, -, hnext, hrows⟩ := insertOrIgnore_new htaken hclient
      rw [heq, Option.some.injEq, Prod.mk.injEq] at h
      obtain ⟨rfl, -⟩ := h
      refine ⟨by omega, _, hrows, ?_⟩
      intro r hr
      rw [List.mem_singleton.mp hr]
      exact ⟨rfl, le_rfl⟩
    · rw [insertOrIgnore_unknown htaken hclient] at h
      cases h

/-- The loop keeps the rows there are and adds rows of the client with new ids. -/
theorem insertCaptured_rows (clientId : ℕ) (fails : ℕ → Bool) (ts : List RuleText) (n : ℕ)
    (db : RuleDb) (count : ℕ) :
    ∃ added, (insertCaptured clientId fails ts n db count).1.rules.rows = db.rules.rows ++ added ∧
      ∀ r ∈ added, r.clientId = clientId ∧ db.rules.nextId ≤ r.id := by
  induction ts generalizing n db count with
  | nil => exact ⟨[], by simp [insertCaptured], by simp⟩
  | cons t ts ih =>
    have hsame : ∃ added, db.rules.rows = db.rules.rows ++ added ∧
        ∀ r ∈ added, r.clientId = clientId ∧ db.rules.nextId ≤ r.id := ⟨[], by simp, by simp⟩
    rw [insertCaptured]
    split
    · exact ih n db count
    · split
      · exact hsame
      · split
        · exact hsame
        · next db' inserted heq =>
          obtain ⟨hnext, added, hrows, hadded⟩ := insertOrIgnore_rows heq
          obtain ⟨added', hrows', hadded'⟩ := ih (n + 1) db' (count + inserted)
          refine ⟨added ++ added', by rw [hrows', hrows, List.append_assoc], ?_⟩
          intro r hr
          rcases List.mem_append.mp hr with hr | hr
          · exact hadded r hr
          · obtain ⟨hclient, hid⟩ := hadded' r hr
            exact ⟨hclient, by omega⟩

/-- The rows that rules with different patterns become. -/
def newRows (clientId n : ℕ) (ts : List RuleText) : List RuleRow :=
  (ts.zipIdx n).map fun (t, id) => t.toRow clientId 1 id

/-- Rules with a pattern, all different and new, are all inserted. -/
theorem insertCaptured_new (n : ℕ) (db : RuleDb) (count : ℕ) (hpattern : ∀ t ∈ ts, t.pattern.isEmpty = false)
    (hclient : ts ≠ [] → ∃ c ∈ db.clients.rows, c.id = clientId)
    (hnew : ∀ r ∈ db.rules.rows, r.clientId = clientId → noCase r.pattern ∉
      ts.map (fun t => noCase t.pattern))
    (hnodup : (ts.map (fun t => noCase t.pattern)).Nodup) :
    ∃ db', insertCaptured clientId (fun _ => false) ts n db count = (db', .ok (count + ts.length)) ∧
      db'.clients = db.clients ∧
      db'.rules.rows = db.rules.rows ++ newRows clientId db.rules.nextId ts := by
  induction ts generalizing n db count with
  | nil => exact ⟨db, rfl, rfl, by simp [newRows]⟩
  | cons t ts ih =>
    rw [List.map_cons, List.nodup_cons] at hnodup
    have htaken : ¬∃ r ∈ db.rules.rows, r.index = (clientId, noCase t.pattern) := by
      rintro ⟨r, hr, hindex⟩
      obtain ⟨hrc, hrp⟩ := Prod.mk.inj hindex
      exact hnew r hr hrc (by rw [hrp]; exact List.mem_cons_self)
    obtain ⟨db₁, heq₁, hclients₁, hnext₁, hrows₁⟩ :=
      insertOrIgnore_new htaken (hclient (List.cons_ne_nil t ts))
    obtain ⟨db₂, heq₂, hclients₂, hrows₂⟩ := ih (n + 1) db₁ (count + 1)
      (fun t' ht' => hpattern t' (List.mem_cons_of_mem _ ht'))
      (fun _ => by rw [hclients₁]; exact hclient (List.cons_ne_nil t ts))
      (by
        intro r hr hrc hmem
        rw [hrows₁, List.mem_append, List.mem_singleton] at hr
        rcases hr with hr | rfl
        · exact hnew r hr hrc (List.mem_cons_of_mem _ hmem)
        · exact hnodup.1 hmem)
      hnodup.2
    refine ⟨db₂, ?_, hclients₂.trans hclients₁, ?_⟩
    · have hpos := hpattern t List.mem_cons_self
      rw [insertCaptured, if_neg (by simp [hpos]), if_neg (by simp), heq₁]
      simp only [heq₂, List.length_cons]
      rw [show count + 1 + ts.length = count + (ts.length + 1) by omega]
    · rw [hrows₂, hrows₁, hnext₁, List.append_assoc]
      rfl

/-- A failing insert ends the import with an error. -/
theorem insertCaptured_fails (hpattern : ∀ t ∈ ts, t.pattern.isEmpty = false)
    (h : ∃ k < ts.length, fails (n + k) = true) :
    (insertCaptured clientId fails ts n db count).2.isOk = false := by
  induction ts generalizing n db count with
  | nil =>
    obtain ⟨k, hk, -⟩ := h
    cases hk
  | cons t ts ih =>
    have hpos := hpattern t List.mem_cons_self
    rw [insertCaptured, if_neg (by simp [hpos])]
    split
    · rfl
    · next hfirst =>
      split
      · rfl
      · obtain ⟨k, hk, hfail⟩ := h
        cases k with
        | zero => exact absurd hfail hfirst
        | succ k =>
          refine ih (fun t' ht' => hpattern t' (List.mem_cons_of_mem _ ht')) ⟨k, ?_, ?_⟩
          · simpa using hk
          · rwa [show n + 1 + k = n + (k + 1) by omega]

theorem insertCaptured_ok (n : ℕ) (db : RuleDb) (count : ℕ) (hclient : ∃ c ∈ db.clients.rows, c.id = clientId)
    (h : ∀ k < ts.length, fails (n + k) = false) :
    (insertCaptured clientId fails ts n db count).2.isOk = true := by
  induction ts generalizing n db count with
  | nil => rfl
  | cons t ts ih =>
    rw [insertCaptured]
    split
    · exact ih n db count hclient fun k hk => h k (Nat.lt_succ_of_lt hk)
    · rw [if_neg (by simp [show fails n = false from h 0 (Nat.succ_pos _)])]
      obtain ⟨db', inserted, heq, hclients⟩ := insertOrIgnore_of_client (t := t) hclient
      rw [heq]
      refine ih (n + 1) db' (count + inserted) (by rwa [hclients]) fun k hk => ?_
      rw [show n + 1 + k = n + (k + 1) by omega]
      exact h (k + 1) (Nat.succ_lt_succ hk)

/-- Nothing is stored of the rules only if the first insert does not come about. -/
theorem insertCaptured_stored (hpattern : ∀ t ∈ ts, t.pattern.isEmpty = false)
    (hempty : db.stored clientId = []) :
    (insertCaptured clientId fails ts n db count).1.stored clientId = [] ↔
      ts = [] ∨ fails n = true ∨ ¬∃ c ∈ db.clients.rows, c.id = clientId := by
  cases ts with
  | nil => simpa [insertCaptured] using hempty
  | cons t ts =>
    have hpos := hpattern t List.mem_cons_self
    have htaken : ¬∃ r ∈ db.rules.rows, r.index = (clientId, noCase t.pattern) := by
      rintro ⟨r, hr, hindex⟩
      have hmem : r ∈ db.stored clientId :=
        List.mem_filter.mpr ⟨hr, by simpa using (Prod.mk.inj hindex).1⟩
      rw [hempty] at hmem
      cases hmem
    rw [insertCaptured, if_neg (by simp [hpos])]
    by_cases hfail : fails n = true
    · rw [if_pos hfail]
      simpa [hfail] using hempty
    · rw [if_neg hfail]
      by_cases hclient : ∃ c ∈ db.clients.rows, c.id = clientId
      · obtain ⟨db', heq, -, -, hrows⟩ := insertOrIgnore_new htaken hclient
        obtain ⟨added, hrows', -⟩ := insertCaptured_rows clientId fails ts (n + 1) db' (count + 1)
        rw [heq]
        constructor
        · intro hnil
          -- the row of the first rule is still there
          have hmem : t.toRow clientId 1 db.rules.nextId ∈
              (insertCaptured clientId fails ts (n + 1) db' (count + 1)).1.stored clientId := by
            rw [RuleDb.stored, List.mem_filter, hrows', hrows]
            simp [RuleText.toRow]
          rw [hnil] at hmem
          cases hmem
        · rintro (hnil | hfail' | hunknown)
          · cases hnil
          · exact absurd hfail' hfail
          · exact absurd hclient hunknown
      · rw [insertOrIgnore_unknown htaken hclient]
        simpa [hclient] using hempty

end

/-! ## All or nothing -/

/-- The rules of an input that an import would insert. -/
def parsableRules (json : String) : List RuleText :=
  withPattern (((rulesArray json.toList).map capturedRules).getD [])

/-- An import that reports an error or finds no rule leaves the stored rules of the client as
they are, and when an insert fails they are still there. -/
def ImportAllOrNothing (db : RuleDb) (clientId : ℕ) (json : String) (faults : WriteFaults) : Prop :=
  ((db.importRulesJson clientId json faults).2.isOk = false ∨ parsableRules json = [] →
    (db.importRulesJson clientId json faults).1.stored clientId = db.stored clientId) ∧
  ((∃ k < (parsableRules json).length, faults.insert k = true) →
    ∀ r ∈ db.stored clientId, r ∈ (db.importRulesJson clientId json faults).1.stored clientId)

section

variable {db : RuleDb} {clientId : ℕ} {json : String} {faults : WriteFaults}

theorem withPattern_pattern {ts : List RuleText} : ∀ t ∈ withPattern ts, t.pattern.isEmpty = false :=
  fun t ht => by simpa using (List.mem_filter.mp ht).2

@[simp] theorem stored_deleteRules : (db.deleteRules clientId).stored clientId = [] := by
  rw [RuleDb.stored, List.filter_eq_nil_iff]
  intro r hr
  simpa using (List.mem_filter.mp hr).2

/-- Past the delete an import is its loop over the rules it would insert. -/
theorem importRulesJson_eq (db : RuleDb) (clientId : ℕ) (harray : rulesArray json.toList ≠ none) (hdelete : faults.delete = false) :
    db.importRulesJson clientId json faults =
      insertCaptured clientId faults.insert (parsableRules json) 0 (db.deleteRules clientId) 0 := by
  obtain ⟨slice, hslice⟩ := Option.ne_none_iff_exists'.mp harray
  rw [RuleDb.importRulesJson, hslice, parsableRules, hslice]
  simp only [hdelete, Bool.false_eq_true, if_false, Option.map_some, Option.getD_some]
  exact insertCaptured_withPattern

/-- The rules stored after the delete are new, so they are those before only if both are none. -/
theorem importRulesJson_stored_eq (db : RuleDb) (clientId : ℕ) (harray : rulesArray json.toList ≠ none)
    (hdelete : faults.delete = false) :
    (db.importRulesJson clientId json faults).1.stored clientId = db.stored clientId ↔
      db.stored clientId = [] ∧
        (db.importRulesJson clientId json faults).1.stored clientId = [] := by
  constructor
  · intro h
    have hnil : db.stored clientId = [] := by
      rw [List.eq_nil_iff_forall_not_mem]
      intro r hr
      have hbelow := db.rules.below r (List.mem_of_mem_filter hr)
      obtain ⟨added, hrows, hadded⟩ := insertCaptured_rows clientId faults.insert
        (parsableRules json) 0 (db.deleteRules clientId) 0
      rw [← h, importRulesJson_eq db clientId harray hdelete, RuleDb.stored, hrows, List.filter_append,
        List.mem_append] at hr
      rcases hr with hr | hr
      · have hmem : r ∈ (db.deleteRules clientId).stored clientId := hr
        rw [stored_deleteRules] at hmem
        cases hmem
      · have hid := (hadded r (List.mem_of_mem_filter hr)).2
        have hnext : (db.deleteRules clientId).rules.nextId = db.rules.nextId := rfl
        omega
    exact ⟨hnil, h.trans hnil⟩
  · rintro ⟨hbefore, hafter⟩
    rw [hafter, hbefore]

/-- A client that is not there has no rules. -/
theorem stored_of_unknown (h : ¬∃ c ∈ db.clients.rows, c.id = clientId) :
    db.stored clientId = [] := by
  rw [RuleDb.stored, List.filter_eq_nil_iff]
  intro r hr hclient
  obtain ⟨c, hc, hid⟩ := db.rules_client r hr
  exact h ⟨c, hc, hid.trans (by simpa using hclient)⟩

/-- **An import is all or nothing exactly if it does not get past the delete, or inserts all its
rules, or had no rule to lose and inserts none.** -/
theorem importAllOrNothing_iff (db : RuleDb) (clientId : ℕ) (json : String)
    (faults : WriteFaults) :
    ImportAllOrNothing db clientId json faults ↔
      rulesArray json.toList = none ∨ faults.delete = true ∨
      (parsableRules json ≠ [] ∧ ∀ k < (parsableRules json).length, faults.insert k = false) ∨
      (db.stored clientId = [] ∧ (parsableRules json = [] ∨ faults.insert 0 = true ∨
        ¬∃ c ∈ db.clients.rows, c.id = clientId)) := by
  by_cases harray : rulesArray json.toList = none
  · have hsame : db.importRulesJson clientId json faults =
        (db, .error "no 'rules' array in backup JSON") := by
      rw [RuleDb.importRulesJson, harray]
    simp [ImportAllOrNothing, hsame, harray]
  by_cases hdelete : faults.delete = true
  · have hsame : db.importRulesJson clientId json faults =
        (db, .error "import_rules_json delete") := by
      obtain ⟨slice, hslice⟩ := Option.ne_none_iff_exists'.mp harray
      rw [RuleDb.importRulesJson, hslice]
      exact if_pos hdelete
    simp [ImportAllOrNothing, hsame, hdelete]
  rw [Bool.not_eq_true] at hdelete
  have hloop := importRulesJson_eq db clientId harray hdelete
  have hnone : (db.importRulesJson clientId json faults).1.stored clientId = [] ↔
      parsableRules json = [] ∨ faults.insert 0 = true ∨
        ¬∃ c ∈ db.clients.rows, c.id = clientId := by
    rw [hloop]
    exact insertCaptured_stored withPattern_pattern stored_deleteRules
  have hsame := importRulesJson_stored_eq db clientId harray hdelete
  have hfails : (∃ k < (parsableRules json).length, faults.insert k = true) →
      (db.importRulesJson clientId json faults).2.isOk = false := by
    rintro ⟨k, hk, hfail⟩
    rw [hloop]
    exact insertCaptured_fails withPattern_pattern ⟨k, hk, by rwa [Nat.zero_add]⟩
  constructor
  · rintro ⟨hstored, -⟩
    by_cases hall : parsableRules json ≠ [] ∧
        ∀ k < (parsableRules json).length, faults.insert k = false
    · exact Or.inr (Or.inr (Or.inl hall))
    · have hlost : (db.importRulesJson clientId json faults).2.isOk = false ∨
          parsableRules json = [] := by
        by_cases hparsable : parsableRules json = []
        · exact Or.inr hparsable
        · have hfail : ∃ k < (parsableRules json).length, faults.insert k = true := by
            simpa [hparsable] using hall
          exact Or.inl (hfails hfail)
      obtain ⟨hbefore, hafter⟩ := hsame.mp (hstored hlost)
      exact Or.inr (Or.inr (Or.inr ⟨hbefore, hnone.mp hafter⟩))
  · rintro (h | h | ⟨hparsable, hall⟩ | ⟨hbefore, hafter⟩)
    · exact absurd h harray
    · rw [hdelete] at h
      cases h
    · refine ⟨?_, ?_⟩
      · rintro (herror | hparsable')
        · have hunknown : ¬∃ c ∈ db.clients.rows, c.id = clientId := by
            intro hclient
            have hok : (insertCaptured clientId faults.insert (parsableRules json) 0
                (db.deleteRules clientId) 0).2.isOk = true :=
              insertCaptured_ok 0 (db.deleteRules clientId) 0 hclient fun k hk => by
                rw [Nat.zero_add]
                exact hall k hk
            rw [hloop, hok] at herror
            cases herror
          exact hsame.mpr ⟨stored_of_unknown hunknown, hnone.mpr (Or.inr (Or.inr hunknown))⟩
        · exact absurd hparsable' hparsable
      · rintro ⟨k, hk, hfail⟩
        rw [hall k hk] at hfail
        cases hfail
    · have heq := hsame.mpr ⟨hbefore, hnone.mpr hafter⟩
      exact ⟨fun _ => heq, fun _ r hr => heq ▸ hr⟩

end

theorem oneClient_below : ∀ c ∈ [(⟨1, "Acme Co", ""⟩ : Client)], c.id < 2 := by simp

theorem oneRule_below (t : RuleText) : ∀ r ∈ [t.toRow 1 0 1], r.id < 2 := by simp [RuleText.toRow]

/-- One client with one rule. -/
def oneRule (t : RuleText) : RuleDb where
  clients := ⟨[⟨1, "Acme Co", ""⟩], 2, by simp, oneClient_below⟩
  rules := ⟨[t.toRow 1 0 1], 2, by simp, oneRule_below t⟩
  clients_pos := by simp
  rules_client := by simp [RuleText.toRow]
  rules_unique := by
    intro r hr r' hr' _ _ _
    rw [List.mem_singleton.mp hr, List.mem_singleton.mp hr']

/-- A backup with an empty list of rules deletes the rules there are. -/
theorem empty_backup_deletes_rules :
    ¬ImportAllOrNothing (oneRule ⟨"AMAZON", "Amazon", "Office Expense", "Payment"⟩) 1
      "\x7b\"version\":1,\"rules\":[]\x7d" .none := by
  rintro ⟨hkept, -⟩
  exact absurd (hkept (Or.inr (by decide +kernel))) (by decide +kernel)

end Desktop
