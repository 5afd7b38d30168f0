import BankStatementProcessor.Desktop.Properties.LegacyPhases

/-!
# The entities of a client

The phases after the clients. A rule, a ledger or a hash that is there is left out, and everything
that a phase goes through is there in the end.
-/

namespace Desktop

open Infra ImportState

theorem hasClient_congr {k : Entity} {d d' : FullDb} {c : ℕ}
    (h : d.tables.SameBut k d'.tables) (hk : k ≠ .clients) : d'.HasClient c ↔ d.HasClient c := by
  have hclients : d'.db.clients = d.db.clients := h.clients hk
  rw [FullDb.HasClient, FullDb.HasClient, hclients]

/-- A phase that writes for one entity, and reports exactly under `c`. -/
structure Wrote (k : Entity) (c : Prop) (s s' : ImportState) : Prop where
  same : s.target.tables.SameBut k s'.target.tables
  idMap : s'.idMap = s.idMap
  counted : Counted c s s'

namespace Wrote

variable {k : Entity} {c c' : Prop} {s s' s'' : ImportState}

theorem refl (k : Entity) (s : ImportState) : Wrote k True s s := ⟨.refl _ _, rfl, .of_eq rfl⟩

theorem trans (h : Wrote k c s s') (h' : Wrote k c' s' s'') : Wrote k (c ∧ c') s s'' :=
  ⟨h.same.trans h'.same, h'.idMap.trans h.idMap, h.counted.trans h'.counted⟩

theorem congr (h : Wrote k c s s') (hc : c ↔ c') : Wrote k c' s s' :=
  ⟨h.same, h.idMap, h.counted.congr hc⟩

theorem clients (h : Wrote k c s s') (hk : k ≠ .clients) :
    s'.target.db.clients = s.target.db.clients :=
  h.same.clients hk

theorem hasClient (h : Wrote k c s s') (hk : k ≠ .clients) {id : ℕ} :
    s'.target.HasClient id ↔ s.target.HasClient id :=
  hasClient_congr h.same hk

/-- A phase that only reports. -/
theorem count (s : ImportState) (k : Entity) {f : EntityReport → EntityReport}
    (hf : ∀ e, (f e).imported = e.imported) : Wrote k True s (s.count k f) :=
  ⟨.refl _ _, rfl, (idle_count s k hf).counted⟩

/-- One step that writes `m` rows and reports `n`. -/
theorem of_step {n m : ℕ} {d : FullDb} {f : EntityReport → EntityReport} (hk : k ≠ .settings)
    (hsame : s.target.tables.SameBut k d.tables) (hf : ∀ e, (f e).imported = e.imported + n)
    (hrows : d.rowCount k = s.target.rowCount k + m) (hle : m ≤ n) :
    Wrote k (n = m) s ({ s with target := d }.count k f) where
  same := hsame
  idMap := rfl
  counted := by
    refine .of_step hk hsame ?_ hrows hle
    intro k'
    rw [imported_count]
    split
    · next h => rw [h, hf, imported]
    · rfl

end Wrote

/-- All old ids resolve to clients that exist. -/
def ImportState.Resolves (s : ImportState) : Prop :=
  ∀ x c, s.idMap.resolveClient x = some c → s.target.HasClient c

theorem Wrote.resolves {k : Entity} {c : Prop} {s s' : ImportState} (h : Wrote k c s s')
    (hk : k ≠ .clients) (hs : s.Resolves) : s'.Resolves := by
  intro x c hx
  rw [h.idMap] at hx
  exact (h.hasClient hk).mpr (hs x c hx)

/-! ## Phases

A phase goes through items. `P a` says that what item `a` stands for is there. -/

section

variable {α : Type} {f : ImportState → α → Option ImportState} {k : Entity}
  {P : α → ImportState → Prop} {c : ImportState → α → Prop} {m : IdMap}

variable (f k P c m) in
/-- An item that is there is left out, and another one is written. `c` says when the step reports
exactly. -/
def PhaseStep (a : α) : Prop :=
  ∀ s : ImportState, s.Resolves → s.idMap = m → ∃ s', f s a = some s' ∧ Wrote k (c s a) s s' ∧
    P a s' ∧ (∀ b, P b s → P b s') ∧ (P a s → s.Idle s')

/-- After a phase everything is there; when everything was there it does nothing. -/
theorem phase_spec (hk : k ≠ .clients) {as : List α} (hstep : ∀ a ∈ as, PhaseStep f k P c m a)
    (hc : as.Pairwise fun a b => ∀ s s', f s a = some s' → (c s' b ↔ c s b))
    {s : ImportState} (hs : s.Resolves) (hm : s.idMap = m) :
    ∃ s', as.foldlM f s = some s' ∧ Wrote k (∀ a ∈ as, c s a) s s' ∧ (∀ a ∈ as, P a s') ∧
      (∀ b, P b s → P b s') ∧ ((∀ a ∈ as, P a s) → s.Idle s') := by
  induction as generalizing s with
  | nil =>
    exact ⟨s, rfl, (Wrote.refl k s).congr (by simp), by simp, fun _ h => h,
      fun _ => ⟨rfl, fun _ => rfl⟩⟩
  | cons a as ih =>
    rw [List.pairwise_cons] at hc
    obtain ⟨s₁, hs₁, hwrote₁, hthere₁, hkeeps₁, hidle₁⟩ := hstep a List.mem_cons_self s hs hm
    obtain ⟨s₂, hs₂, hwrote₂, hthere₂, hkeeps₂, hidle₂⟩ :=
      ih (fun b hb => hstep b (List.mem_cons_of_mem _ hb)) hc.2 (hwrote₁.resolves hk hs)
        (hwrote₁.idMap.trans hm)
    refine ⟨s₂, ?_, (hwrote₁.trans hwrote₂).congr ?_, ?_, fun b hb => hkeeps₂ b (hkeeps₁ b hb), ?_⟩
    · rw [List.foldlM_cons, hs₁]
      exact hs₂
    · rw [List.forall_mem_cons]
      refine and_congr_right fun _ => ?_
      exact forall₂_congr fun b hb => hc.1 b hb s s₁ hs₁
    · rintro b hb
      rcases List.mem_cons.mp hb with rfl | hb
      · exact hkeeps₂ b hthere₁
      · exact hthere₂ b hb
    · intro hall
      have ha := hidle₁ (hall a List.mem_cons_self)
      exact ha.trans (hidle₂ fun b hb => hkeeps₁ b (hall b (List.mem_cons_of_mem _ hb)))

end

/-! ## Rules -/

/-- A rule of a client that is not known counts as there. -/
def RuleThere (l : LegacyRule) (s : ImportState) : Prop :=
  ∀ c, s.idMap.resolveClient l.clientId = some c → s.target.HasRule c l.pattern

theorem importRule_step (m : IdMap) (l : LegacyRule) :
    PhaseStep importRule .classificationRules RuleThere (fun _ _ => True) m l := by
  intro s hs _
  cases hres : s.idMap.resolveClient l.clientId with
  | none =>
    have hthere : ∀ s' : ImportState, s'.idMap = s.idMap → RuleThere l s' := by
      intro s' hmap c hc
      rw [hmap, hres] at hc
      cases hc
    by_cases hglobal : IdMap.isUnsupportedGlobal l.clientId
    · have heq : importRule s l = some s := by
        rw [importRule, hres]
        simp [hglobal]
      exact ⟨s, heq, .refl _ s, hthere s rfl, fun _ h => h, fun _ => ⟨rfl, fun _ => rfl⟩⟩
    · have heq : importRule s l = some (s.count .classificationRules fun e =>
          { e with failed := e.failed + 1 }) := by
        rw [importRule, hres]
        simp [hglobal]
      exact ⟨_, heq, .count s _ fun _ => rfl, hthere _ rfl, fun _ h => h,
        fun _ => idle_count s _ fun _ => rfl⟩
  | some c =>
    by_cases hrule : s.target.HasRule c l.pattern
    · have heq : importRule s l = some (s.count .classificationRules fun e =>
          { e with skippedDuplicate := e.skippedDuplicate + 1 }) := by
        rw [importRule, hres]
        simp only [FullDb.addRule_of_hasRule
          (t := ⟨l.pattern, l.vendor, l.accountHead, l.txnType⟩) hrule]
        rfl
      refine ⟨_, heq, .count s _ fun _ => rfl, ?_, fun _ h => h,
        fun _ => idle_count s _ fun _ => rfl⟩
      intro c' hc'
      obtain rfl := Option.some.inj (hres.symm.trans hc')
      exact hrule
    · obtain ⟨d, hadd, hsame, hrules⟩ := FullDb.addRule_spec
        (t := ⟨l.pattern, l.vendor, l.accountHead, l.txnType⟩) (hs _ c hres) hrule
      have heq : importRule s l = some ({ s with target := d }.count .classificationRules fun e =>
          { e with imported := e.imported + 1 }) := by
        rw [importRule, hres]
        simp only [hadd]
        rfl
      have hmem : ∀ r, r ∈ d.rules.rules.rows ↔ r ∈ s.target.rules.rules.rows ∨
          r = (RuleText.mk l.pattern l.vendor l.accountHead l.txnType).toRow c 0
            s.target.rules.rules.nextId := by
        intro r
        rw [hrules, List.mem_append, List.mem_singleton]
      refine ⟨_, heq, (Wrote.of_step (n := 1) (m := 1) (by decide) hsame (fun _ => rfl) ?_
        le_rfl).congr (by simp), ?_, ?_, ?_⟩
      · show d.rules.rules.rows.length = s.target.rules.rules.rows.length + 1
        rw [hrules]
        exact List.length_append
      · intro c' hc'
        obtain rfl := Option.some.inj (hres.symm.trans hc')
        exact ⟨_, (hmem _).mpr (Or.inr rfl), rfl⟩
      · intro l' hl' c' hc'
        obtain ⟨r, hr, hindex⟩ := hl' c' hc'
        exact ⟨r, (hmem r).mpr (Or.inl hr), hindex⟩
      · intro h
        exact absurd (h c hres) hrule

theorem importRules_spec (e : LegacyExport) {s : ImportState} (hs : s.Resolves) :
    ∃ s', importRules e s = some s' ∧ Wrote .classificationRules True s s' ∧
      (∀ l ∈ wellShaped e.rules, RuleThere l s') ∧
      ((∀ l ∈ wellShaped e.rules, RuleThere l s) → s.Idle s') := by
  have hstart : Wrote .classificationRules True s (s.count .classificationRules fun r =>
      { r with found := (wellShaped e.rules).length }) := .count s _ fun _ => rfl
  have hidle : s.Idle (s.count .classificationRules fun r =>
      { r with found := (wellShaped e.rules).length }) := idle_count s _ fun _ => rfl
  obtain ⟨s', hs', hwrote, hthere, -, hphase⟩ := phase_spec (by decide)
    (fun l _ => importRule_step s.idMap l) (List.pairwise_of_forall fun _ _ _ _ _ => Iff.rfl)
    (hstart.resolves (by decide) hs) hstart.idMap
  exact ⟨s', hs', (hstart.trans hwrote).congr (by simp), hthere,
    fun h => hidle.trans (hphase h)⟩

/-! ## Ledgers -/

theorem importLedgers_entries {d : FullDb} {c : ℕ} (entries : List (String × String))
    (hclient : d.HasClient c) :
    ∃ d' n, d.importLedgers c entries = some (d', n) ∧ d.tables.SameBut .ledgers d'.tables ∧
      d'.ledgers.rows.length = d.ledgers.rows.length + n ∧
      (∀ entry ∈ entries, d'.HasLedger c entry.1) ∧
      (∀ c' name, d.HasLedger c' name → d'.HasLedger c' name) ∧
      ((∀ entry ∈ entries, d.HasLedger c entry.1) → d' = d ∧ n = 0) := by
  induction entries using List.reverseRecOn with
  | nil =>
    exact ⟨d, 0, rfl, .refl _ _, rfl, by simp, fun _ _ h => h, fun _ => ⟨rfl, rfl⟩⟩
  | append_singleton entries entry ih =>
    obtain ⟨d₁, n, heq, hsame, hrows, hthere, hkeeps, hidle⟩ := ih
    have hsplit : d.importLedgers c (entries ++ [entry]) =
        (d₁.insertLedger c entry).map fun x => (x.1, n + x.2) := by
      rw [FullDb.importLedgers, List.foldlM_append, ← FullDb.importLedgers, heq]
      simp
    have hclient₁ : d₁.HasClient c := by
      exact (hasClient_congr hsame (by decide)).mpr hclient
    by_cases hledger : d₁.HasLedger c entry.1
    · refine ⟨d₁, n, by rw [hsplit, FullDb.insertLedger_of_hasLedger hledger]; rfl, hsame, hrows,
        ?_, hkeeps, ?_⟩
      · intro x hx
        rcases List.mem_append.mp hx with hx | hx
        · exact hthere x hx
        · rw [List.mem_singleton.mp hx]
          exact hledger
      · exact fun h => hidle fun x hx => h x (List.mem_append_left _ hx)
    · obtain ⟨d₂, hinsert, hsame₂, hrows₂⟩ := FullDb.insertLedger_spec hclient₁ hledger
      have hkeeps₂ : ∀ c' name, d₁.HasLedger c' name → d₂.HasLedger c' name := by
        rintro c' name ⟨l, hl, hindex⟩
        exact ⟨l, by rw [hrows₂]; exact List.mem_append_left _ hl, hindex⟩
      refine ⟨d₂, n + 1, by rw [hsplit, hinsert]; rfl, hsame.trans hsame₂, ?_, ?_,
        fun c' name h => hkeeps₂ c' name (hkeeps c' name h), ?_⟩
      · rw [hrows₂, List.length_append, hrows]
        rfl
      · intro x hx
        rcases List.mem_append.mp hx with hx | hx
        · exact hkeeps₂ c x.1 (hthere x hx)
        · rw [List.mem_singleton.mp hx]
          refine ⟨⟨d₁.ledgers.nextId, c, entry.1, some entry.2⟩, ?_, rfl⟩
          rw [hrows₂]
          exact List.mem_append_right _ List.mem_cons_self
      · intro h
        have hentry := hkeeps c entry.1 (h entry (List.mem_append_right _ List.mem_cons_self))
        exact absurd hentry hledger

/-- The ledgers of one group. -/
def LedgersThere (group : ℕ × List (String × String)) (s : ImportState) : Prop :=
  ∀ entry ∈ group.2, s.target.HasLedger group.1 entry.1

theorem importClientLedgers_step {m : IdMap} {group : ℕ × List (String × String)}
    (hgroup : ∃ x, m.resolveClient x = some group.1) :
    PhaseStep importClientLedgers .ledgers LedgersThere (fun _ _ => True) m group := by
  rintro s hs rfl
  obtain ⟨x, hx⟩ := hgroup
  obtain ⟨d, n, heq, hsame, hrows, hthere, hkeeps, hidle⟩ :=
    importLedgers_entries group.2 (hs x group.1 hx)
  have hstep : importClientLedgers s group = some ({ s with target := d }.count .ledgers fun e =>
      { e with
        imported := e.imported + n
        skippedDuplicate := e.skippedDuplicate + (group.2.length - n) }) := by
    rw [importClientLedgers, heq]
    rfl
  refine ⟨_, hstep, (Wrote.of_step (by decide) hsame (fun _ => rfl) hrows le_rfl).congr (by simp),
    hthere, fun group' h entry hentry => hkeeps _ _ (h entry hentry), ?_⟩
  intro h
  obtain ⟨rfl, rfl⟩ := hidle h
  exact idle_count s _ fun _ => rfl

/-- The clients that are visited are those of the items. -/
theorem mem_byClient {α : Type} {order : IterationOrder} {items : List (ℕ × α)}
    {group : ℕ × List α} : group ∈ byClient order items ↔
      group.1 ∈ items.map Prod.fst ∧
        group.2 = (items.filter fun item => item.1 = group.1).map Prod.snd := by
  rw [byClient, List.mem_map]
  constructor
  · rintro ⟨c, hc, rfl⟩
    exact ⟨List.mem_dedup.mp ((order.perm _).mem_iff.mp hc), rfl⟩
  · rintro ⟨hc, hgroup⟩
    exact ⟨group.1, (order.perm _).mem_iff.mpr (List.mem_dedup.mpr hc), Prod.ext rfl hgroup.symm⟩

theorem mem_resolved {α : Type} {m : IdMap} {items : List (String × α)} {c : ℕ} {a : α} :
    (c, a) ∈ resolved m items ↔ ∃ x, (x, a) ∈ items ∧ m.resolveClient x = some c := by
  rw [resolved, List.mem_filterMap]
  constructor
  · rintro ⟨⟨x, a'⟩, hmem, hres⟩
    obtain ⟨c', hc', heq⟩ := Option.map_eq_some_iff.mp hres
    cases heq
    exact ⟨x, hmem, hc'⟩
  · rintro ⟨x, hmem, hres⟩
    exact ⟨(x, a), hmem, by simp [hres]⟩

theorem exists_resolve_of_mem_byClient {α : Type} {m : IdMap} {order : IterationOrder}
    {items : List (String × α)} {group : ℕ × List α}
    (h : group ∈ byClient order (resolved m items)) : ∃ x, m.resolveClient x = some group.1 := by
  obtain ⟨item, hitem, hfst⟩ := List.mem_map.mp (mem_byClient.mp h).1
  obtain ⟨x, -, hx⟩ := mem_resolved.mp (show (item.1, item.2) ∈ _ from hitem)
  exact ⟨x, by rw [hx, hfst]⟩

/-- Of the items of all groups to say something is to say it of the items resolved. -/
theorem forall_byClient {α : Type} {order : IterationOrder} {items : List (ℕ × α)}
    {P : ℕ → α → Prop} : (∀ group ∈ byClient order items, ∀ a ∈ group.2, P group.1 a) ↔
      ∀ item ∈ items, P item.1 item.2 := by
  constructor
  · rintro h ⟨c, a⟩ hitem
    refine h (c, (items.filter fun item => item.1 = c).map Prod.snd)
      (mem_byClient.mpr ⟨List.mem_map_of_mem hitem, rfl⟩) a ?_
    exact List.mem_map.mpr ⟨(c, a), List.mem_filter.mpr ⟨hitem, by simp⟩, rfl⟩
  · rintro h group hgroup a ha
    rw [(mem_byClient.mp hgroup).2] at ha
    obtain ⟨item, hitem, rfl⟩ := List.mem_map.mp ha
    obtain ⟨hmem, hfst⟩ := List.mem_filter.mp hitem
    rw [← of_decide_eq_true hfst]
    exact h item hmem

/-- The ledgers of the export with their clients. -/
def LegacyExport.ledgerItems (e : LegacyExport) : List (String × (String × String)) :=
  (wellShaped e.ledgers).map fun l => (l.clientId, (l.name, l.group))

theorem importLedgers_spec (r : ImportRun) (e : LegacyExport) {s : ImportState} (hs : s.Resolves) :
    ∃ s', importLedgers r e s = some s' ∧ Wrote .ledgers True s s' ∧
      (∀ item ∈ resolved s.idMap e.ledgerItems, s'.target.HasLedger item.1 item.2.1) ∧
      ((∀ item ∈ resolved s.idMap e.ledgerItems, s.target.HasLedger item.1 item.2.1) →
        s.Idle s') := by
  let f : EntityReport → EntityReport := fun c =>
    { c with
      found := e.ledgerItems.length
      failed := c.failed + failedItems s.idMap e.ledgerItems }
  have hstart : Wrote .ledgers True s (s.count .ledgers f) := .count s _ fun _ => rfl
  have hidle : s.Idle (s.count .ledgers f) := idle_count s _ fun _ => rfl
  obtain ⟨s', hs', hwrote, hthere, -, hphase⟩ := phase_spec (by decide)
    (fun _ hgroup => importClientLedgers_step (exists_resolve_of_mem_byClient hgroup))
    (List.pairwise_of_forall fun _ _ _ _ _ => Iff.rfl)
    (hstart.resolves (by decide) hs) hstart.idMap
  refine ⟨s', hs', (hstart.trans hwrote).congr (by simp), ?_, fun h => hidle.trans (hphase ?_)⟩
  · exact (forall_byClient (P := fun c (entry : String × String) =>
      s'.target.HasLedger c entry.1)).mp hthere
  · exact (forall_byClient (P := fun c (entry : String × String) =>
      s.target.HasLedger c entry.1)).mpr h

/-! ## Hashes -/

/-- The pairs that hashes are stored as have one equality. -/
theorem lawfulBEq_hashItem : LawfulBEq (ℕ × String) := inferInstance

attribute [local instance] lawfulBEq_hashItem

/-- The hashes of a client that are not stored. -/
def FullDb.newHashes (d : FullDb) (c : ℕ) (hashes : List String) : List String :=
  hashes.filter fun h => (c, h) ∉ d.dedupeHashes

theorem mem_getDedupeHashes {d : FullDb} {c : ℕ} {h : String} :
    h ∈ d.getDedupeHashes c ↔ (c, h) ∈ d.dedupeHashes := by
  rw [FullDb.getDedupeHashes, List.mem_map]
  constructor
  · rintro ⟨e, he, rfl⟩
    obtain ⟨hmem, hc⟩ := List.mem_filter.mp he
    rwa [← of_decide_eq_true hc]
  · exact fun hmem => ⟨(c, h), List.mem_filter.mpr ⟨hmem, by simp⟩, rfl⟩

theorem addDedupeHashes_spec {d : FullDb} {c : ℕ} (hashes : List String)
    (hclient : d.HasClient c) :
    ∃ d', d.addDedupeHashes c hashes = some d' ∧ d.tables.SameBut .dedupeHashes d'.tables ∧
      (∀ x, x ∈ d'.dedupeHashes ↔ x ∈ d.dedupeHashes ∨ x.1 = c ∧ x.2 ∈ hashes) ∧
      ((∀ h ∈ hashes, (c, h) ∈ d.dedupeHashes) → d' = d) := by
  induction hashes using List.reverseRecOn with
  | nil => exact ⟨d, rfl, .refl _ _, by simp, fun _ => rfl⟩
  | append_singleton hashes h ih =>
    obtain ⟨d₁, heq, hsame, hmem, hidle⟩ := ih
    have hsplit : d.addDedupeHashes c (hashes ++ [h]) = d₁.insertHash c h := by
      rw [FullDb.addDedupeHashes, List.foldlM_append, ← FullDb.addDedupeHashes, heq]
      simp
    have hgrow : ∀ x : ℕ × String, (x ∈ d.dedupeHashes ∨ x.1 = c ∧ x.2 ∈ hashes ++ [h]) ↔
        x ∈ d₁.dedupeHashes ∨ x = (c, h) := by
      intro x
      rw [hmem, List.mem_append, List.mem_singleton, Prod.ext_iff]
      tauto
    by_cases hknown : (c, h) ∈ d₁.dedupeHashes
    · refine ⟨d₁, by rw [hsplit, FullDb.insertHash_of_mem hknown], hsame, ?_, ?_⟩
      · intro x
        rw [hgrow]
        exact ⟨Or.inl, fun hx => hx.elim id fun hx => hx ▸ hknown⟩
      · exact fun hall => hidle fun x hx => hall x (List.mem_append_left _ hx)
    · obtain ⟨d₂, hinsert, hsame₂, hrows₂⟩ := FullDb.insertHash_spec
        ((hasClient_congr hsame (by decide)).mpr hclient) hknown
      refine ⟨d₂, by rw [hsplit, hinsert], hsame.trans hsame₂, ?_, ?_⟩
      · intro x
        rw [hgrow, hrows₂, List.mem_append, List.mem_singleton]
      · intro hall
        have hold := hall h (List.mem_append_right _ List.mem_cons_self)
        exact absurd ((hmem _).mpr (Or.inl hold)) hknown

/-- As many rows are added as there are different new hashes. -/
theorem length_addDedupeHashes {d d' : FullDb} {c : ℕ} {hashes : List String}
    (hmem : ∀ x, x ∈ d'.dedupeHashes ↔ x ∈ d.dedupeHashes ∨ x.1 = c ∧ x.2 ∈ hashes) :
    d'.dedupeHashes.length = d.dedupeHashes.length + (d.newHashes c hashes).dedup.length := by
  have hperm : d'.dedupeHashes.Perm
      (d.dedupeHashes ++ (d.newHashes c hashes).dedup.map fun h => (c, h)) := by
    rw [List.perm_ext_iff_of_nodup d'.dedupe_nodup]
    · rintro ⟨c', h⟩
      rw [hmem, List.mem_append, List.mem_map]
      simp only [List.mem_dedup, FullDb.newHashes, List.mem_filter, decide_eq_true_iff,
        Prod.mk.injEq]
      constructor
      · rintro (hold | ⟨rfl, hh⟩)
        · exact Or.inl hold
        · by_cases hold : (c', h) ∈ d.dedupeHashes
          · exact Or.inl hold
          · exact Or.inr ⟨h, ⟨hh, hold⟩, rfl, rfl⟩
      · rintro (hold | ⟨h', ⟨hh, -⟩, rfl, rfl⟩)
        · exact Or.inl hold
        · exact Or.inr ⟨rfl, hh⟩
    · refine List.Nodup.append d.dedupe_nodup ?_ ?_
      · exact (List.nodup_dedup _).map fun h h' heq => (Prod.mk.inj heq).2
      · rintro x hx hx'
        obtain ⟨h, hh, rfl⟩ := List.mem_map.mp hx'
        exact of_decide_eq_true (List.mem_filter.mp (List.mem_dedup.mp hh)).2 hx
  rw [hperm.length_eq, List.length_append, List.length_map]

theorem length_eq_length_dedup {α : Type} [DecidableEq α] {l : List α} :
    l.length = l.dedup.length ↔ l.Nodup := by
  constructor
  · intro h
    rw [← List.dedup_eq_self]
    exact (List.dedup_sublist l).eq_of_length h.symm
  · intro h
    rw [h.dedup]

/-- The hashes of one group. -/
def HashesThere (group : ℕ × List String) (s : ImportState) : Prop :=
  ∀ h ∈ group.2, (group.1, h) ∈ s.target.dedupeHashes

theorem importClientHashes_eq {s : ImportState} {group : ℕ × List String} {d : FullDb}
    (h : s.target.addDedupeHashes group.1 group.2 = some d) :
    importClientHashes s group = some ({ s with target := d }.count .dedupeHashes fun e =>
      { e with
        imported := e.imported + (s.target.newHashes group.1 group.2).length
        skippedDuplicate := e.skippedDuplicate +
          (group.2.length - (s.target.newHashes group.1 group.2).length) }) := by
  have hcount : (group.2.countP fun h => !(s.target.getDedupeHashes group.1).contains h) =
      (s.target.newHashes group.1 group.2).length := by
    rw [FullDb.newHashes, ← List.countP_eq_length_filter]
    refine List.countP_congr fun h _ => ?_
    rw [Bool.not_eq_true', ← Bool.not_eq_true, List.contains_iff_mem, mem_getDedupeHashes,
      decide_eq_true_iff]
  rw [importClientHashes, h, ← hcount]
  rfl

/-- A hash that the group repeats is reported each time and stored once. -/
theorem importClientHashes_step {m : IdMap} {group : ℕ × List String}
    (hgroup : ∃ x, m.resolveClient x = some group.1) :
    PhaseStep importClientHashes .dedupeHashes HashesThere
      (fun s group => (s.target.newHashes group.1 group.2).Nodup) m group := by
  rintro s hs rfl
  obtain ⟨x, hx⟩ := hgroup
  obtain ⟨d, heq, hsame, hmem, hidle⟩ := addDedupeHashes_spec group.2 (hs x group.1 hx)
  refine ⟨_, importClientHashes_eq heq, (Wrote.of_step (by decide) hsame (fun _ => rfl)
    (length_addDedupeHashes hmem) ?_).congr length_eq_length_dedup, ?_, ?_, ?_⟩
  · exact (List.dedup_sublist _).length_le
  · exact fun h hh => (hmem _).mpr (Or.inr ⟨rfl, hh⟩)
  · exact fun group' hthere h hh => (hmem _).mpr (Or.inl (hthere h hh))
  · intro h
    obtain rfl := hidle h
    refine idle_count s _ fun e => ?_
    have hnone : s.target.newHashes group.1 group.2 = [] :=
      List.filter_eq_nil_iff.mpr fun x hx => by simpa using h x hx
    rw [hnone]
    rfl

/-- The hashes of the export with their clients. -/
def LegacyExport.hashItems (e : LegacyExport) : List (String × String) :=
  (wellShaped e.dedupe).map fun d => (d.clientId, d.hash)

/-- Pairs are different when the second halves are for each first half. -/
theorem nodup_iff_forall_fst {α : Type} {items : List (ℕ × α)} :
    items.Nodup ↔ ∀ c, ((items.filter fun item => item.1 = c).map Prod.snd).Nodup := by
  constructor
  · intro h c
    refine (h.filter _).map_on ?_
    intro x hx y hy heq
    have hx := of_decide_eq_true (List.mem_filter.mp hx).2
    have hy := of_decide_eq_true (List.mem_filter.mp hy).2
    exact Prod.ext (hx.trans hy.symm) heq
  · intro h
    rw [List.nodup_iff_sublist]
    intro x hx
    have htwice := (hx.filter fun item => item.1 = x.1).map Prod.snd
    rw [List.filter_cons_of_pos (by simp), List.filter_cons_of_pos (by simp)] at htwice
    exact List.nodup_iff_sublist.mp (h x.1) x.2 htwice

/-- The groups have different clients. -/
theorem pairwise_byClient {α : Type} (order : IterationOrder) (items : List (ℕ × α)) :
    (byClient order items).Pairwise fun group group' => group.1 ≠ group'.1 := by
  rw [byClient, List.pairwise_map]
  exact (order.perm _).nodup_iff.mpr (List.nodup_dedup _)

theorem forall_newHashes_nodup {d : FullDb} {order : IterationOrder}
    {items : List (ℕ × String)} :
    (∀ group ∈ byClient order items, (d.newHashes group.1 group.2).Nodup) ↔
      (items.filter fun x => x ∉ d.dedupeHashes).Nodup := by
  have hgroup : ∀ c, d.newHashes c ((items.filter fun item => item.1 = c).map Prod.snd) =
      ((items.filter fun x => x ∉ d.dedupeHashes).filter fun item => item.1 = c).map Prod.snd := by
    intro c
    rw [FullDb.newHashes, List.filter_map, List.filter_filter, List.filter_filter]
    congr 1
    refine List.filter_congr fun x _ => ?_
    by_cases hx : x.1 = c
    · simp [← hx]
    · simp [hx]
  rw [nodup_iff_forall_fst]
  constructor
  · intro h c
    by_cases hc : c ∈ items.map Prod.fst
    · rw [← hgroup]
      exact h (c, _) (mem_byClient.mpr ⟨hc, rfl⟩)
    · have hnone : items.filter (fun item => item.1 = c) = [] :=
        List.filter_eq_nil_iff.mpr fun x hx hxc =>
          hc (of_decide_eq_true hxc ▸ List.mem_map_of_mem hx)
      rw [← hgroup, hnone]
      exact List.nodup_nil
  · intro h group hg
    rw [(mem_byClient.mp hg).2, hgroup]
    exact h group.1

/-- The hashes of one client are no concern of another. -/
theorem newHashes_importClientHashes {s s' : ImportState} {group : ℕ × List String} {c : ℕ}
    (h : importClientHashes s group = some s') (hc : c ≠ group.1) (hashes : List String) :
    s'.target.newHashes c hashes = s.target.newHashes c hashes := by
  rw [importClientHashes, Option.bind_eq_bind, Option.bind_eq_some_iff] at h
  obtain ⟨d, hd, heq⟩ := h
  obtain rfl := Option.some.inj heq
  have hinsert : ∀ d₁ : FullDb, ∀ x ∈ group.2, ∀ d₂, d₁.insertHash group.1 x = some d₂ →
      (∀ y, (c, y) ∈ d₁.dedupeHashes ↔ (c, y) ∈ s.target.dedupeHashes) →
      ∀ y, (c, y) ∈ d₂.dedupeHashes ↔ (c, y) ∈ s.target.dedupeHashes := by
    intro d₁ x _ d₂ h₂ hsame y
    unfold FullDb.insertHash at h₂
    split at h₂
    · cases h₂
      exact hsame y
    · split at h₂
      · cases h₂
        show (c, y) ∈ d₁.dedupeHashes ++ [(group.1, x)] ↔ _
        rw [List.mem_append, List.mem_singleton, Prod.mk.injEq, hsame]
        exact ⟨fun h => h.resolve_right fun h => hc h.1, Or.inl⟩
      · cases h₂
  have hsame := invariant_foldlM hinsert hd fun _ => Iff.rfl
  refine List.filter_congr fun y _ => ?_
  rw [decide_eq_decide]
  exact not_congr (hsame y)

theorem importDedupe_spec (r : ImportRun) (e : LegacyExport) {s : ImportState} (hs : s.Resolves) :
    ∃ s', importDedupe r e s = some s' ∧
      Wrote .dedupeHashes
        ((resolved s.idMap e.hashItems).filter fun x => x ∉ s.target.dedupeHashes).Nodup s s' ∧
      (∀ item ∈ resolved s.idMap e.hashItems, item ∈ s'.target.dedupeHashes) ∧
      ((∀ item ∈ resolved s.idMap e.hashItems, item ∈ s.target.dedupeHashes) → s.Idle s') := by
  let f : EntityReport → EntityReport := fun c =>
    { c with
      found := e.hashItems.length
      failed := c.failed + failedItems s.idMap e.hashItems }
  have hstart : Wrote .dedupeHashes True s (s.count .dedupeHashes f) := .count s _ fun _ => rfl
  have hidle : s.Idle (s.count .dedupeHashes f) := idle_count s _ fun _ => rfl
  have hother : (byClient r.dedupeOrder (resolved s.idMap e.hashItems)).Pairwise
      fun group group' => ∀ s s', importClientHashes s group = some s' →
        ((s'.target.newHashes group'.1 group'.2).Nodup ↔
          (s.target.newHashes group'.1 group'.2).Nodup) :=
    (pairwise_byClient _ _).imp fun hne s s' hstep => by
      rw [newHashes_importClientHashes hstep (Ne.symm hne)]
  obtain ⟨s', hs', hwrote, hthere, -, hphase⟩ := phase_spec (by decide)
    (fun _ hgroup => importClientHashes_step (exists_resolve_of_mem_byClient hgroup)) hother
    (hstart.resolves (by decide) hs) hstart.idMap
  refine ⟨s', hs', (hstart.trans hwrote).congr ?_, ?_, fun h => hidle.trans (hphase ?_)⟩
  · rw [true_and]
    exact forall_newHashes_nodup
  · exact (forall_byClient (P := fun c h => (c, h) ∈ s'.target.dedupeHashes)).mp hthere
  · exact (forall_byClient (P := fun c h => (c, h) ∈ s.target.dedupeHashes)).mpr h

end Desktop
