import BankStatementProcessor.Infra.StateMachine
import BankStatementProcessor.Infra.Table

/-!
# Filing records in a table

A record is looked up in a table by the key it wants. The first row under that key becomes its
row; without one it gets a new row, which may stand under another key than the one it wants.

`wanted` and `got` are therefore two keys of a record. When they differ a record does not find
its own row again, and the rows that it and other records share depend on their order. The
lemmas say which records share a row (`separate_iff`), which find a row in the end
(`lookup_fileAll_ne_none_iff`), and which of them their own (`lookup_fileAll_eq_iff`).
-/

namespace Infra

/-- How records of type `ρ` are filed in a table whose rows stand under keys of type `κ`. -/
structure Filing (ρ : Type*) {α : Type*} (key : α → ℕ) (κ : Type*) where
  under : α → κ
  wanted : ρ → κ
  got : ρ → κ
  row : ρ → ℕ → α
  row_key : ∀ r n, key (row r n) = n
  under_row : ∀ r n, under (row r n) = got r

namespace Filing

variable {ρ α κ : Type*} {key : α → ℕ} [DecidableEq κ] (F : Filing ρ key κ)

/-- The first row under a key. -/
def lookup (t : Table α key) (k : κ) : Option ℕ :=
  (t.rows.find? (fun r => F.under r = k)).map key

/-- Find the row of a record, or add it. -/
def file (t : Table α key) (r : ρ) : Table α key × ℕ :=
  match F.lookup t (F.wanted r) with
  | some id => (t, id)
  | none => (t.insert (F.row r) (F.row_key r), t.nextId)

/-- One step, and the record and its row are noted. -/
def step (s : Table α key × List (ρ × ℕ)) (r : ρ) : Table α key × List (ρ × ℕ) :=
  ((F.file s.1 r).1, s.2 ++ [(r, (F.file s.1 r).2)])

/-- The table after filing all records, and the row that each of them got. -/
def fileAll (t : Table α key) (rs : List ρ) : Table α key × List (ρ × ℕ) :=
  run F.step (t, []) rs

variable {F} {t : Table α key} {r : ρ} {rs : List ρ} {k : κ}

theorem fileAll_append_singleton : F.fileAll t (rs ++ [r]) = F.step (F.fileAll t rs) r := by
  rw [fileAll, run_append]
  rfl

theorem lookup_eq_none : F.lookup t k = none ↔ ∀ r ∈ t.rows, F.under r ≠ k := by
  simp [lookup]

theorem exists_of_lookup {id : ℕ} (h : F.lookup t k = some id) :
    ∃ r ∈ t.rows, key r = id ∧ F.under r = k := by
  obtain ⟨r, hfind, hid⟩ := Option.map_eq_some_iff.mp h
  exact ⟨r, List.mem_of_find?_eq_some hfind, hid, by simpa using List.find?_some hfind⟩

theorem lookup_lt {id : ℕ} (h : F.lookup t k = some id) : id < t.nextId := by
  obtain ⟨r, hr, rfl, -⟩ := exists_of_lookup h
  exact t.below r hr

/-- A row stands under one key. -/
theorem lookup_inj {k' : κ} {id : ℕ} (h : F.lookup t k = some id) (h' : F.lookup t k' = some id) :
    k = k' := by
  obtain ⟨r, hr, hid, rfl⟩ := exists_of_lookup h
  obtain ⟨r', hr', hid', rfl⟩ := exists_of_lookup h'
  rw [t.eq_of_key hr hr' (hid.trans hid'.symm)]

theorem file_of_some {id : ℕ} (h : F.lookup t (F.wanted r) = some id) : F.file t r = (t, id) := by
  rw [file, h]

theorem file_of_none (h : F.lookup t (F.wanted r) = none) :
    F.file t r = (t.insert (F.row r) (F.row_key r), t.nextId) := by
  rw [file, h]

/-- A new row comes after the others. -/
theorem lookup_insert : F.lookup (t.insert (F.row r) (F.row_key r)) k =
    (F.lookup t k).or (if F.got r = k then some t.nextId else none) := by
  have hrows : (t.insert (F.row r) (F.row_key r)).rows = t.rows ++ [F.row r t.nextId] := rfl
  rw [lookup, hrows, List.find?_append, Option.map_or, ← lookup]
  congr 1
  by_cases hk : F.got r = k
  · simp [hk, F.under_row, F.row_key]
  · simp [hk, F.under_row]

/-- The row of a record is in the table. -/
theorem exists_row_file (r : ρ) : ∃ x ∈ (F.file t r).1.rows, key x = (F.file t r).2 := by
  cases hfind : F.lookup t (F.wanted r) with
  | some id =>
    rw [file_of_some hfind]
    obtain ⟨x, hx, hid, -⟩ := exists_of_lookup hfind
    exact ⟨x, hx, hid⟩
  | none =>
    rw [file_of_none hfind]
    exact ⟨F.row r t.nextId, List.mem_append_right _ List.mem_cons_self, F.row_key r t.nextId⟩

/-! ## The run -/

/-- A table that has a row for every record stays as it is. -/
theorem fileAll_of_found (h : ∀ r ∈ rs, F.lookup t (F.wanted r) ≠ none) :
    F.fileAll t rs = (t, rs.map fun r => (r, (F.lookup t (F.wanted r)).getD 0)) := by
  induction rs using List.reverseRecOn with
  | nil => rfl
  | append_singleton rs r ih =>
    have hr := h r (List.mem_append_right rs List.mem_cons_self)
    obtain ⟨id, hid⟩ := Option.ne_none_iff_exists'.mp hr
    rw [fileAll_append_singleton, ih fun r' hr' => h r' (List.mem_append_left _ hr'), step,
      file_of_some hid, List.map_append, List.map_singleton, hid, Option.getD_some]

variable (F t rs) in
theorem map_fst_fileAll : (F.fileAll t rs).2.map Prod.fst = rs := by
  induction rs using List.reverseRecOn with
  | nil => rfl
  | append_singleton rs r ih =>
    rw [fileAll_append_singleton, step, List.map_append, ih, List.map_singleton]

/-- A record without a row at the beginning whose own row is under `k`. -/
def Adds (F : Filing ρ key κ) (t : Table α key) (k : κ) (r : ρ) : Prop :=
  F.lookup t (F.wanted r) = none ∧ F.got r = k

instance (k : κ) : DecidablePred (F.Adds t k) := fun r =>
  inferInstanceAs (Decidable (F.lookup t (F.wanted r) = none ∧ F.got r = k))

/-- What holds of the table and the rows given. The rows of the first table stay first, and the
records that found one of them have it. -/
structure Filed (F : Filing ρ key κ) (t : Table α key) (s : Table α key × List (ρ × ℕ)) : Prop where
  rows : ∀ r ∈ s.1.rows, key r < t.nextId → r ∈ t.rows
  old : ∀ k, F.lookup t k ≠ none → F.lookup s.1 k = F.lookup t k
  found : ∀ p ∈ s.2, F.lookup t (F.wanted p.1) ≠ none → F.lookup t (F.wanted p.1) = some p.2
  added : ∀ p ∈ s.2, F.lookup t (F.wanted p.1) = none → t.nextId ≤ p.2
  below : ∀ p ∈ s.2, p.2 < s.1.nextId
  next : t.nextId ≤ s.1.nextId

theorem Filed.start : F.Filed t (t, []) where
  rows _ hr _ := hr
  old _ _ := rfl
  found _ hp := absurd hp List.not_mem_nil
  added _ hp := absurd hp List.not_mem_nil
  below _ hp := absurd hp List.not_mem_nil
  next := le_rfl

/-- A row found under a key that the first table does not have is one that the run added. -/
theorem Filed.le_of_lookup {s : Table α key × List (ρ × ℕ)} (h : F.Filed t s) {id : ℕ}
    (hnone : F.lookup t k = none) (hid : F.lookup s.1 k = some id) : t.nextId ≤ id := by
  obtain ⟨r, hr, rfl, hunder⟩ := exists_of_lookup hid
  by_contra hlt
  exact lookup_eq_none.mp hnone r (h.rows r hr (by omega)) hunder

theorem Filed.step {s : Table α key × List (ρ × ℕ)} (h : F.Filed t s) (r : ρ) :
    F.Filed t (F.step s r) := by
  cases hfind : F.lookup s.1 (F.wanted r) with
  | some id =>
    rw [Filing.step, file_of_some hfind]
    refine ⟨h.rows, h.old, ?_, ?_, ?_, h.next⟩
    · intro p hp hsome
      rcases List.mem_append.mp hp with hp | hp
      · exact h.found p hp hsome
      · obtain rfl := List.mem_singleton.mp hp
        exact (h.old _ hsome).symm.trans hfind
    · intro p hp hnone
      rcases List.mem_append.mp hp with hp | hp
      · exact h.added p hp hnone
      · obtain rfl := List.mem_singleton.mp hp
        exact h.le_of_lookup hnone hfind
    · intro p hp
      rcases List.mem_append.mp hp with hp | hp
      · exact h.below p hp
      · obtain rfl := List.mem_singleton.mp hp
        exact lookup_lt hfind
  | none =>
    rw [Filing.step, file_of_none hfind]
    refine ⟨?_, ?_, ?_, ?_, ?_, h.next.trans (Nat.le_succ _)⟩
    · intro r' hr' hlt
      rcases List.mem_append.mp hr' with hr' | hr'
      · exact h.rows r' hr' hlt
      · obtain rfl := List.mem_singleton.mp hr'
        rw [F.row_key] at hlt
        have := h.next
        omega
    · intro k hk
      rw [lookup_insert, h.old k hk]
      exact Option.or_of_isSome (Option.isSome_iff_ne_none.mpr hk)
    · intro p hp hsome
      rcases List.mem_append.mp hp with hp | hp
      · exact h.found p hp hsome
      · obtain rfl := List.mem_singleton.mp hp
        exact absurd hfind (by rw [h.old _ hsome]; exact hsome)
    · intro p hp hnone
      rcases List.mem_append.mp hp with hp | hp
      · exact h.added p hp hnone
      · obtain rfl := List.mem_singleton.mp hp
        exact h.next
    · intro p hp
      rcases List.mem_append.mp hp with hp | hp
      · exact (h.below p hp).trans (Nat.lt_succ_self _)
      · obtain rfl := List.mem_singleton.mp hp
        exact Nat.lt_succ_self _

variable (F t rs) in
theorem filed_fileAll : F.Filed t (F.fileAll t rs) :=
  invariant_run (fun _ r h => h.step r) rs .start

/-- The table stays as it is exactly when it has a row for every record. -/
theorem fst_fileAll_eq_iff :
    (F.fileAll t rs).1 = t ↔ ∀ r ∈ rs, F.lookup t (F.wanted r) ≠ none := by
  constructor
  · intro h r hr hnone
    have hfiled := filed_fileAll F t rs
    rw [← map_fst_fileAll F t rs] at hr
    obtain ⟨p, hp, rfl⟩ := List.mem_map.mp hr
    have hle := hfiled.added p hp hnone
    have hlt := hfiled.below p hp
    rw [h] at hlt
    omega
  · intro h
    rw [fileAll_of_found h]

/-- What was given before stays given. -/
theorem fileAll_append (rs rs' : List ρ) :
    ∃ given, (F.fileAll t (rs ++ rs')).2 = (F.fileAll t rs).2 ++ given := by
  induction rs' using List.reverseRecOn with
  | nil => exact ⟨[], by rw [List.append_nil, List.append_nil]⟩
  | append_singleton rs' r ih =>
    obtain ⟨given, hgiven⟩ := ih
    rw [← List.append_assoc, fileAll_append_singleton, step, hgiven, List.append_assoc]
    exact ⟨_, rfl⟩

/-- A record is filed after those before it. -/
theorem snd_of_fileAll {pre post : List (ρ × ℕ)} {p : ρ × ℕ}
    (h : (F.fileAll t rs).2 = pre ++ p :: post) :
    rs = pre.map Prod.fst ++ p.1 :: post.map Prod.fst ∧
      p.2 = (F.file (F.fileAll t (pre.map Prod.fst)).1 p.1).2 := by
  have hrs : rs = pre.map Prod.fst ++ p.1 :: post.map Prod.fst := by
    rw [← map_fst_fileAll F t rs, h, List.map_append, List.map_cons]
  refine ⟨hrs, ?_⟩
  obtain ⟨given, hgiven⟩ := fileAll_append (F := F) (t := t) (pre.map Prod.fst ++ [p.1])
    (post.map Prod.fst)
  rw [List.append_assoc, List.singleton_append, ← hrs, h, fileAll_append_singleton, step,
    List.append_assoc] at hgiven
  have hlength : pre.length = (F.fileAll t (pre.map Prod.fst)).2.length := by
    have hmap := congrArg List.length (map_fst_fileAll F t (pre.map Prod.fst))
    rw [List.length_map, List.length_map] at hmap
    exact hmap.symm
  have hrest := (List.append_inj hgiven hlength).2
  exact congrArg Prod.snd (List.cons.inj hrest).1

/-! ## Owners

Records have owners, and records of different owners should not share a row. -/

section

variable {ο : Type*} (owner : ρ → ο)

/-- Records that got the same row have the same owner. -/
def Separate (given : List (ρ × ℕ)) : Prop :=
  ∀ p ∈ given, ∀ q ∈ given, p.2 = q.2 → owner p.1 = owner q.1

variable {owner}

/-- The first record of `given` that adds a row under a key has the row found under it. -/
theorem lookup_fileAll (hown : ∀ i j, owner i = owner j → F.wanted i = F.got j →
      F.got i = F.wanted i)
    (hsep : Separate owner (F.fileAll t rs).2) (hk : F.lookup t k = none) :
    F.lookup (F.fileAll t rs).1 k =
      ((F.fileAll t rs).2.find? (fun p => F.Adds t k p.1)).map Prod.snd := by
  induction rs using List.reverseRecOn generalizing k with
  | nil => exact hk
  | append_singleton rs r ih =>
    have hfiled := filed_fileAll F t rs
    rw [fileAll_append_singleton] at hsep ⊢
    generalize F.fileAll t rs = s at *
    have hsep' : Separate owner s.2 := fun p hp q hq =>
      hsep p (List.mem_append_left _ hp) q (List.mem_append_left _ hq)
    show F.lookup (F.file s.1 r).1 k = ((s.2 ++ [(r, (F.file s.1 r).2)]).find? _).map _
    rw [List.find?_append, Option.map_or, ← ih hsep' hk, List.find?_singleton]
    cases hfind : F.lookup s.1 (F.wanted r) with
    | none =>
      rw [file_of_none hfind, lookup_insert]
      have hnone : F.lookup t (F.wanted r) = none := by
        by_contra hsome
        rw [hfiled.old _ hsome] at hfind
        exact hsome hfind
      by_cases hgot : F.got r = k
      · simp [Adds, hnone, hgot]
      · simp [Adds, hgot]
    | some id =>
      rw [file_of_some hfind]
      by_cases hadds : F.Adds t k r
      · -- the row found was added under the key that the record wants, by a record of its owner
        obtain ⟨hnone, rfl⟩ := hadds
        rw [ih hsep' hnone] at hfind
        obtain ⟨p, hp, hid⟩ := Option.map_eq_some_iff.mp hfind
        have hpadds : F.Adds t (F.wanted r) p.1 := by simpa using List.find?_some hp
        have howner : owner r = owner p.1 := by
          refine hsep (r, id) (List.mem_append_right _ ?_) p
            (List.mem_append_left _ (List.mem_of_find?_eq_some hp)) hid.symm
          show (r, id) ∈ [(r, (F.file s.1 r).2)]
          rw [file_of_some (by rw [ih hsep' hnone]; exact hfind)]
          exact List.mem_cons_self
        have hsame : F.got r = F.wanted r := hown r p.1 howner hpadds.2.symm
        have hlookup : F.lookup s.1 (F.got r) = some id := by
          rw [hsame, ih hsep' hnone]
          exact hfind
        rw [hlookup]
        rfl
      · simp [hadds]

theorem mem_fileAll (pre : List ρ) (r : ρ) (post : List ρ) :
    (r, (F.file (F.fileAll t pre).1 r).2) ∈ (F.fileAll t (pre ++ r :: post)).2 := by
  obtain ⟨given, hgiven⟩ := fileAll_append (F := F) (t := t) (pre ++ [r]) post
  rw [List.append_assoc, List.singleton_append] at hgiven
  rw [hgiven, fileAll_append_singleton]
  exact List.mem_append_left _ (List.mem_append_right _ List.mem_cons_self)

theorem Separate.left {rs' : List ρ} (h : Separate owner (F.fileAll t (rs ++ rs')).2) :
    Separate owner (F.fileAll t rs).2 := by
  obtain ⟨given, hgiven⟩ := fileAll_append (F := F) (t := t) rs rs'
  rw [hgiven] at h
  exact fun p hp q hq => h p (List.mem_append_left _ hp) q (List.mem_append_left _ hq)

/-- The first record that adds a row, among the records or among the rows given. -/
theorem find?_adds : rs.find? (fun r => F.Adds t k r) =
    ((F.fileAll t rs).2.find? (fun p => F.Adds t k p.1)).map Prod.fst := by
  conv_lhs => rw [← map_fst_fileAll F t rs, List.find?_map]
  rfl

variable (F t owner) in
/-- Records of different owners do not want the same row of the first table, and a record does
not want the row that one of another owner adds first. -/
structure OwnRows (rs : List ρ) : Prop where
  old : ∀ i ∈ rs, ∀ j ∈ rs, F.lookup t (F.wanted i) ≠ none → F.wanted j = F.wanted i →
    owner i = owner j
  new : ∀ pre r post, rs = pre ++ r :: post → F.lookup t (F.wanted r) = none →
    ∀ i, pre.find? (fun i => F.Adds t (F.wanted r) i) = some i → owner i = owner r

variable (hown : ∀ i j, owner i = owner j → F.wanted i = F.got j → F.got i = F.wanted i)

include hown

/-- The row of the next record is shared with records of its owner only. -/
theorem owner_of_shared (hsep : Separate owner (F.fileAll t rs).2)
    (h : OwnRows F t owner (rs ++ [r])) {p : ρ × ℕ} (hp : p ∈ (F.fileAll t rs).2)
    (hid : p.2 = (F.file (F.fileAll t rs).1 r).2) : owner p.1 = owner r := by
  have hfiled := filed_fileAll F t rs
  have hprs : p.1 ∈ rs := by
    rw [← map_fst_fileAll F t rs]
    exact List.mem_map_of_mem hp
  cases hfind : F.lookup (F.fileAll t rs).1 (F.wanted r) with
  | none =>
    rw [file_of_none hfind] at hid
    have := hfiled.below p hp
    omega
  | some id =>
    rw [file_of_some hfind] at hid
    by_cases hnone : F.lookup t (F.wanted r) = none
    · rw [lookup_fileAll hown hsep hnone] at hfind
      obtain ⟨q, hq, hqid⟩ := Option.map_eq_some_iff.mp hfind
      have hqr : owner q.1 = owner r :=
        h.new rs r [] rfl hnone q.1 (by rw [find?_adds, hq]; rfl)
      exact (hsep p hp q (List.mem_of_find?_eq_some hq) (hid.trans hqid.symm)).trans hqr
    · have hold := hfiled.old _ hnone
      rw [hfind] at hold
      have hpold : F.lookup t (F.wanted p.1) ≠ none := by
        intro hpnone
        have hle := hfiled.added p hp hpnone
        have hlt := lookup_lt hold.symm
        omega
      have hpid := hfiled.found p hp hpold
      rw [hid] at hpid
      have hwanted : F.wanted p.1 = F.wanted r := lookup_inj hpid hold.symm
      exact h.old p.1 (List.mem_append_left _ hprs) r
        (List.mem_append_right _ List.mem_cons_self) hpold hwanted.symm

/-- Owners do not share rows exactly when the records give them no occasion to. -/
theorem separate_iff : Separate owner (F.fileAll t rs).2 ↔ OwnRows F t owner rs := by
  have hfiled : ∀ rs, F.Filed t (F.fileAll t rs) := fun rs => filed_fileAll F t rs
  constructor
  · intro hsep
    refine ⟨?_, ?_⟩
    · intro i hi j hj hsome hwanted
      rw [← map_fst_fileAll F t rs] at hi hj
      obtain ⟨p, hp, rfl⟩ := List.mem_map.mp hi
      obtain ⟨q, hq, rfl⟩ := List.mem_map.mp hj
      have hpid := (hfiled rs).found p hp hsome
      have hqid := (hfiled rs).found q hq (by rw [hwanted]; exact hsome)
      rw [hwanted, hpid, Option.some.injEq] at hqid
      exact hsep p hp q hq hqid
    · rintro pre r post rfl hnone i hi
      have hlookup := lookup_fileAll hown hsep.left hnone
      rw [find?_adds] at hi
      obtain ⟨p, hp, rfl⟩ := Option.map_eq_some_iff.mp hi
      rw [hp, Option.map_some] at hlookup
      have hr := mem_fileAll (F := F) (t := t) pre r post
      rw [file_of_some hlookup] at hr
      obtain ⟨given, hgiven⟩ := fileAll_append (F := F) (t := t) pre (r :: post)
      refine hsep p ?_ (r, p.2) hr rfl
      rw [hgiven]
      exact List.mem_append_left _ (List.mem_of_find?_eq_some hp)
  · intro h
    induction rs using List.reverseRecOn with
    | nil => exact fun p hp => absurd hp List.not_mem_nil
    | append_singleton rs r ih =>
      have hleft : OwnRows F t owner rs := by
        refine ⟨fun i hi j hj => h.old i (List.mem_append_left _ hi) j
          (List.mem_append_left _ hj), ?_⟩
        rintro pre r' post rfl
        exact h.new pre r' (post ++ [r]) (by simp)
      have hsep := ih hleft
      have hlast : ∀ p ∈ (F.fileAll t rs).2, p.2 = (F.file (F.fileAll t rs).1 r).2 →
          owner p.1 = owner r := fun p hp => owner_of_shared hown hsep h hp
      rw [fileAll_append_singleton, step]
      intro p hp q hq hid
      rcases List.mem_append.mp hp with hp | hp <;> rcases List.mem_append.mp hq with hq | hq
      · exact hsep p hp q hq hid
      · obtain rfl := List.mem_singleton.mp hq
        exact hlast p hp hid
      · obtain rfl := List.mem_singleton.mp hp
        exact (hlast q hq hid.symm).symm
      · obtain rfl := List.mem_singleton.mp hp
        obtain rfl := List.mem_singleton.mp hq
        rfl

/-- In the end there is a row under a key that was there or that some record adds. -/
theorem lookup_fileAll_ne_none_iff (hsep : Separate owner (F.fileAll t rs).2) :
    F.lookup (F.fileAll t rs).1 k ≠ none ↔
      F.lookup t k ≠ none ∨ ∃ r ∈ rs, F.Adds t k r := by
  have hfiled := filed_fileAll F t rs
  by_cases hk : F.lookup t k = none
  · have hfind : F.lookup (F.fileAll t rs).1 k ≠ none ↔
        (rs.find? (fun r => F.Adds t k r)).isSome = true := by
      rw [lookup_fileAll hown hsep hk, find?_adds, ← Option.isSome_iff_ne_none, Option.isSome_map,
        Option.isSome_map]
    rw [hfind, List.find?_isSome]
    simp [hk]
  · rw [hfiled.old k hk]
    simp [hk]

/-- A record that finds a row in the end finds its own exactly when the row was there, or had been
added when the record was filed. -/
theorem lookup_fileAll_eq_iff {pre post : List ρ} (hrs : rs = pre ++ r :: post)
    (hsep : Separate owner (F.fileAll t rs).2) :
    F.lookup (F.fileAll t rs).1 (F.wanted r) = some (F.file (F.fileAll t pre).1 r).2 ↔
      F.lookup t (F.wanted r) ≠ none ∨ ∃ i ∈ pre ++ [r], F.Adds t (F.wanted r) i := by
  subst hrs
  have hmem := mem_fileAll (F := F) (t := t) pre r post
  have hfiled := filed_fileAll F t (pre ++ r :: post)
  by_cases hnone : F.lookup t (F.wanted r) = none
  · have hsplit : pre ++ r :: post = (pre ++ [r]) ++ post := by simp
    obtain ⟨given, hgiven⟩ := fileAll_append (F := F) (t := t) (pre ++ [r]) post
    rw [← hsplit] at hgiven
    have hpre : F.lookup (F.fileAll t pre).1 (F.wanted r) =
        ((F.fileAll t pre).2.find? (fun p => F.Adds t (F.wanted r) p.1)).map Prod.snd :=
      lookup_fileAll hown hsep.left hnone
    have hsnoc : (F.fileAll t (pre ++ [r])).2 =
        (F.fileAll t pre).2 ++ [(r, (F.file (F.fileAll t pre).1 r).2)] := by
      rw [fileAll_append_singleton, step]
    constructor
    · intro h
      refine Or.inr ?_
      by_contra hnobody
      -- then the row found was added later, under the key wanted, by a record of the same owner
      rw [lookup_fileAll hown hsep hnone] at h
      obtain ⟨p, hp, hid⟩ := Option.map_eq_some_iff.mp h
      have hadds : F.Adds t (F.wanted r) p.1 := by simpa using List.find?_some hp
      have howner := hsep p (List.mem_of_find?_eq_some hp) _ hmem hid
      have hgot : F.got r = F.wanted r := hown r p.1 howner.symm hadds.2.symm
      exact hnobody ⟨r, List.mem_append_right _ List.mem_cons_self, hnone, hgot⟩
    · rintro (h | ⟨i, hi, hadds⟩)
      · exact absurd hnone h
      · rw [lookup_fileAll hown hsep hnone, hgiven, hsnoc]
        cases hfind : (F.fileAll t pre).2.find? (fun p => F.Adds t (F.wanted r) p.1) with
        | some p =>
          rw [hfind, Option.map_some] at hpre
          rw [file_of_some hpre, List.append_assoc, List.find?_append, hfind]
          rfl
        | none =>
          -- no record before adds it, so the record itself does
          have hr : F.Adds t (F.wanted r) r := by
            rcases List.mem_append.mp hi with hi | hi
            · rw [← map_fst_fileAll F t pre] at hi
              obtain ⟨p, hp, rfl⟩ := List.mem_map.mp hi
              exact absurd hadds (by simpa using List.find?_eq_none.mp hfind p hp)
            · rwa [List.mem_singleton.mp hi] at hadds
          rw [List.append_assoc, List.find?_append, hfind, Option.none_or, List.singleton_append,
            List.find?_cons_of_pos (by simpa using hr)]
          rfl
  · have hid := hfiled.found _ hmem hnone
    rw [hfiled.old _ hnone, hid]
    simp

end

end Filing

end Infra
