import Mathlib.Data.List.Dedup
import Mathlib.Data.List.Perm.Basic

/-!
# Tables with a given primary key

The key comes with the row, and `INSERT OR REPLACE` deletes the row that has it already. The
key stays unique whatever is written.
-/

namespace Infra

/-- Rows with a unique key. -/
structure Keyed (α : Type*) {κ : Type*} (key : α → κ) where
  rows : List α
  nodup : (rows.map key).Nodup

namespace Keyed

variable {α κ : Type*} {key : α → κ}

def empty : Keyed α key where
  rows := []
  nodup := by simp

theorem eq_of_key (t : Keyed α key) {r r' : α} (hr : r ∈ t.rows) (hr' : r' ∈ t.rows)
    (h : key r = key r') : r = r' :=
  List.inj_on_of_nodup_map t.nodup hr hr' h

variable [DecidableEq κ]

/-- `INSERT OR REPLACE`. -/
def replace (t : Keyed α key) (r : α) : Keyed α key where
  rows := t.rows.filter (fun r' => key r' ≠ key r) ++ [r]
  nodup := by
    rw [List.map_append, List.nodup_append]
    refine ⟨(List.filter_sublist.map key).nodup t.nodup, by simp, ?_⟩
    simp only [List.mem_map, List.mem_filter, List.map_cons, List.map_nil, List.mem_singleton]
    rintro _ ⟨r', ⟨-, hne⟩, rfl⟩ _ rfl
    simpa using hne

theorem mem_replace {t : Keyed α key} {r r' : α} :
    r' ∈ (t.replace r).rows ↔ r' ∈ t.rows ∧ key r' ≠ key r ∨ r' = r := by
  simp [replace]

/-- `UPDATE ... WHERE key = k`, for an `f` that does not touch the key. -/
def update (t : Keyed α key) (k : κ) (f : α → α) (hf : ∀ r, key (f r) = key r) : Keyed α key where
  rows := t.rows.map (fun r => if key r = k then f r else r)
  nodup := by
    have hkey : key ∘ (fun r => if key r = k then f r else r) = key := by
      funext r
      by_cases h : key r = k <;> simp [h, hf]
    rw [List.map_map, hkey]
    exact t.nodup

/-- `DELETE ... WHERE key = k`. -/
def delete (t : Keyed α key) (k : κ) : Keyed α key where
  rows := t.rows.filter (fun r => key r ≠ k)
  nodup := (List.filter_sublist.map key).nodup t.nodup

section

variable {t : Keyed α key} {k : κ} {f : α → α} {r : α}

theorem mem_update {hf : ∀ r, key (f r) = key r} : r ∈ (t.update k f hf).rows ↔
    ∃ r₀ ∈ t.rows, (if key r₀ = k then f r₀ else r₀) = r :=
  List.mem_map

variable (hf : ∀ r, key (f r) = key r)

theorem mem_update_of_ne (h : key r ≠ k) : r ∈ (t.update k f hf).rows ↔ r ∈ t.rows := by
  rw [mem_update]
  constructor
  · rintro ⟨r₀, hr₀, rfl⟩
    by_cases hk : key r₀ = k
    · rw [if_pos hk, hf] at h
      exact absurd hk h
    · rw [if_neg hk]
      exact hr₀
  · intro hr
    exact ⟨r, hr, if_neg h⟩

theorem mem_update_self (hr : r ∈ t.rows) (h : key r = k) : f r ∈ (t.update k f hf).rows :=
  mem_update.mpr ⟨r, hr, if_pos h⟩

/-- An update changes no key. -/
theorem exists_key_update {k' : κ} :
    (∃ r ∈ (t.update k f hf).rows, key r = k') ↔ ∃ r ∈ t.rows, key r = k' := by
  constructor
  · rintro ⟨r, hr, hk⟩
    obtain ⟨r₀, hr₀, rfl⟩ := mem_update.mp hr
    refine ⟨r₀, hr₀, ?_⟩
    by_cases h : key r₀ = k
    · rw [if_pos h, hf] at hk
      exact hk
    · rwa [if_neg h] at hk
  · rintro ⟨r, hr, hk⟩
    by_cases h : key r = k
    · exact ⟨f r, mem_update_self hf hr h, (hf r).trans hk⟩
    · exact ⟨r, (mem_update_of_ne hf h).mpr hr, hk⟩

theorem mem_delete : r ∈ (t.delete k).rows ↔ r ∈ t.rows ∧ key r ≠ k := by
  simp [delete]

end

/-- `INSERT OR REPLACE`, one row after the other. -/
def replaceAll (t : Keyed α key) (rs : List α) : Keyed α key := rs.foldl replace t

@[simp] theorem replaceAll_nil (t : Keyed α key) : t.replaceAll [] = t := rfl

@[simp] theorem replaceAll_cons (t : Keyed α key) (r : α) (rs : List α) :
    t.replaceAll (r :: rs) = (t.replace r).replaceAll rs := rfl

theorem replaceAll_append (t : Keyed α key) (rs rs' : List α) :
    t.replaceAll (rs ++ rs') = (t.replaceAll rs).replaceAll rs' :=
  List.foldl_append

/-- A row no later row collides with is kept. -/
theorem mem_replaceAll_of_mem {rs : List α} {r : α} (hne : ∀ r' ∈ rs, key r' ≠ key r) :
    ∀ {t : Keyed α key}, r ∈ t.rows → r ∈ (t.replaceAll rs).rows := by
  induction rs with
  | nil => exact id
  | cons r' rs ih =>
    intro t hr
    have hkeep : r ∈ (t.replace r').rows :=
      mem_replace.mpr (Or.inl ⟨hr, (hne r' List.mem_cons_self).symm⟩)
    exact ih (fun x hx => hne x (List.mem_cons_of_mem _ hx)) hkeep

/-- A row is there because it was written or because it was kept. -/
theorem mem_of_mem_replaceAll {rs : List α} {r : α} :
    ∀ {t : Keyed α key}, r ∈ (t.replaceAll rs).rows → r ∈ rs ∨ r ∈ t.rows := by
  induction rs with
  | nil => exact fun h => Or.inr h
  | cons r' rs ih =>
    intro t h
    rcases ih h with hr | hr
    · exact Or.inl (List.mem_cons_of_mem _ hr)
    · rcases mem_replace.mp hr with ⟨hr, -⟩ | rfl
      · exact Or.inr hr
      · exact Or.inl List.mem_cons_self

/-- Every key written is there, with a row that was written. -/
theorem exists_key_replaceAll {rs : List α} :
    ∀ {t : Keyed α key}, ∀ r ∈ rs, ∃ r' ∈ rs, r' ∈ (t.replaceAll rs).rows ∧ key r' = key r := by
  induction rs with
  | nil => simp
  | cons r₀ rs ih =>
    intro t r hr
    -- the last row written with the key is the one that stays
    by_cases hlater : ∃ r' ∈ rs, key r' = key r
    · obtain ⟨r', hr', hk⟩ := hlater
      obtain ⟨r'', hr'', hmem, hk'⟩ := ih (t := t.replace r₀) r' hr'
      exact ⟨r'', List.mem_cons_of_mem _ hr'', hmem, hk'.trans hk⟩
    · have hlast : r = r₀ := by
        rcases List.mem_cons.mp hr with rfl | hr
        · rfl
        · exact absurd ⟨r, hr, rfl⟩ hlater
      have hnew : r ∈ (t.replace r₀).rows := mem_replace.mpr (Or.inr hlast)
      refine ⟨r, hr, ?_, rfl⟩
      exact mem_replaceAll_of_mem (fun r' hr' hk => hlater ⟨r', hr', hk⟩) hnew

/-- Of the rows with one key the last one. -/
def lastVersions (key : α → κ) : List α → List α
  | [] => []
  | r :: rs => if key r ∈ rs.map key then lastVersions key rs else r :: lastVersions key rs

theorem mem_lastVersions_append {rs rs' : List α} {r : α} :
    r ∈ lastVersions key (rs ++ rs') ↔
      r ∈ lastVersions key rs ∧ key r ∉ rs'.map key ∨ r ∈ lastVersions key rs' := by
  induction rs with
  | nil => simp [lastVersions]
  | cons r₀ rs ih =>
    have hlater : key r₀ ∈ (rs ++ rs').map key ↔ key r₀ ∈ rs.map key ∨ key r₀ ∈ rs'.map key := by
      rw [List.map_append, List.mem_append]
    rw [List.cons_append, lastVersions, lastVersions]
    by_cases h : key r₀ ∈ rs.map key
    · rw [if_pos (hlater.mpr (Or.inl h)), if_pos h, ih]
    · by_cases h' : key r₀ ∈ rs'.map key
      · have hne : r = r₀ → key r ∈ rs'.map key := fun heq => heq ▸ h'
        rw [if_pos (hlater.mpr (Or.inr h')), if_neg h, ih, List.mem_cons]
        tauto
      · have hne : r = r₀ → key r ∉ rs'.map key := fun heq => heq ▸ h'
        rw [if_neg fun hk => (hlater.mp hk).elim h h', if_neg h, List.mem_cons, List.mem_cons, ih]
        tauto

theorem mem_of_mem_lastVersions {rs : List α} {r : α} (h : r ∈ lastVersions key rs) : r ∈ rs := by
  induction rs with
  | nil => exact h
  | cons r₀ rs ih =>
    rw [lastVersions] at h
    split at h
    · exact List.mem_cons_of_mem _ (ih h)
    · rcases List.mem_cons.mp h with rfl | h
      · exact List.mem_cons_self
      · exact List.mem_cons_of_mem _ (ih h)

variable (key) in
/-- Of every key there is a last version. -/
theorem exists_mem_lastVersions {rs : List α} {r : α} (h : r ∈ rs) :
    ∃ r' ∈ lastVersions key rs, key r' = key r := by
  induction rs generalizing r with
  | nil => cases h
  | cons r₀ rs ih =>
    rw [lastVersions]
    by_cases hlater : key r₀ ∈ rs.map key
    · rw [if_pos hlater]
      rcases List.mem_cons.mp h with rfl | h
      · obtain ⟨r', hr', hkey⟩ := List.mem_map.mp hlater
        obtain ⟨r'', hr'', hkey'⟩ := ih hr'
        exact ⟨r'', hr'', hkey'.trans hkey⟩
      · exact ih h
    · rw [if_neg hlater]
      rcases List.mem_cons.mp h with rfl | h
      · exact ⟨r, List.mem_cons_self, rfl⟩
      · obtain ⟨r', hr', hkey⟩ := ih h
        exact ⟨r', List.mem_cons_of_mem _ hr', hkey⟩

/-- Of rows that come in groups the last versions are the last of their group, and no later group
has the key. -/
theorem mem_lastVersions_flatMap {β : Type*} {l : List β} {g : β → List α} {r : α} :
    r ∈ lastVersions key (l.flatMap g) ↔ ∃ pre b post, l = pre ++ b :: post ∧
      r ∈ lastVersions key (g b) ∧ ∀ b' ∈ post, key r ∉ (g b').map key := by
  induction l with
  | nil => simp [lastVersions]
  | cons b₀ l ih =>
    rw [List.flatMap_cons, mem_lastVersions_append, ih]
    constructor
    · rintro (⟨hr, hlater⟩ | ⟨pre, b, post, rfl, hr, hlater⟩)
      · refine ⟨[], b₀, l, rfl, hr, fun b' hb' hkey => hlater ?_⟩
        obtain ⟨r', hr', heq⟩ := List.mem_map.mp hkey
        exact heq ▸ List.mem_map_of_mem (List.mem_flatMap.mpr ⟨b', hb', hr'⟩)
      · exact ⟨b₀ :: pre, b, post, rfl, hr, hlater⟩
    · rintro ⟨pre, b, post, heq, hr, hlater⟩
      cases pre with
      | nil =>
        obtain ⟨rfl, rfl⟩ := List.cons.inj heq
        refine Or.inl ⟨hr, fun hkey => ?_⟩
        obtain ⟨r', hr', heq⟩ := List.mem_map.mp hkey
        obtain ⟨b', hb', hmem⟩ := List.mem_flatMap.mp hr'
        exact hlater b' hb' (heq ▸ List.mem_map_of_mem hmem)
      | cons x pre =>
        obtain ⟨rfl, rfl⟩ := List.cons.inj heq
        exact Or.inr ⟨pre, b, post, rfl, hr, hlater⟩

/-- Which version is the last depends on the keys only. -/
theorem lastVersions_map {β : Type*} (f : β → α) (bs : List β) :
    lastVersions key (bs.map f) = (lastVersions (key ∘ f) bs).map f := by
  induction bs with
  | nil => rfl
  | cons b bs ih =>
    rw [List.map_cons, lastVersions, lastVersions, List.map_map, ih, Function.comp_apply]
    by_cases h : key (f b) ∈ bs.map (key ∘ f)
    · rw [if_pos h, if_pos h]
    · rw [if_neg h, if_neg h, List.map_cons]

/-- The last versions are appended, and the rows with other keys are kept. -/
theorem rows_replaceAll {rs : List α} : ∀ {t : Keyed α key},
    (t.replaceAll rs).rows = t.rows.filter (fun r => key r ∉ rs.map key) ++ lastVersions key rs := by
  induction rs with
  | nil => simp [lastVersions]
  | cons r rs ih =>
    intro t
    rw [replaceAll_cons, ih, replace, List.filter_append, List.filter_filter]
    have hkept : (fun r' => decide (key r' ∉ rs.map key) && decide (key r' ≠ key r)) =
        fun r' => decide (key r' ∉ (r :: rs).map key) := by
      funext r'
      rw [Bool.eq_iff_iff, Bool.and_eq_true, decide_eq_true_iff, decide_eq_true_iff,
        decide_eq_true_iff, List.map_cons, List.mem_cons, not_or, and_comm]
    rw [hkept, lastVersions, List.append_assoc]
    by_cases h : key r ∈ rs.map key
    · rw [if_pos h, List.filter_cons_of_neg (by simpa using h), List.filter_nil, List.nil_append]
    · rw [if_neg h, List.filter_cons_of_pos (by simpa using h), List.filter_nil,
        List.singleton_append]

/-- A row that is not written again is kept unless its key is written. -/
theorem mem_replaceAll_iff {t : Keyed α key} {rs : List α} {r : α} (hr : r ∈ t.rows)
    (hnew : r ∉ rs) : r ∈ (t.replaceAll rs).rows ↔ key r ∉ rs.map key := by
  rw [rows_replaceAll, List.mem_append, List.mem_filter, decide_eq_true_iff]
  constructor
  · rintro (⟨-, hkey⟩ | hlast)
    · exact hkey
    · exact absurd (mem_of_mem_lastVersions hlast) hnew
  · exact fun hkey => Or.inl ⟨hr, hkey⟩

/-- The rows of a batch that stay. -/
theorem mem_lastVersions_iff {t : Keyed α key} {rs : List α} {r : α} :
    r ∈ lastVersions key rs ↔ r ∈ (t.replaceAll rs).rows ∧ key r ∈ rs.map key := by
  rw [rows_replaceAll, List.mem_append, List.mem_filter, decide_eq_true_iff]
  have hwritten : r ∈ lastVersions key rs → key r ∈ rs.map key :=
    fun h => List.mem_map_of_mem (mem_of_mem_lastVersions h)
  tauto

/-- Rows that were written and then changed are written again as they are exactly when each last
version is what the change has made of it. -/
theorem replaceAll_again_eq_iff {β : Type*} {t t' : Keyed α key} {bs : List β} {f f' : β → α}
    {g : α → α} (hf : ∀ b, key (f' b) = key (f b)) (hg : ∀ r, key (g r) = key r)
    (ht' : t'.rows = (t.replaceAll (bs.map f)).rows.map g) :
    t'.replaceAll (bs.map f') = t' ↔ ∀ b ∈ lastVersions (key ∘ f) bs, f' b = g (f b) := by
  have hkeys : (bs.map f').map key = (bs.map f).map key := by
    rw [List.map_map, List.map_map]
    exact List.map_congr_left fun b _ => hf b
  have hversions : lastVersions key (bs.map f') = (lastVersions (key ∘ f) bs).map f' := by
    rw [lastVersions_map, show key ∘ f' = key ∘ f from funext hf]
  let kept := (t.rows.filter fun r => key r ∉ (bs.map f).map key).map g
  have hrows : t'.rows = kept ++ (lastVersions (key ∘ f) bs).map (g ∘ f) := by
    rw [ht', rows_replaceAll, lastVersions_map, List.map_append]
    exact congrArg _ List.map_map
  have hkept : ∀ r ∈ kept, key r ∉ (bs.map f).map key := by
    intro r hr
    obtain ⟨r₀, hr₀, rfl⟩ := List.mem_map.mp hr
    rw [hg]
    exact of_decide_eq_true (List.mem_filter.mp hr₀).2
  have hgone : ∀ r ∈ (lastVersions (key ∘ f) bs).map (g ∘ f), key r ∈ (bs.map f).map key := by
    intro r hr
    obtain ⟨b, hb, rfl⟩ := List.mem_map.mp hr
    rw [Function.comp_apply, hg]
    exact List.mem_map_of_mem (List.mem_map_of_mem (mem_of_mem_lastVersions hb))
  have hagain : (t'.replaceAll (bs.map f')).rows =
      kept ++ (lastVersions (key ∘ f) bs).map f' := by
    rw [rows_replaceAll, hkeys, hversions, hrows, List.filter_append,
      List.filter_eq_self.mpr fun r hr => decide_eq_true (hkept r hr),
      List.filter_eq_nil_iff.mpr fun r hr => by simpa using hgone r hr, List.append_nil]
  have hext : t'.replaceAll (bs.map f') = t' ↔ (t'.replaceAll (bs.map f')).rows = t'.rows := by
    refine ⟨congrArg rows, fun h => ?_⟩
    generalize t'.replaceAll (bs.map f') = u at h
    obtain ⟨_, _⟩ := u
    obtain ⟨_, _⟩ := t'
    subst h
    rfl
  rw [hext, hagain, hrows, List.append_cancel_left_eq, List.map_inj_left]
  rfl

theorem lastVersions_of_nodup {rs : List α} (hnd : (rs.map key).Nodup) :
    lastVersions key rs = rs := by
  induction rs with
  | nil => rfl
  | cons r rs ih =>
    rw [List.map_cons, List.nodup_cons] at hnd
    rw [lastVersions, if_neg hnd.1, ih hnd.2]

theorem mem_keys_replaceAll {t : Keyed α key} {rs : List α} {k : κ} :
    k ∈ (t.replaceAll rs).rows.map key ↔ k ∈ t.rows.map key ∨ k ∈ rs.map key := by
  constructor
  · intro hk
    obtain ⟨r, hr, rfl⟩ := List.mem_map.mp hk
    rcases mem_of_mem_replaceAll hr with hr | hr
    · exact Or.inr (List.mem_map_of_mem hr)
    · exact Or.inl (List.mem_map_of_mem hr)
  · intro hk
    by_cases hnew : k ∈ rs.map key
    · obtain ⟨r, hr, rfl⟩ := List.mem_map.mp hnew
      obtain ⟨r', -, hr', hkey⟩ := exists_key_replaceAll (t := t) r hr
      exact hkey ▸ List.mem_map_of_mem hr'
    · obtain ⟨r, hr, rfl⟩ := List.mem_map.mp (hk.resolve_right hnew)
      refine List.mem_map_of_mem (mem_replaceAll_of_mem (fun r' hr' heq => hnew ?_) hr)
      exact heq ▸ List.mem_map_of_mem hr'

/-- As many keys of a table are in a list as there are keys of the list in the table. -/
theorem countP_mem_keys (t : Keyed α key) {ks : List κ} {p : α → Bool}
    (hp : ∀ r, p r = true ↔ key r ∈ ks) :
    t.rows.countP p = ks.dedup.countP (fun k => k ∈ t.rows.map key) := by
  have hperm : ((t.rows.map key).filter fun k => k ∈ ks).Perm
      (ks.dedup.filter fun k => k ∈ t.rows.map key) := by
    rw [List.perm_ext_iff_of_nodup (t.nodup.filter _) ((List.nodup_dedup ks).filter _)]
    intro k
    simp only [List.mem_filter, List.mem_dedup, decide_eq_true_iff]
    exact and_comm
  have hlength := hperm.length_eq
  rw [List.filter_map, List.length_map, ← List.countP_eq_length_filter,
    ← List.countP_eq_length_filter] at hlength
  rw [← hlength]
  exact List.countP_congr fun r _ => by simp [hp]

theorem countP_mem_keys_le (t : Keyed α key) {ks : List κ} {p : α → Bool}
    (hp : ∀ r, p r = true ↔ key r ∈ ks) : t.rows.countP p ≤ ks.dedup.length := by
  rw [t.countP_mem_keys hp]
  exact List.countP_le_length

/-- A batch adds a row for each of its keys that is not there. -/
theorem length_replaceAll (t : Keyed α key) {rs : List α} {p : α → Bool}
    (hp : ∀ r, p r = true ↔ key r ∈ rs.map key) :
    (t.replaceAll rs).rows.length + t.rows.countP p = t.rows.length + (rs.map key).dedup.length := by
  have hperm : ((t.replaceAll rs).rows.map key).Perm
      (t.rows.map key ++ (rs.map key).dedup.filter (fun k => k ∉ t.rows.map key)) := by
    rw [List.perm_ext_iff_of_nodup (t.replaceAll rs).nodup]
    · intro k
      rw [mem_keys_replaceAll, List.mem_append, List.mem_filter, List.mem_dedup,
        decide_eq_true_iff]
      tauto
    · refine List.Nodup.append t.nodup ((List.nodup_dedup _).filter _) ?_
      intro k hk hk'
      exact (of_decide_eq_true (List.mem_filter.mp hk').2) hk
  have hlength := hperm.length_eq
  have hsplit := List.length_eq_countP_add_countP (fun k => decide (k ∈ t.rows.map key))
    (l := (rs.map key).dedup)
  have hnew : ((rs.map key).dedup.filter (fun k => k ∉ t.rows.map key)).length =
      (rs.map key).dedup.countP fun k => ¬decide (k ∈ t.rows.map key) = true := by
    rw [← List.countP_eq_length_filter]
    exact List.countP_congr fun k _ => by simp
  rw [List.length_append, List.length_map, List.length_map, hnew] at hlength
  rw [t.countP_mem_keys hp]
  omega

/-- Rows with different keys are all appended, in order. -/
theorem rows_replaceAll_of_nodup {rs : List α} (hnd : (rs.map key).Nodup) {t : Keyed α key} :
    (t.replaceAll rs).rows = t.rows.filter (fun r => key r ∉ rs.map key) ++ rs := by
  rw [rows_replaceAll, lastVersions_of_nodup hnd]

end Keyed

/-! ## Lists with different keys -/

section

variable {α κ : Type*} [DecidableEq κ] {key : α → κ} {l : List α} {i : ℕ} {a b : α}

/-- To write to an index is to write to a key. -/
theorem set_eq_map_of_nodup (hnd : (l.map key).Nodup) (h : l[i]? = some a) :
    l.set i b = l.map (fun x => if key x = key a then b else x) := by
  induction l generalizing i with
  | nil => cases h
  | cons x l ih =>
    rw [List.map_cons, List.nodup_cons] at hnd
    cases i with
    | zero =>
      obtain rfl : x = a := by simpa using h
      have hrest : l.map (fun y => if key y = key x then b else y) = l := by
        refine (List.map_congr_left fun y hy => if_neg fun hk => ?_).trans (List.map_id l)
        exact hnd.1 (hk ▸ List.mem_map_of_mem hy)
      rw [List.set_cons_zero, List.map_cons, if_pos rfl, hrest]
    | succ i =>
      rw [List.getElem?_cons_succ] at h
      have hne : key x ≠ key a := by
        intro hk
        exact hnd.1 (hk ▸ List.mem_map_of_mem (List.mem_of_getElem? h))
      rw [List.set_cons_succ, List.map_cons, if_neg hne, ih hnd.2 h]

/-- To remove an index is to remove a key. -/
theorem eraseIdx_eq_filter_of_nodup (hnd : (l.map key).Nodup) (h : l[i]? = some a) :
    l.eraseIdx i = l.filter (fun x => key x ≠ key a) := by
  induction l generalizing i with
  | nil => cases h
  | cons x l ih =>
    rw [List.map_cons, List.nodup_cons] at hnd
    cases i with
    | zero =>
      obtain rfl : x = a := by simpa using h
      have hrest : l.filter (fun y => key y ≠ key x) = l := by
        refine List.filter_eq_self.mpr fun y hy => decide_eq_true fun hk => ?_
        exact hnd.1 (hk ▸ List.mem_map_of_mem hy)
      rw [List.eraseIdx_zero, List.tail_cons, List.filter_cons_of_neg (by simp), hrest]
    | succ i =>
      rw [List.getElem?_cons_succ] at h
      have hne : key x ≠ key a := by
        intro hk
        exact hnd.1 (hk ▸ List.mem_map_of_mem (List.mem_of_getElem? h))
      rw [List.eraseIdx_cons_succ, List.filter_cons_of_pos (by simpa using hne), ih hnd.2 h]

end

namespace Keyed

variable {α κ : Type*} {key : α → κ} [DecidableEq κ]

/-! ## Batches

The rows of a batch share an owner that no row written before has. -/

section

variable {β : Type*} {owner : α → β} {b b' : β} {t : Keyed α key} {rs rs' : List α}

/-- The rows a batch left survive the next batch exactly when the two share no key. -/
theorem batch_kept_iff (hrs : ∀ r ∈ rs, owner r = b) (hrs' : ∀ r ∈ rs', owner r = b')
    (hne : b ≠ b') (ht : ∀ r ∈ t.rows, owner r ≠ b) :
    (∀ r ∈ (t.replaceAll rs).rows, owner r = b → r ∈ ((t.replaceAll rs).replaceAll rs').rows) ↔
      ∀ r ∈ rs, ∀ r' ∈ rs', key r' ≠ key r := by
  constructor
  · intro hkept r hr r' hr' hk
    obtain ⟨x, hx, hxmem, hxk⟩ := exists_key_replaceAll (t := t) r hr
    obtain ⟨x', hx', hxmem', hxk'⟩ := exists_key_replaceAll (t := t.replaceAll rs) r' hr'
    -- the row kept has the key of the row that replaced it, so the two are one
    have heq : x' = x := eq_of_key _ hxmem' (hkept x hxmem (hrs x hx))
      (hxk'.trans (hk.trans hxk.symm))
    exact hne (by rw [← hrs x hx, ← heq, hrs' x' hx'])
  · intro hdisj r hr hown
    rcases mem_of_mem_replaceAll hr with hr' | hr'
    · exact mem_replaceAll_of_mem (hdisj r hr') hr
    · exact absurd hown (ht r hr')

/-- A batch is stored row by row exactly when its keys are different. -/
theorem batch_stored_iff [DecidableEq β] (hrs : ∀ r ∈ rs, owner r = b)
    (ht : ∀ r ∈ t.rows, owner r ≠ b) :
    ((t.replaceAll rs).rows.filter (fun r => owner r = b)).Perm rs ↔ (rs.map key).Nodup := by
  constructor
  · intro hperm
    rw [← (hperm.map key).nodup_iff]
    exact (List.filter_sublist.map key).nodup (t.replaceAll rs).nodup
  · intro hnd
    -- no row written before belongs to the batch
    have hold : (t.rows.filter (fun r => key r ∉ rs.map key)).filter
        (fun r => owner r = b) = [] := by
      rw [List.filter_eq_nil_iff]
      intro r hr
      simpa using ht r (List.mem_of_mem_filter hr)
    have hnew : rs.filter (fun r => owner r = b) = rs :=
      List.filter_eq_self.mpr (by simpa using hrs)
    rw [rows_replaceAll_of_nodup hnd, List.filter_append, hold, hnew, List.nil_append]

end

end Keyed

end Infra
