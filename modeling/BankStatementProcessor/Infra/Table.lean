import Mathlib.Data.Int.Order.Basic
import Mathlib.Data.List.MinMax
import Mathlib.Data.List.Nodup

/-!
# Tables with a serial primary key

A table is the list of its rows together with the sequence its primary key is drawn from.
`Table.modify` is `UPDATE ... WHERE id = $1` and `Table.insert` is an `INSERT` whose key
comes from the sequence. Both keep the key unique, so the facts about it are fields.

`UniqueOn` is a (partial) unique index: rows on which the indexed expression is `none`
never collide. `latestBy` is `ORDER BY f DESC LIMIT 1`.
-/

namespace Infra

/-- Rows with a unique key below the next value of the sequence. -/
structure Table (α : Type*) (key : α → ℕ) where
  rows : List α
  nextId : ℕ
  nodup : (rows.map key).Nodup
  below : ∀ r ∈ rows, key r < nextId

namespace Table

variable {α : Type*} {key : α → ℕ}

def empty : Table α key where
  rows := []
  nextId := 1
  nodup := by simp
  below := by simp

/-- Two rows with the same key are the same row. -/
theorem eq_of_key (t : Table α key) {r r' : α} (hr : r ∈ t.rows) (hr' : r' ∈ t.rows)
    (h : key r = key r') : r = r' :=
  List.inj_on_of_nodup_map t.nodup hr hr' h

theorem nodup_rows (t : Table α key) : t.rows.Nodup := List.Nodup.of_map key t.nodup

/-- `SELECT ... WHERE id = $1`. -/
def get? (t : Table α key) (id : ℕ) : Option α :=
  t.rows.find? (fun r => key r = id)

theorem get?_eq_some {t : Table α key} {id : ℕ} {r : α} :
    t.get? id = some r ↔ r ∈ t.rows ∧ key r = id := by
  unfold get?
  constructor
  · intro h
    exact ⟨List.mem_of_find?_eq_some h, by simpa using List.find?_some h⟩
  · rintro ⟨hm, hk⟩
    cases hf : t.rows.find? (fun r => decide (key r = id)) with
    | none =>
      rw [List.find?_eq_none] at hf
      exact absurd hk (by simpa using hf r hm)
    | some r' =>
      have hk' : key r' = id := by simpa using List.find?_some hf
      rw [t.eq_of_key (List.mem_of_find?_eq_some hf) hm (hk'.trans hk.symm)]

/-- `UPDATE ... SET f WHERE id = $1`, for an `f` that does not touch the key. -/
def modify (t : Table α key) (id : ℕ) (f : α → α) (hf : ∀ r, key (f r) = key r) :
    Table α key where
  rows := t.rows.map (fun r => if key r = id then f r else r)
  nextId := t.nextId
  nodup := by
    rw [List.map_map]
    have hk : key ∘ (fun r => if key r = id then f r else r) = key := by
      funext r
      by_cases h : key r = id <;> simp [h, hf]
    rw [hk]
    exact t.nodup
  below := by
    intro r hr
    obtain ⟨r₀, hr₀, rfl⟩ := List.mem_map.mp hr
    have := t.below r₀ hr₀
    by_cases h : key r₀ = id <;> simp [h, hf] <;> omega

variable {t : Table α key} {id : ℕ} {f : α → α} {hf : ∀ r, key (f r) = key r}

theorem mem_modify {r : α} :
    r ∈ (t.modify id f hf).rows ↔ ∃ r₀ ∈ t.rows, (if key r₀ = id then f r₀ else r₀) = r :=
  List.mem_map

/-- A row with another key is in the updated table exactly when it was there before. -/
theorem mem_modify_of_ne {r : α} (h : key r ≠ id) :
    r ∈ (t.modify id f hf).rows ↔ r ∈ t.rows := by
  rw [mem_modify]
  constructor
  · rintro ⟨r₀, hr₀, rfl⟩
    by_cases hk : key r₀ = id
    · rw [if_pos hk, hf] at h
      exact absurd hk h
    · rw [if_neg hk]
      exact hr₀
  · intro hr
    exact ⟨r, hr, if_neg h⟩

theorem mem_modify_self {r : α} (hr : r ∈ t.rows) (h : key r = id) :
    f r ∈ (t.modify id f hf).rows :=
  mem_modify.mpr ⟨r, hr, if_pos h⟩

/-- An update keeps every key, so a foreign key into the table survives it. -/
theorem exists_key_modify {k : ℕ} (h : ∃ r ∈ t.rows, key r = k) :
    ∃ r ∈ (t.modify id f hf).rows, key r = k := by
  obtain ⟨r, hr, hk⟩ := h
  refine ⟨_, mem_modify.mpr ⟨r, hr, rfl⟩, ?_⟩
  by_cases hi : key r = id <;> simp [hi, hf, ← hk]

/-- An update of a row that `o` assigns to `x` leaves the rows of every other owner alone. -/
theorem mem_modify_of_owner {β : Type*} {o : α → β} {x : β} (hof : ∀ r, o (f r) = o r)
    (hid : ∀ r ∈ t.rows, key r = id → o r = x) {r : α} (h : o r ≠ x) :
    r ∈ (t.modify id f hf).rows ↔ r ∈ t.rows := by
  by_cases hk : key r = id
  · constructor
    · intro hr
      obtain ⟨r₀, hr₀, rfl⟩ := mem_modify.mp hr
      by_cases hk₀ : key r₀ = id
      · rw [if_pos hk₀, hof] at h
        exact absurd (hid r₀ hr₀ hk₀) h
      · rw [if_neg hk₀] at hk
        exact absurd hk hk₀
    · intro hr
      exact absurd (hid r hr hk) h
  · exact mem_modify_of_ne hk

/-- An update leaves a column alone exactly when it does so in the updated row. -/
theorem map_modify_eq_iff {β : Type*} {g : α → β} {r : α} (hr : r ∈ t.rows) (hk : key r = id) :
    (t.modify id f hf).rows.map g = t.rows.map g ↔ g (f r) = g r := by
  have hmap : (t.modify id f hf).rows.map g =
      t.rows.map (fun r => g (if key r = id then f r else r)) := List.map_map
  rw [hmap, List.map_inj_left]
  constructor
  · intro h
    simpa [hk] using h r hr
  · intro h a ha
    by_cases hka : key a = id
    · rw [if_pos hka, t.eq_of_key ha hr (hka.trans hk.symm)]
      exact h
    · rw [if_neg hka]

/-- An update that does not bring its row into a selection does not make it larger. -/
theorem countP_modify_le {p : α → Bool}
    (hp : ∀ r ∈ t.rows, key r = id → p (f r) = true → p r = true) :
    (t.modify id f hf).rows.countP p ≤ t.rows.countP p := by
  have hrows : (t.modify id f hf).rows = t.rows.map (fun r => if key r = id then f r else r) := rfl
  rw [hrows, List.countP_map]
  refine List.countP_mono_left ?_
  intro r hmem hr
  simp only [Function.comp_apply] at hr
  split at hr
  · next hid => exact hp r hmem hid hr
  · exact hr

/-- An update changes one row, so a selection has at most one row more. -/
theorem countP_modify_le_succ {p : α → Bool} :
    (t.modify id f hf).rows.countP p ≤ t.rows.countP p + 1 := by
  have hrows : (t.modify id f hf).rows = t.rows.map (fun r => if key r = id then f r else r) := rfl
  rw [hrows]
  have hnodup := t.nodup
  generalize t.rows = rows at hnodup ⊢
  induction rows with
  | nil => simp
  | cons r rows ih =>
    rw [List.map_cons, List.nodup_cons] at hnodup
    obtain ⟨hfresh, hnodup⟩ := hnodup
    rw [List.map_cons, List.countP_cons, List.countP_cons]
    by_cases hr : key r = id
    · -- no other row has the key
      have hrest : rows.map (fun r => if key r = id then f r else r) = rows := by
        refine (List.map_congr_left fun r' hr' => if_neg fun hkey => ?_).trans (List.map_id rows)
        exact hfresh (List.mem_map.mpr ⟨r', hr', hkey.trans hr.symm⟩)
      rw [hrest]
      split <;> split <;> omega
    · rw [if_neg hr]
      have := ih hnodup
      split <;> omega

/-- `INSERT` with the key drawn from the sequence. -/
def insert (t : Table α key) (mk : ℕ → α) (hk : ∀ n, key (mk n) = n) : Table α key where
  rows := t.rows ++ [mk t.nextId]
  nextId := t.nextId + 1
  nodup := by
    rw [List.map_append, List.nodup_append]
    refine ⟨t.nodup, by simp, ?_⟩
    intro a ha b hb
    obtain ⟨r, hr, rfl⟩ := List.mem_map.mp ha
    have := t.below r hr
    simp only [List.map_cons, List.map_nil, List.mem_cons, List.not_mem_nil, or_false, hk] at hb
    omega
  below := by
    intro r hr
    rcases List.mem_append.mp hr with h | h
    · have := t.below r h
      omega
    · simp only [List.mem_cons, List.not_mem_nil, or_false] at h
      rw [h, hk]
      omega

theorem mem_insert {mk : ℕ → α} {hk : ∀ n, key (mk n) = n} {r : α} :
    r ∈ (t.insert mk hk).rows ↔ r ∈ t.rows ∨ r = mk t.nextId := by
  simp [insert]

theorem mem_insert_of_mem {mk : ℕ → α} {hk : ∀ n, key (mk n) = n} {r : α} (hr : r ∈ t.rows) :
    r ∈ (t.insert mk hk).rows :=
  mem_insert.mpr (Or.inl hr)

/-- `DELETE`, which leaves the rows that `p` holds of. The sequence does not go back. -/
def keep (t : Table α key) (p : α → Bool) : Table α key where
  rows := t.rows.filter p
  nextId := t.nextId
  nodup := (List.filter_sublist.map key).nodup t.nodup
  below := fun r hr => t.below r (List.mem_of_mem_filter hr)

/-- An insert changes every column. -/
theorem map_insert_ne {β : Type*} {g : α → β} {mk : ℕ → α} {hk : ∀ n, key (mk n) = n} :
    (t.insert mk hk).rows.map g ≠ t.rows.map g := by
  intro h
  have := congrArg List.length h
  simp [insert] at this

end Table

/-- A condition that at most one row meets is a lookup. -/
theorem find?_eq_some_of_unique {α : Type*} {rows : List α} {p : α → Bool} {r : α}
    (h : ∀ r ∈ rows, ∀ r' ∈ rows, p r = true → p r' = true → r = r') :
    rows.find? p = some r ↔ r ∈ rows ∧ p r = true := by
  constructor
  · intro hfind
    exact ⟨List.mem_of_find?_eq_some hfind, List.find?_some hfind⟩
  · rintro ⟨hr, hp⟩
    cases hfind : rows.find? p with
    | none => exact absurd hp (List.find?_eq_none.mp hfind r hr)
    | some r' =>
      rw [h r' (List.mem_of_find?_eq_some hfind) r hr (List.find?_some hfind) hp]

/-! ## Unique indexes -/

/-- No two rows agree on a value of the indexed expression. -/
def UniqueOn {α β : Type*} (f : α → Option β) (rows : List α) : Prop :=
  ∀ r ∈ rows, ∀ r' ∈ rows, ∀ b, f r = some b → f r' = some b → r = r'

namespace UniqueOn

variable {α β : Type*} {key : α → ℕ} {f : α → Option β} {t : Table α key} {id : ℕ}
  {g : α → α} {hg : ∀ r, key (g r) = key r}

theorem nil : UniqueOn f ([] : List α) := by
  intro r hr
  simp at hr

/-- An update that leaves the indexed expression alone keeps the index. -/
theorem modify (h : UniqueOn f t.rows) (hfg : ∀ r, f (g r) = f r) :
    UniqueOn f (t.modify id g hg).rows := by
  intro r hr r' hr' b hb hb'
  obtain ⟨r₀, hr₀, rfl⟩ := Table.mem_modify.mp hr
  obtain ⟨r₁, hr₁, rfl⟩ := Table.mem_modify.mp hr'
  have hsame : ∀ x : α, f (if key x = id then g x else x) = f x := by
    intro x
    by_cases hx : key x = id <;> simp [hx, hfg]
  rw [hsame] at hb hb'
  rw [h r₀ hr₀ r₁ hr₁ b hb hb']

/-- An update that gives a row a value no other row has keeps the index. -/
theorem modify_of_free (h : UniqueOn f t.rows)
    (hfree : ∀ r ∈ t.rows, ∀ r' ∈ t.rows, key r = id → key r' ≠ id →
      ∀ b, f (g r) = some b → f r' ≠ some b) :
    UniqueOn f (t.modify id g hg).rows := by
  intro r hr r' hr' b hb hb'
  obtain ⟨r₀, hr₀, rfl⟩ := Table.mem_modify.mp hr
  obtain ⟨r₁, hr₁, rfl⟩ := Table.mem_modify.mp hr'
  by_cases h0 : key r₀ = id <;> by_cases h1 : key r₁ = id
  · rw [t.eq_of_key hr₀ hr₁ (h0.trans h1.symm)]
  · rw [if_pos h0] at hb
    rw [if_neg h1] at hb'
    exact absurd hb' (hfree r₀ hr₀ r₁ hr₁ h0 h1 b hb)
  · rw [if_neg h0] at hb
    rw [if_pos h1] at hb'
    exact absurd hb (hfree r₁ hr₁ r₀ hr₀ h1 h0 b hb')
  · rw [if_neg h0] at hb ⊢
    rw [if_neg h1] at hb' ⊢
    exact h r₀ hr₀ r₁ hr₁ b hb hb'

/-- Inserting a row whose indexed value is free keeps the index. -/
theorem insert {mk : ℕ → α} {hk : ∀ n, key (mk n) = n} (h : UniqueOn f t.rows)
    (hfree : ∀ r ∈ t.rows, ∀ b, f (mk t.nextId) = some b → f r ≠ some b) :
    UniqueOn f (t.insert mk hk).rows := by
  intro r hr r' hr' b hb hb'
  rcases Table.mem_insert.mp hr with h0 | rfl <;> rcases Table.mem_insert.mp hr' with h1 | rfl
  · exact h r h0 r' h1 b hb hb'
  · exact absurd hb (hfree r h0 b hb')
  · exact absurd hb' (hfree r' h1 b hb)
  · rfl

/-- Deleting rows keeps the index. -/
theorem keep (h : UniqueOn f t.rows) (p : α → Bool) : UniqueOn f (t.keep p).rows :=
  fun r hr r' hr' => h r (List.mem_of_mem_filter hr) r' (List.mem_of_mem_filter hr')

/-- A lookup by an indexed value returns at most one row. -/
theorem filter_eq_singleton [DecidableEq β] (h : UniqueOn f t.rows) {r : α} {b : β}
    (hr : r ∈ t.rows) (hb : f r = some b) : t.rows.filter (fun r => f r = some b) = [r] := by
  have hall : ∀ r' ∈ t.rows.filter (fun r => f r = some b), r' = r := by
    intro r' hr'
    rw [List.mem_filter] at hr'
    exact h r' hr'.1 r hr b (by simpa using hr'.2) hb
  have hrep := List.eq_replicate_of_mem hall
  have hnodup : (t.rows.filter (fun r => f r = some b)).Nodup := t.nodup_rows.filter _
  have hmem : r ∈ t.rows.filter (fun r => f r = some b) := by simp [hr, hb]
  rw [hrep, List.nodup_replicate] at hnodup
  have hpos := List.length_pos_of_mem hmem
  rw [hrep, show (t.rows.filter (fun r => f r = some b)).length = 1 by omega]
  rfl

end UniqueOn

/-! ## Ordered queries -/

section

variable {α : Type*} {f : α → ℤ} {rows : List α}

/-- The row with the largest `f`, and of several such rows the first. -/
def latestBy (f : α → ℤ) (rows : List α) : Option α :=
  rows.foldl (List.argAux fun r r' => f r' < f r) none

theorem mem_of_latestBy {r : α} (h : latestBy f rows = some r) : r ∈ rows := by
  change rows.argmax f = some r at h
  exact List.argmax_mem h

@[simp] theorem latestBy_eq_none : latestBy f rows = none ↔ rows = [] := by
  change rows.argmax f = none ↔ rows = []
  exact List.argmax_eq_none

end

end Infra
