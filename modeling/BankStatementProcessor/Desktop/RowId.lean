import BankStatementProcessor.Desktop.Transaction
import Mathlib.Data.List.Basic

/-!
# Row ids

Every parser names a row after the place it found it: the line or grid row `i`, the number
`n` of rows it had found, or both. Only the opening balance row is named after what it says.
`render_injective` says that different places have different names.
-/

namespace Desktop

/-- The parsers that name a row by its number alone. -/
inductive NumberedParser where
  | ocr
  | iciciWealth
  | icici
  | idbi
  | idfcFirst
  | sbi
  | union
deriving DecidableEq, Repr

def NumberedParser.tag : NumberedParser → String
  | ocr => "ocr"
  | iciciWealth => "iciciwm"
  | icici => "icici"
  | idbi => "idbi"
  | idfcFirst => "idfcfirst"
  | sbi => "sbi"
  | union => "union"

/-- The place a row was found. Excel and CSV files share one extraction. -/
inductive RowId where
  | excel (i n : ℕ)
  | pdf (i n : ℕ)
  | fixedWidth (i n : ℕ)
  | numbered (parser : NumberedParser) (n : ℕ)
  | cosmos (i n : ℕ)
  | kotakNarrow (i n : ℕ)
  | openingBalance (hash : String)
deriving DecidableEq, Repr

/-- The id the parser gives the row. -/
def RowId.render : RowId → String
  | excel i n => s!"t_{i}_{n}"
  | pdf i n => s!"t_{i}_pdf_{n}"
  | fixedWidth i n => s!"t_fw_{i}_{n}"
  | numbered parser n => s!"t_{parser.tag}_{n}"
  | cosmos i n => s!"t_cosmos_{i}_{n}"
  | kotakNarrow i n => s!"t_kotak_narrow_{i}_{n}"
  | openingBalance hash => s!"opening_balance_{hash}"

/-! ## Splitting at a separator -/

theorem not_mem_of_mem_splitOn {α : Type*} [BEq α] [LawfulBEq α] {a : α} {xs : List α} :
    ∀ p ∈ xs.splitOn a, a ∉ p := by
  induction xs with
  | nil => simp [List.splitOn_nil]
  | cons x xs ih =>
    rw [List.splitOn_cons_eq_if_modifyHead]
    split
    · simpa using ih
    · next hx =>
      have hxa : a ≠ x := by
        rintro rfl
        simp at hx
      cases hs : xs.splitOn a with
      | nil => simp
      | cons q qs =>
        rw [hs] at ih
        simpa [hxa] using ih

theorem splitOn_inj {α : Type*} [BEq α] [LawfulBEq α] {a : α} {xs ys : List α} :
    xs.splitOn a = ys.splitOn a ↔ xs = ys := by
  constructor
  · intro h
    have hx : [a].intercalate (xs.splitOn a) = xs := List.intercalate_splitOn a
    rw [← hx, h, List.intercalate_splitOn]
  · rintro rfl
    rfl

/-! ## Reading an id back -/

/-- The parts of an id between the underscores. -/
def RowId.parts : RowId → List (List Char)
  | excel i n => [['t'], Nat.toDigits 10 i, Nat.toDigits 10 n]
  | pdf i n => [['t'], Nat.toDigits 10 i, ['p', 'd', 'f'], Nat.toDigits 10 n]
  | fixedWidth i n => [['t'], ['f', 'w'], Nat.toDigits 10 i, Nat.toDigits 10 n]
  | numbered parser n => [['t'], parser.tag.toList, Nat.toDigits 10 n]
  | cosmos i n => [['t'], ['c', 'o', 's', 'm', 'o', 's'], Nat.toDigits 10 i, Nat.toDigits 10 n]
  | kotakNarrow i n =>
    [['t'], ['k', 'o', 't', 'a', 'k'], ['n', 'a', 'r', 'r', 'o', 'w'], Nat.toDigits 10 i,
      Nat.toDigits 10 n]
  | openingBalance hash =>
    ['o', 'p', 'e', 'n', 'i', 'n', 'g'] :: ['b', 'a', 'l', 'a', 'n', 'c', 'e'] ::
      hash.toList.splitOn '_'

theorem RowId.toList_render (r : RowId) : r.render.toList = ['_'].intercalate r.parts := by
  cases r with
  | openingBalance hash =>
    have hhash : ['_'].intercalate (hash.toList.splitOn '_') = hash.toList :=
      List.intercalate_splitOn '_'
    have hne := List.splitOn_ne_nil '_' hash.toList
    -- `change`, since unfolding `render` means comparing all its cases
    change (s!"opening_balance_{hash}").toList = _
    simp [parts, List.intercalate_cons_of_ne_nil, hne, hhash, ToString.toString]
  | excel i n =>
    change (s!"t_{i}_{n}").toList = _
    simp [parts, List.intercalate, ToString.toString]
  | pdf i n =>
    change (s!"t_{i}_pdf_{n}").toList = _
    simp [parts, List.intercalate, ToString.toString]
  | fixedWidth i n =>
    change (s!"t_fw_{i}_{n}").toList = _
    simp [parts, List.intercalate, ToString.toString]
  | numbered parser n =>
    change (s!"t_{parser.tag}_{n}").toList = _
    simp [parts, List.intercalate, ToString.toString]
  | cosmos i n =>
    change (s!"t_cosmos_{i}_{n}").toList = _
    simp [parts, List.intercalate, ToString.toString]
  | kotakNarrow i n =>
    change (s!"t_kotak_narrow_{i}_{n}").toList = _
    simp [parts, List.intercalate, ToString.toString]

theorem NumberedParser.underscore_not_mem_tag (p : NumberedParser) : '_' ∉ p.tag.toList := by
  cases p <;> decide

theorem RowId.underscore_not_mem_parts (r : RowId) : ∀ p ∈ r.parts, '_' ∉ p := by
  cases r with
  | openingBalance hash =>
    have hhash : ∀ p ∈ hash.toList.splitOn '_', '_' ∉ p := not_mem_of_mem_splitOn
    simpa [parts] using hhash
  | _ => simp [parts, Nat.underscore_not_in_toDigits, NumberedParser.underscore_not_mem_tag]

theorem toDigits_inj {i j : ℕ} : Nat.toDigits 10 i = Nat.toDigits 10 j ↔ i = j := by
  constructor
  · intro h
    have := congrArg (fun ds => Nat.ofDigitChars 10 ds 0) h
    simpa using this
  · rintro rfl
    rfl

/-- A number does not read as a word. -/
theorem toDigits_ne_word {i : ℕ} {c : Char} {cs : List Char} (hc : c.isDigit = false) :
    Nat.toDigits 10 i ≠ c :: cs := by
  intro h
  have hdigit := Nat.isDigit_of_mem_toDigits (b := 10) (n := i) (c := c) (by decide) (by decide)
    (by rw [h]; exact List.mem_cons_self)
  rw [hc] at hdigit
  exact absurd hdigit (by decide)

theorem NumberedParser.tag_inj {p p' : NumberedParser} : p.tag = p'.tag ↔ p = p' := by
  cases p <;> cases p' <;> decide

/-- No number reads as the tag of a parser. -/
theorem NumberedParser.toDigits_ne_tag {i : ℕ} {p : NumberedParser} :
    Nat.toDigits 10 i ≠ p.tag.toList := by
  cases p <;> exact toDigits_ne_word (by decide)

theorem RowId.parts_injective {r r' : RowId} (h : r.parts = r'.parts) : r = r' := by
  cases r <;> cases r' <;>
    simp_all [parts, toDigits_inj, toDigits_ne_word, NumberedParser.toDigits_ne_tag,
      NumberedParser.toDigits_ne_tag.symm, NumberedParser.tag_inj, splitOn_inj, String.toList_inj]

/-- **Rows found in different places have different ids.** -/
theorem RowId.render_injective {r r' : RowId} (h : r.render = r'.render) : r = r' := by
  have hparts : ∀ s : RowId, s.render.toList.splitOn '_' = s.parts := by
    intro s
    rw [s.toList_render]
    refine List.splitOn_intercalate '_' s.underscore_not_mem_parts ?_
    cases s <;> simp [parts]
  exact parts_injective (by rw [← hparts r, ← hparts r', h])

end Desktop
