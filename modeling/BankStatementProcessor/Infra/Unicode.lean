import Mathlib.Data.List.Basic

/-!
# Character tables

What code that works on text takes from the tables of Unicode. On ASCII they are fixed; beyond
it every statement holds for whatever they say.
-/

namespace Infra

/-- An ASCII character. -/
def isAscii (c : Char) : Bool := c.toNat < 128

/-- The members of a list are checked one after the other. -/
theorem forall_mem_of_all {α : Type*} {p : α → Prop} [DecidablePred p] {l : List α}
    (h : (l.all fun a => decide (p a)) = true) : ∀ a ∈ l, p a := fun a ha =>
  of_decide_eq_true (List.all_eq_true.mp h a ha)

structure Unicode where
  toUppercase : List Char → List Char
  toLowercase : List Char → List Char
  isAlphabetic : Char → Bool
  /-- `\d`, a decimal digit. -/
  isDigit : Char → Bool
  /-- `\w`, a letter, a digit or an underscore. -/
  isWord : Char → Bool
  toUppercase_ascii : ∀ cs, cs.all isAscii = true → toUppercase cs = cs.map Char.toUpper
  toLowercase_ascii : ∀ cs, cs.all isAscii = true → toLowercase cs = cs.map Char.toLower
  isAlphabetic_ascii : ∀ c, isAscii c = true → isAlphabetic c = c.isAlpha
  isDigit_ascii : ∀ c, isAscii c = true → isDigit c = c.isDigit
  isWord_ascii : ∀ c, isAscii c = true → isWord c = (c.isAlphanum || c == '_')

/-- The tables of a world that knows no other characters. -/
def Unicode.ascii : Unicode where
  toUppercase cs := cs.map Char.toUpper
  toLowercase cs := cs.map Char.toLower
  isAlphabetic := Char.isAlpha
  isDigit := Char.isDigit
  isWord c := c.isAlphanum || c == '_'
  toUppercase_ascii _ _ := rfl
  toLowercase_ascii _ _ := rfl
  isAlphabetic_ascii _ _ := rfl
  isDigit_ascii _ _ := rfl
  isWord_ascii _ _ := rfl

/-- White space, `char::is_whitespace` and `\s`. -/
def isSpace (c : Char) : Bool :=
  let n := c.toNat
  (9 ≤ n && n ≤ 13) || (0x2000 ≤ n && n ≤ 0x200A) ||
    [0x20, 0x85, 0xA0, 0x1680, 0x2028, 0x2029, 0x202F, 0x205F, 0x3000].contains n

end Infra
