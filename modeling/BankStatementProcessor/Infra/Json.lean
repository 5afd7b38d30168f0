import Mathlib.Data.List.Basic
import Mathlib.Data.Rat.Defs

/-!
# JSON values

The values of a JSON library that keeps integers apart from floating point numbers, and the
accessors that answer `none` on a value of another kind.
-/

namespace Infra

inductive JsonNumber
  | int (n : ℤ)
  | float (q : ℚ)

inductive JsonValue
  | null
  | bool (b : Bool)
  | number (n : JsonNumber)
  | string (s : String)
  | array (items : List JsonValue)
  | object (fields : List (String × JsonValue))

namespace JsonValue

/-- A field of an object; `none` on any other value. -/
def get : JsonValue → String → Option JsonValue
  | object fields, key => fields.lookup key
  | _, _ => none

def asStr : JsonValue → Option String
  | string s => some s
  | _ => none

/-- An integer that a signed 64-bit word holds. A floating point number is no integer. -/
def asI64 : JsonValue → Option ℤ
  | number (.int n) => if -9223372036854775808 ≤ n ∧ n ≤ 9223372036854775807 then some n else none
  | _ => none

end JsonValue

end Infra
