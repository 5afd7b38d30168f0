import BankStatementProcessor.Infra.Utf8Bytes

/-!
# Safe byte offsets

`text_safety`: a byte offset is moved down to where a character begins, and ASCII text is searched
for in the bytes of a text.
-/

namespace Desktop

open Infra

/-- The loop of `floor_char_boundary`, from `idx` down. -/
def floorFrom (s : List Char) : ℕ → ℕ
  | 0 => 0
  | idx + 1 => if isCharBoundary s (idx + 1) then idx + 1 else floorFrom s idx

def floorCharBoundary (s : List Char) (idx : ℕ) : ℕ := floorFrom s (min idx (utf8Len s))

/-- Without a result the slice panics. -/
def safePrefix (s : List Char) (maxBytes : ℕ) : Option (List Char) :=
  slice s 0 (floorCharBoundary s maxBytes)

def findAsciiCi (s pat : List Char) : Option ℕ :=
  let sb := asBytes s
  let pb := asBytes pat
  if pb.isEmpty || decide (sb.length < pb.length) then none
  else
    (List.range (sb.length - pb.length + 1)).find? fun i =>
      isCharBoundary s i && eqIgnoreAsciiCase ((sb.drop i).take pb.length) pb

end Desktop
