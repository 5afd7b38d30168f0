import Mathlib.Data.Nat.Notation

/-!
# Addresses in text

`IpAddr::from_str` of the standard library. A parser keeps the input that is left; one that
fails has read nothing, so the next one starts where it started.
-/

namespace Infra

/-- Four octets. -/
structure Ipv4Addr where
  octets : Vector (Fin 256) 4
  deriving DecidableEq, Repr

/-- Eight groups of sixteen bits. -/
structure Ipv6Addr where
  segments : Vector (Fin 65536) 8
  deriving DecidableEq, Repr

inductive IpAddr
  | v4 (addr : Ipv4Addr)
  | v6 (addr : Ipv6Addr)
  deriving DecidableEq, Repr

namespace IpAddr

abbrev Parser := StateT (List Char) Option

def readChar : Parser Char
  | [] => none
  | c :: cs => some (c, cs)

def readGivenChar (target : Char) : Parser Unit := do
  if (← readChar) ≠ target then failure

/-- A separator stands before each part but the first. -/
def readSeparator {α : Type} (sep : Char) (index : ℕ) (inner : Parser α) : Parser α := do
  if 0 < index then readGivenChar sep
  inner

/-- `char::to_digit` -/
def toDigit (radix : ℕ) (c : Char) : Option ℕ :=
  let n := c.toNat
  let digit :=
    if 0x30 ≤ n ∧ n ≤ 0x39 then some (n - 0x30)
    else if 0x61 ≤ n ∧ n ≤ 0x7A then some (n - 0x61 + 10)
    else if 0x41 ≤ n ∧ n ≤ 0x5A then some (n - 0x41 + 10)
    else none
  digit.filter (· < radix)

/-- Reads digits as long as there are any; one too many fails. -/
def readDigits (radix maxDigits : ℕ) : ℕ → ℕ → Parser (ℕ × ℕ)
  | result, digitCount, [] => some ((result, digitCount), [])
  | result, digitCount, c :: cs =>
    match toDigit radix c with
    | none => some ((result, digitCount), c :: cs)
    | some digit =>
      if maxDigits < digitCount + 1 then none
      else readDigits radix maxDigits (result * radix + digit) (digitCount + 1) cs

/-- A number below `bound`. -/
def readNumber (bound radix maxDigits : ℕ) (allowZeroPrefix : Bool) : Parser (Fin bound) :=
  fun cs => do
    let hasLeadingZero := cs.head? = some '0'
    let ((result, digitCount), cs) ← readDigits radix maxDigits 0 0 cs
    if digitCount = 0 then none
    else if !allowZeroPrefix ∧ hasLeadingZero ∧ 1 < digitCount then none
    else if h : result < bound then some (⟨result, h⟩, cs)
    else none

def readIpv4Addr : Parser Ipv4Addr := do
  let octet := readNumber 256 10 3 false
  let a ← readSeparator '.' 0 octet
  let b ← readSeparator '.' 1 octet
  let c ← readSeparator '.' 2 octet
  let d ← readSeparator '.' 3 octet
  return { octets := #v[a, b, c, d] }

/-- `u16::from_be_bytes` -/
def ofBeBytes (high low : Fin 256) : Fin 65536 := ⟨high * 256 + low, by omega⟩

/-- At most `remaining` groups, from the one with this index on, and whether the last two are
an embedded IPv4 address. -/
def readGroups : ℕ → ℕ → List Char → (List (Fin 65536) × Bool) × List Char
  | 0, _, cs => (([], false), cs)
  | remaining + 1, index, cs =>
    match if 0 < remaining then readSeparator ':' index readIpv4Addr cs else none with
    | some (v4Addr, cs) =>
      (([ofBeBytes v4Addr.octets[0] v4Addr.octets[1],
         ofBeBytes v4Addr.octets[2] v4Addr.octets[3]], true), cs)
    | none =>
      match readSeparator ':' index (readNumber 65536 16 4 true) cs with
      | some (group, cs) =>
        let ((groups, ipv4), cs) := readGroups remaining (index + 1) cs
        ((group :: groups, ipv4), cs)
      | none => (([], false), cs)

def ofGroups (groups : List (Fin 65536)) : Ipv6Addr where
  segments := .ofFn fun i => groups.getD i 0

def readIpv6Addr : Parser Ipv6Addr := fun cs => do
  let ((head, headIpv4), cs) := readGroups 8 0 cs
  if head.length = 8 then some (ofGroups head, cs)
  -- the address is not allowed before `::`
  else if headIpv4 then none
  else
    let (_, cs) ← readGivenChar ':' cs
    let (_, cs) ← readGivenChar ':' cs
    -- `::` stands for at least one group
    let ((tail, _), cs) := readGroups (8 - (head.length + 1)) 0 cs
    let zeroes := List.replicate (8 - tail.length - head.length) 0
    some (ofGroups (head ++ zeroes ++ tail), cs)

def readIpAddr : Parser IpAddr := IpAddr.v4 <$> readIpv4Addr <|> IpAddr.v6 <$> readIpv6Addr

/-- `str::parse`: nothing may be left. -/
def parse (cs : List Char) : Option IpAddr := do
  let (ip, rest) ← readIpAddr cs
  if rest = [] then some ip else none

example : parse "203.0.113.7".toList = some (.v4 ⟨#v[203, 0, 113, 7]⟩) := by decide

example : parse "203.0.113.07".toList = none := by decide

example : parse "2001:db8::1".toList =
    some (.v6 ⟨#v[0x2001, 0xdb8, 0, 0, 0, 0, 0, 1]⟩) := by decide

example : parse "::ffff:1.2.3.4".toList =
    some (.v6 ⟨#v[0, 0, 0, 0, 0, 0xffff, 0x102, 0x304]⟩) := by decide

end IpAddr

end Infra
