import BankStatementProcessor.Infra.IpAddr

/-!
# The client of a login

Which address the login limiter counts against. The networks of the operator come from a
library: all that is used of one is which addresses it contains.
-/

namespace LicenseServer

open Infra

/-! ## The string functions it uses -/

/-- `char::is_whitespace`. -/
def isWhitespace (c : Char) : Bool :=
  let n := c.toNat
  (9 ≤ n && n ≤ 13) || (0x2000 ≤ n && n ≤ 0x200A) ||
    [0x20, 0x85, 0xA0, 0x1680, 0x2028, 0x2029, 0x202F, 0x205F, 0x3000].contains n

/-- `str::trim`. -/
def trim (cs : List Char) : List Char :=
  ((cs.dropWhile isWhitespace).reverse.dropWhile isWhitespace).reverse

/-- `header.split(',')` -/
def forwardedEntries (header : String) : List (List Char) := header.toList.splitOn ','

/-- `entry.trim().parse::<IpAddr>()` -/
def parseEntry (entry : List Char) : Option IpAddr := IpAddr.parse (trim entry)

/-! ## `resolve_client_ip` -/

section

variable {IpNet : Type} (contains : IpNet → IpAddr → Bool) (trustedProxies : List IpNet)

def isTrustedProxy (ip : IpAddr) : Bool := trustedProxies.any (contains · ip)

def resolveClientIp (peerIp : IpAddr) (forwardedFor : Option String) : IpAddr :=
  if !isTrustedProxy contains trustedProxies peerIp then peerIp
  else
    match forwardedFor with
    | none => peerIp
    | some header =>
      (((forwardedEntries header).reverse.filterMap parseEntry).find?
        (!isTrustedProxy contains trustedProxies ·)).getD peerIp

end

/-- One trusted proxy, in front of a client that has sent a header of its own. -/
example : resolveClientIp (· == ·) [.v4 ⟨#v[127, 0, 0, 1]⟩] (.v4 ⟨#v[127, 0, 0, 1]⟩)
    (some "9.9.9.9, 203.0.113.7, garbage") = .v4 ⟨#v[203, 0, 113, 7]⟩ := by decide

end LicenseServer
