import BankStatementProcessor.LicenseServer.RateLimit

/-!
# Who a login is counted against

`resolveClientIp_unforgeable` — an untrusted peer is counted itself, and behind a trusted one
it is the rightmost address that is no trusted proxy's. What a client writes in front of the
header changes nothing.
-/

namespace LicenseServer

open Infra

/-- The search from the right finds the rightmost element. -/
theorem find?_reverse_eq_some_iff {α : Type} {p : α → Bool} {xs : List α} {a : α} :
    xs.reverse.find? p = some a ↔
      p a ∧ ∃ left right, xs = left ++ a :: right ∧ ∀ b ∈ right, p b = false := by
  rw [List.find?_eq_some_iff_append]
  refine and_congr_right fun _ => ?_
  constructor
  · rintro ⟨as, bs, heq, has⟩
    refine ⟨bs.reverse, as.reverse, ?_, ?_⟩
    · rw [← List.reverse_reverse xs, heq]
      simp
    · simpa using has
  · rintro ⟨left, right, rfl, hright⟩
    exact ⟨right.reverse, left.reverse, by simp, by simpa using hright⟩

section

variable {IpNet : Type} (contains : IpNet → IpAddr → Bool) (trustedProxies : List IpNet)

/-- The entry is an address that is no trusted proxy's. -/
def IsClient (entry : List Char) (ip : IpAddr) : Prop :=
  parseEntry entry = some ip ∧ ¬ isTrustedProxy contains trustedProxies ip

/-- The rightmost entry that is a client. -/
def RightmostClient (header : String) (ip : IpAddr) : Prop :=
  ∃ left entry right, forwardedEntries header = left ++ entry :: right ∧
    IsClient contains trustedProxies entry ip ∧
      ∀ other ∈ right, ∀ ip', ¬ IsClient contains trustedProxies other ip'

variable {contains trustedProxies} {peerIp ip : IpAddr} {header : String}

theorem exists_isClient_iff {entry : List Char} :
    (∃ ip, IsClient contains trustedProxies entry ip) ↔
      (parseEntry entry).any (!isTrustedProxy contains trustedProxies ·) = true := by
  simp [IsClient, Option.any_eq_true]

theorem resolveClientIp_of_not_trusted (h : ¬ isTrustedProxy contains trustedProxies peerIp)
    (forwardedFor : Option String) :
    resolveClientIp contains trustedProxies peerIp forwardedFor = peerIp := by
  unfold resolveClientIp
  rw [if_pos (by simpa using h)]

/-- The search of the code. -/
theorem find?_eq_some_iff_rightmostClient :
    ((forwardedEntries header).reverse.filterMap parseEntry).find?
        (!isTrustedProxy contains trustedProxies ·) = some ip ↔
      RightmostClient contains trustedProxies header ip := by
  rw [List.find?_filterMap, Option.bind_eq_some_iff]
  simp only [find?_reverse_eq_some_iff, ← exists_isClient_iff, Bool.eq_false_iff, ne_eq,
    not_exists]
  constructor
  · rintro ⟨entry, ⟨⟨ip', hclient⟩, left, right, hsplit, hright⟩, hparse⟩
    obtain rfl := Option.some.inj (hclient.1.symm.trans hparse)
    exact ⟨left, entry, right, hsplit, hclient, hright⟩
  · rintro ⟨left, entry, right, hsplit, hclient, hright⟩
    exact ⟨entry, ⟨⟨ip, hclient⟩, left, right, hsplit, hright⟩, hclient.1⟩

/-- Where there is a client there is a rightmost one. -/
theorem exists_rightmostClient {entry : List Char} (hentry : entry ∈ forwardedEntries header)
    (h : IsClient contains trustedProxies entry ip) :
    ∃ ip, RightmostClient contains trustedProxies header ip := by
  simp only [← find?_eq_some_iff_rightmostClient, ← Option.isSome_iff_exists, List.find?_isSome,
    List.mem_filterMap, List.mem_reverse]
  exact ⟨ip, ⟨entry, hentry, h.1⟩, by simpa using h.2⟩

theorem resolveClientIp_of_rightmostClient (h : RightmostClient contains trustedProxies header ip)
    (hpeer : isTrustedProxy contains trustedProxies peerIp) :
    resolveClientIp contains trustedProxies peerIp (some header) = ip := by
  unfold resolveClientIp
  rw [if_neg (by simpa using hpeer)]
  dsimp only
  rw [find?_eq_some_iff_rightmostClient.mpr h, Option.getD_some]

theorem resolveClientIp_of_no_client
    (h : ∀ entry ∈ forwardedEntries header, ∀ ip, ¬ IsClient contains trustedProxies entry ip) :
    resolveClientIp contains trustedProxies peerIp (some header) = peerIp := by
  unfold resolveClientIp
  split
  · rfl
  · dsimp only
    cases hfind : ((forwardedEntries header).reverse.filterMap parseEntry).find?
      (!isTrustedProxy contains trustedProxies ·) with
    | none => rfl
    | some ip =>
      obtain ⟨left, entry, right, hsplit, hclient, -⟩ :=
        find?_eq_some_iff_rightmostClient.mp hfind
      exact absurd hclient (h entry (by simp [hsplit]) ip)

/-- The entries of a header with text in front of it. -/
theorem forwardedEntries_append (text : String) :
    forwardedEntries (text ++ "," ++ header) = forwardedEntries text ++ forwardedEntries header := by
  unfold forwardedEntries
  simp only [String.toList_append]
  rw [List.append_assoc]
  exact List.splitOn_append_cons_self _ _

/-- Nothing on the left of the rightmost client matters. -/
theorem RightmostClient.append (h : RightmostClient contains trustedProxies header ip)
    (text : String) : RightmostClient contains trustedProxies (text ++ "," ++ header) ip := by
  obtain ⟨left, entry, right, hsplit, hclient, hright⟩ := h
  refine ⟨forwardedEntries text ++ left, entry, right, ?_, hclient, hright⟩
  rw [forwardedEntries_append, hsplit, List.append_assoc]

end

/--
**The client that is counted cannot be forged.** An untrusted peer is counted itself, whatever
it sends; behind a trusted one the rightmost client is, or the peer if there is none. So where
the header has a client, text in front of it has no influence.
-/
theorem resolveClientIp_unforgeable {IpNet : Type} (contains : IpNet → IpAddr → Bool)
    (trustedProxies : List IpNet) (peerIp : IpAddr) :
    (¬ isTrustedProxy contains trustedProxies peerIp →
      ∀ forwardedFor, resolveClientIp contains trustedProxies peerIp forwardedFor = peerIp) ∧
    (isTrustedProxy contains trustedProxies peerIp →
      (∀ header ip, RightmostClient contains trustedProxies header ip →
        resolveClientIp contains trustedProxies peerIp (some header) = ip) ∧
      ∀ forwardedFor : Option String,
        (∀ header ∈ forwardedFor, ∀ entry ∈ forwardedEntries header, ∀ ip,
          ¬ IsClient contains trustedProxies entry ip) →
            resolveClientIp contains trustedProxies peerIp forwardedFor = peerIp) ∧
    ∀ header, (∃ entry ∈ forwardedEntries header, ∃ ip, IsClient contains trustedProxies entry ip) →
      ∀ text, resolveClientIp contains trustedProxies peerIp (some (text ++ "," ++ header)) =
        resolveClientIp contains trustedProxies peerIp (some header) := by
  refine ⟨resolveClientIp_of_not_trusted, fun hpeer => ⟨fun header ip h => ?_, ?_⟩, ?_⟩
  · exact resolveClientIp_of_rightmostClient h hpeer
  · intro forwardedFor h
    cases forwardedFor with
    | none => simp [resolveClientIp]
    | some header => exact resolveClientIp_of_no_client (h header rfl)
  · rintro header ⟨entry, hentry, ip, hclient⟩ text
    by_cases hpeer : isTrustedProxy contains trustedProxies peerIp
    · obtain ⟨ip', hright⟩ := exists_rightmostClient hentry hclient
      rw [resolveClientIp_of_rightmostClient hright hpeer,
        resolveClientIp_of_rightmostClient (hright.append text) hpeer]
    · rw [resolveClientIp_of_not_trusted hpeer, resolveClientIp_of_not_trusted hpeer]

end LicenseServer
