import BankStatementProcessor.Desktop.PartyMaster
import BankStatementProcessor.Infra.Matching

/-!
# Partial names

A name that is taken for a part of a longer one is one: each of its tokens begins a token of the
longer name of its own. A name that is such a part is taken for one where none of its tokens
begins a later one.
-/

namespace Desktop

open Infra

section

variable {u : Unicode} {short long : List Char} {sts lts : List (List Char)}

/-- A token that is long enough to be trusted begins a token of the longer name. -/
def Begins (st lt : List Char) : Prop := minPartialPrefixLen ≤ st.length ∧ st <+: lt

/-- The test for it. -/
def beginsToken (st lt : List Char) : Bool :=
  minPartialPrefixLen ≤ st.length && st.isPrefixOf lt

theorem beginsToken_iff {st lt : List Char} : beginsToken st lt = true ↔ Begins st lt := by
  rw [beginsToken, Begins, Bool.and_eq_true, decide_eq_true_eq, List.isPrefixOf_iff_prefix]

/-- `short` is a truncated form of `long`. -/
def IsTruncatedName (u : Unicode) (short long : List Char) : Prop :=
  (nameTokens u short).length < (nameTokens u long).length ∧
    Assigns Begins (nameTokens u short) (nameTokens u long)

/-- No token begins a later, longer one. -/
def NoTokenExtended (sts : List (List Char)) : Prop :=
  sts.Pairwise fun st st' => st <+: st' → st = st'

theorem takePrefixes_eq (sts lts : List (List Char)) :
    takePrefixes sts lts = firstFit beginsToken sts lts := by
  induction sts generalizing lts with
  | nil => rfl
  | cons st sts ih =>
    rw [takePrefixes, firstFit]
    by_cases hlen : st.length < minPartialPrefixLen
    · have hnone : lts.findIdx? (beginsToken st) = none := by
        rw [List.findIdx?_eq_none_iff]
        intro lt _
        simp [beginsToken, hlen]
      rw [if_pos hlen, hnone]
    · have hlong : beginsToken st = (st.isPrefixOf ·) := by
        funext lt
        simp [beginsToken, Nat.not_lt.mp hlen]
      rw [if_neg hlen, hlong]
      split <;> simp [ih, *]

theorem assigns_begins_iff :
    Assigns (fun st lt => beginsToken st lt = true) sts lts ↔ Assigns Begins sts lts := by
  simp only [beginsToken_iff]

/-- A later token that may take what an earlier one may, is the shorter of the two. -/
theorem begins_nested (h : NoTokenExtended sts) :
    sts.Pairwise fun st st' => ∀ lt lt', beginsToken st lt → beginsToken st' lt →
      beginsToken st lt' → beginsToken st' lt' := by
  refine List.Pairwise.imp (fun {st st'} hext lt lt' hst hst' htake => ?_) h
  rw [beginsToken_iff] at hst hst' htake ⊢
  refine ⟨hst'.1, ?_⟩
  rcases List.prefix_or_prefix_of_prefix hst.2 hst'.2 with hprefix | hprefix
  · exact hext hprefix ▸ htake.2
  · exact hprefix.trans htake.2

/-- What is taken for a partial name has a token and is a truncated form. A truncated form with a
token is taken for one, if none of its tokens begins a later, longer one. -/
theorem isPartialNameOf_spec (u : Unicode) (short long : List Char) :
    (isPartialNameOf u short long = true →
      nameTokens u short ≠ [] ∧ IsTruncatedName u short long) ∧
    (NoTokenExtended (nameTokens u short) → nameTokens u short ≠ [] →
      IsTruncatedName u short long → isPartialNameOf u short long = true) := by
  unfold isPartialNameOf IsTruncatedName
  dsimp only
  rw [takePrefixes_eq, ← assigns_begins_iff]
  constructor
  · intro h
    split at h
    · cases h
    · next hguard =>
      simp only [Bool.or_eq_true, List.isEmpty_iff, decide_eq_true_eq, not_or] at hguard
      exact ⟨hguard.1, Nat.lt_of_not_le hguard.2, assigns_of_firstFit h⟩
  · rintro hext hne ⟨hlen, hassigns⟩
    have hguard : ¬((nameTokens u short).isEmpty ||
        decide ((nameTokens u long).length ≤ (nameTokens u short).length)) = true := by
      simp only [Bool.or_eq_true, List.isEmpty_iff, decide_eq_true_eq, not_or]
      exact ⟨hne, Nat.not_le_of_lt hlen⟩
    rw [if_neg hguard]
    exact firstFit_of_assigns (begins_nested hext) hassigns

/-- A name without tokens is no part of a name, and a first fit can miss one. -/
theorem partial_name_is_missed :
    (IsTruncatedName .ascii [] "Rao".toList ∧ isPartialNameOf .ascii [] "Rao".toList = false) ∧
      IsTruncatedName .ascii "Abcd Abcde".toList "Abcdefg Abcdxy Rao".toList ∧
        isPartialNameOf .ascii "Abcd Abcde".toList "Abcdefg Abcdxy Rao".toList = false := by
  refine ⟨⟨⟨by decide +kernel, ?_⟩, by decide +kernel⟩, ⟨by decide +kernel, ?_⟩, by decide +kernel⟩
  · exact assigns_nil _ _
  · have htokens : nameTokens .ascii "Abcd Abcde".toList = ["ABCD".toList, "ABCDE".toList] := by
      decide +kernel
    have hlong : nameTokens .ascii "Abcdefg Abcdxy Rao".toList =
        ["ABCDEFG".toList, "ABCDXY".toList, "RAO".toList] := by decide +kernel
    rw [htokens, hlong, assigns_cons_iff]
    refine ⟨1, by decide, beginsToken_iff.mp (by decide +kernel), ?_⟩
    rw [assigns_cons_iff]
    exact ⟨0, by decide, beginsToken_iff.mp (by decide +kernel), assigns_nil _ _⟩

end

end Desktop
