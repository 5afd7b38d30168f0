import BankStatementProcessor.Infra.Ascii

/-!
# Hexadecimal text

A byte is written as two lower-case digits. What reads them takes both cases, and a plus for a
leading zero, since each pair is read as a number that may have a sign. `decode_eq_some` says which
texts stand for which bytes.
-/

namespace Infra.Hex

/-! ## Digits -/

/-- `char::to_digit(16)` -/
def toDigit (c : Char) : Option ℕ :=
  if '0' ≤ c ∧ c ≤ '9' then some (c.toNat - 48)
  else if 'a' ≤ c ∧ c ≤ 'f' then some (c.toNat - 87)
  else if 'A' ≤ c ∧ c ≤ 'F' then some (c.toNat - 55)
  else none

theorem toLower_of_not_isAscii {c : Char} (hc : isAscii c = false) : c.toLower = c := by
  have hge : 128 ≤ c.toNat := Nat.le_of_not_lt (of_decide_eq_false hc)
  refine dif_neg fun hupper => ?_
  have hle : c.toNat ≤ 90 := UInt32.le_iff_toNat_le.mp hupper.2
  omega

theorem isAscii_digitChar {n : ℕ} (h : n < 16) : isAscii n.digitChar = true := by
  have hall : ∀ m < 16, isAscii m.digitChar = true := by decide
  exact hall n h

theorem toDigit_lt {c : Char} {n : ℕ} (h : toDigit c = some n) : n < 16 := by
  unfold toDigit at h
  split at h
  · next hdigit =>
    have hle : c.toNat ≤ 57 := UInt32.le_iff_toNat_le.mp hdigit.2
    cases h
    omega
  · split at h
    · next hlower =>
      have hle : c.toNat ≤ 102 := UInt32.le_iff_toNat_le.mp hlower.2
      cases h
      omega
    · split at h
      · next hupper =>
        have hle : c.toNat ≤ 70 := UInt32.le_iff_toNat_le.mp hupper.2
        cases h
        omega
      · cases h

/-- A character is a digit in either case. -/
theorem toDigit_eq_some {c : Char} {n : ℕ} (h : n < 16) :
    toDigit c = some n ↔ c.toLower = n.digitChar := by
  cases hc : isAscii c with
  | true =>
    have hall := forall_isAscii
      (p := fun c => ∀ m < 16, toDigit c = some m ↔ c.toLower = m.digitChar) (by decide +kernel) hc
    exact hall n h
  | false =>
    have hge : 128 ≤ c.toNat := Nat.le_of_not_lt (of_decide_eq_false hc)
    constructor
    · intro hdigit
      unfold toDigit at hdigit
      split at hdigit
      · next hnum =>
        have hle : c.toNat ≤ 57 := UInt32.le_iff_toNat_le.mp hnum.2
        omega
      · split at hdigit
        · next hlower =>
          have hle : c.toNat ≤ 102 := UInt32.le_iff_toNat_le.mp hlower.2
          omega
        · split at hdigit
          · next hupper =>
            have hle : c.toNat ≤ 70 := UInt32.le_iff_toNat_le.mp hupper.2
            omega
          · cases hdigit
    · intro hlower
      rw [toLower_of_not_isAscii hc] at hlower
      rw [hlower, isAscii_digitChar h] at hc
      cases hc

/-! ## Bytes -/

/-- `{:02x}` -/
def pair (b : UInt8) : List Char := [Nat.digitChar (b.toNat / 16), Nat.digitChar (b.toNat % 16)]

def encode (bytes : List UInt8) : List Char := bytes.flatMap pair

/-- `u8::from_str_radix(.., 16)` of two characters. -/
def fromPair (c d : Char) : Option UInt8 :=
  if c = '+' then (toDigit d).map UInt8.ofNat
  else (toDigit c).bind fun high => (toDigit d).map fun low => UInt8.ofNat (16 * high + low)

def decode : List Char → Option (List UInt8)
  | [] => some []
  | [_] => none
  | c :: d :: rest => (fromPair c d).bind fun b => (decode rest).map (b :: ·)

/-- Two characters spell a byte. -/
def Spells (c d : Char) (b : UInt8) : Prop :=
  d.toLower = Nat.digitChar (b.toNat % 16) ∧
    (c.toLower = Nat.digitChar (b.toNat / 16) ∨ c = '+' ∧ b.toNat < 16)

theorem toNat_ofNat {n : ℕ} (h : n < 256) : (UInt8.ofNat n).toNat = n :=
  UInt8.toNat_ofNat_of_lt (show n < UInt8.size from h)

theorem fromPair_eq_some {c d : Char} {b : UInt8} : fromPair c d = some b ↔ Spells c d b := by
  have hb : b.toNat < 256 := b.toNat_lt
  have hlow : b.toNat % 16 < 16 := Nat.mod_lt _ (by decide)
  have hhigh : b.toNat / 16 < 16 := by omega
  have hplus : ∀ n < 16, '+'.toLower ≠ n.digitChar := by decide
  unfold fromPair Spells
  split
  · next hc =>
    subst hc
    rw [Option.map_eq_some_iff]
    constructor
    · rintro ⟨low, hd, rfl⟩
      have hlt := toDigit_lt hd
      have hvalue : (UInt8.ofNat low).toNat = low := toNat_ofNat (by omega)
      rw [hvalue, Nat.mod_eq_of_lt hlt]
      exact ⟨(toDigit_eq_some hlt).mp hd, Or.inr ⟨rfl, hlt⟩⟩
    · rintro ⟨hd, hc | ⟨-, hsmall⟩⟩
      · exact absurd hc (hplus _ hhigh)
      · refine ⟨b.toNat % 16, (toDigit_eq_some hlow).mpr hd, ?_⟩
        rw [Nat.mod_eq_of_lt hsmall, UInt8.ofNat_toNat]
  · next hc =>
    simp only [Option.bind_eq_some_iff, Option.map_eq_some_iff]
    constructor
    · rintro ⟨high, hcdigit, low, hd, rfl⟩
      have hcl := toDigit_lt hcdigit
      have hdl := toDigit_lt hd
      have hvalue : (UInt8.ofNat (16 * high + low)).toNat = 16 * high + low :=
        toNat_ofNat (by omega)
      have hdiv : (16 * high + low) / 16 = high := by omega
      have hmod : (16 * high + low) % 16 = low := by omega
      rw [hvalue, hdiv, hmod]
      exact ⟨(toDigit_eq_some hdl).mp hd, Or.inl ((toDigit_eq_some hcl).mp hcdigit)⟩
    · rintro ⟨hd, hch | ⟨hplus, -⟩⟩
      · refine ⟨b.toNat / 16, (toDigit_eq_some hhigh).mpr hch, b.toNat % 16,
          (toDigit_eq_some hlow).mpr hd, ?_⟩
        rw [Nat.div_add_mod, UInt8.ofNat_toNat]
      · exact absurd hplus hc

/-- A text spells bytes, two characters each. -/
inductive IsHexOf : List Char → List UInt8 → Prop
  | nil : IsHexOf [] []
  | cons {c d : Char} {b : UInt8} {s : List Char} {bytes : List UInt8} :
    Spells c d b → IsHexOf s bytes → IsHexOf (c :: d :: s) (b :: bytes)

theorem decode_eq_some {s : List Char} {bytes : List UInt8} :
    decode s = some bytes ↔ IsHexOf s bytes := by
  constructor
  · intro h
    induction s using decode.induct generalizing bytes with
    | case1 =>
      cases h
      exact .nil
    | case2 c => cases h
    | case3 c d rest ih =>
      obtain ⟨b, hb, hrest⟩ := Option.bind_eq_some_iff.mp h
      obtain ⟨bytes', hbytes, rfl⟩ := Option.map_eq_some_iff.mp hrest
      exact .cons (fromPair_eq_some.mp hb) (ih hbytes)
  · intro h
    induction h with
    | nil => rfl
    | cons hspells _ ih =>
      rw [decode, fromPair_eq_some.mpr hspells, Option.bind_some, ih, Option.map_some]

theorem spells_pair (b : UInt8) :
    Spells (Nat.digitChar (b.toNat / 16)) (Nat.digitChar (b.toNat % 16)) b := by
  have hb : b.toNat < 256 := b.toNat_lt
  have hlower : ∀ n < 16, (Nat.digitChar n).toLower = Nat.digitChar n := by decide
  exact ⟨hlower _ (Nat.mod_lt _ (by decide)), Or.inl (hlower _ (by omega))⟩

theorem isHexOf_encode (bytes : List UInt8) : IsHexOf (encode bytes) bytes := by
  induction bytes with
  | nil => exact .nil
  | cons b bytes ih => exact .cons (spells_pair b) ih

theorem decode_encode (bytes : List UInt8) : decode (encode bytes) = some bytes :=
  decode_eq_some.mpr (isHexOf_encode bytes)

theorem encode_injective : Function.Injective encode := fun x y h =>
  Option.some.inj ((decode_encode x).symm.trans ((congrArg decode h).trans (decode_encode y)))

theorem length_encode (bytes : List UInt8) : (encode bytes).length = 2 * bytes.length := by
  induction bytes with
  | nil => rfl
  | cons b bytes ih =>
    rw [encode, List.flatMap_cons, List.length_append, List.length_cons, ← encode, ih, pair]
    simp only [List.length_cons, List.length_nil]
    omega

end Infra.Hex
