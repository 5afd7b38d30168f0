import BankStatementProcessor.Infra.Unicode

/-!
# ASCII letters

What holds of each ASCII character is checked on each. The tables of Unicode agree on such text.
-/

namespace Infra

section

variable {u : Unicode} {c : Char} {cs : List Char}

theorem forall_isAscii {p : Char → Prop} (h : ∀ n < 128, p (Char.ofNat n))
    (hc : isAscii c = true) : p c := by
  have hlt : c.toNat < 128 := of_decide_eq_true hc
  rw [← Char.ofNat_toNat c]
  exact h c.toNat hlt

theorem isAscii_toUpper (hc : isAscii c = true) : isAscii c.toUpper = true :=
  forall_isAscii (p := fun c => isAscii c.toUpper = true) (by decide +kernel) hc

theorem isAscii_toLower (hc : isAscii c = true) : isAscii c.toLower = true :=
  forall_isAscii (p := fun c => isAscii c.toLower = true) (by decide +kernel) hc

/-- Where the letters stand. -/
theorem toNat_of_isAlpha (hc : c.isAlpha = true) :
    65 ≤ c.toNat ∧ c.toNat ≤ 90 ∨ 97 ≤ c.toNat ∧ c.toNat ≤ 122 := by
  have hcase : c.isUpper = true ∨ c.isLower = true := Bool.or_eq_true_iff.mp hc
  rcases hcase with hupper | hlower
  · have hbounds := of_decide_eq_true hupper
    exact Or.inl ⟨UInt32.le_iff_toNat_le.mp hbounds.1, UInt32.le_iff_toNat_le.mp hbounds.2⟩
  · obtain ⟨hge, hle⟩ := Bool.and_eq_true_iff.mp hlower
    exact Or.inr ⟨UInt32.le_iff_toNat_le.mp (of_decide_eq_true hge),
      UInt32.le_iff_toNat_le.mp (of_decide_eq_true hle)⟩

theorem bounds_of_isDigit (hc : c.isDigit = true) : 48 ≤ c.toNat ∧ c.toNat ≤ 57 := by
  obtain ⟨hge, hle⟩ := Bool.and_eq_true_iff.mp hc
  exact ⟨UInt32.le_iff_toNat_le.mp (of_decide_eq_true hge),
    UInt32.le_iff_toNat_le.mp (of_decide_eq_true hle)⟩

theorem isAscii_of_isAlpha (hc : c.isAlpha = true) : isAscii c = true := by
  have hbounds := toNat_of_isAlpha hc
  exact decide_eq_true (by omega)

/-- A letter that is changed twice is what the second change makes it. -/
theorem toUpper_toLower_of_isAscii (hc : isAscii c = true) : c.toLower.toUpper = c.toUpper :=
  forall_isAscii (p := fun c => c.toLower.toUpper = c.toUpper) (by decide +kernel) hc

theorem toUpper_toUpper_of_isAscii (hc : isAscii c = true) : c.toUpper.toUpper = c.toUpper :=
  forall_isAscii (p := fun c => c.toUpper.toUpper = c.toUpper) (by decide +kernel) hc

/-- No other character is a letter to it. -/
theorem toUpper_of_not_isAscii (hc : isAscii c = false) : c.toUpper = c := by
  have hge : 128 ≤ c.toNat := Nat.le_of_not_lt (of_decide_eq_false hc)
  refine dif_neg fun hlower => ?_
  have hle : c.toNat ≤ 122 := UInt32.le_iff_toNat_le.mp hlower.2
  omega

/-- A character that is no letter is made of itself alone. -/
theorem toUpper_eq_iff {d : Char} (hd : d.isAlpha = false) : c.toUpper = d ↔ c = d := by
  cases hc : isAscii c with
  | false => rw [toUpper_of_not_isAscii hc]
  | true =>
    have hcase : if c.isAlpha then c.toUpper.isAlpha = true else c.toUpper = c :=
      forall_isAscii (p := fun c => if c.isAlpha then c.toUpper.isAlpha = true else c.toUpper = c)
        (by decide +kernel) hc
    split at hcase
    · next halpha =>
      constructor
      · rintro rfl
        rw [hcase] at hd
        cases hd
      · rintro rfl
        rw [halpha] at hd
        cases hd
    · rw [hcase]

theorem toUppercase_eq_map (u : Unicode) (h : ∀ c ∈ cs, isAscii c = true) :
    u.toUppercase cs = cs.map Char.toUpper :=
  u.toUppercase_ascii cs (List.all_eq_true.mpr h)

theorem toLowercase_eq_map (u : Unicode) (h : ∀ c ∈ cs, isAscii c = true) :
    u.toLowercase cs = cs.map Char.toLower :=
  u.toLowercase_ascii cs (List.all_eq_true.mpr h)

theorem isAscii_of_mem_map_toUpper (h : ∀ c ∈ cs, isAscii c = true) :
    ∀ c ∈ cs.map Char.toUpper, isAscii c = true := by
  intro c hc
  obtain ⟨d, hd, rfl⟩ := List.mem_map.mp hc
  exact isAscii_toUpper (h d hd)

theorem isAscii_of_mem_map_toLower (h : ∀ c ∈ cs, isAscii c = true) :
    ∀ c ∈ cs.map Char.toLower, isAscii c = true := by
  intro c hc
  obtain ⟨d, hd, rfl⟩ := List.mem_map.mp hc
  exact isAscii_toLower (h d hd)

end

end Infra
