import BankStatementProcessor.Infra.Ascii
import BankStatementProcessor.Infra.Utf8

/-!
# The bytes of a text

ASCII characters are one byte each, and no byte of another character is one of theirs. So ASCII
text is found in the bytes where it is found in the characters.
-/

namespace Infra

/-- `str::as_bytes` -/
def asBytes (cs : List Char) : List UInt8 := cs.flatMap String.utf8EncodeChar

/-- `u8::to_ascii_lowercase` -/
def toAsciiLowercase (b : UInt8) : UInt8 := if 65 ≤ b ∧ b ≤ 90 then b + 32 else b

/-- `<[u8]>::eq_ignore_ascii_case` -/
def eqIgnoreAsciiCase (x y : List UInt8) : Bool :=
  x.map toAsciiLowercase == y.map toAsciiLowercase

/-- Where the text starts with `pat`, in any case of the ASCII letters. -/
def StartsWithIgnoringCase (pat cs : List Char) : Prop :=
  ∃ w rest, cs = w ++ rest ∧ w.map Char.toLower = pat.map Char.toLower

section

variable {c d : Char} {cs pat : List Char}

theorem asBytes_cons (c : Char) (cs : List Char) :
    asBytes (c :: cs) = String.utf8EncodeChar c ++ asBytes cs := List.flatMap_cons

theorem asBytes_append (a b : List Char) : asBytes (a ++ b) = asBytes a ++ asBytes b :=
  List.flatMap_append

theorem length_asBytes (cs : List Char) : (asBytes cs).length = utf8Len cs := by
  induction cs with
  | nil => rfl
  | cons c cs ih => rw [asBytes_cons, List.length_append, String.length_utf8EncodeChar, ih, utf8Len]

/-- What stands in the bytes from a character on. -/
theorem drop_asBytes (a b : List Char) : (asBytes (a ++ b)).drop (utf8Len a) = asBytes b := by
  rw [asBytes_append, ← length_asBytes, List.drop_left]

/-! ## ASCII bytes -/

theorem utf8EncodeChar_of_isAscii (h : isAscii c = true) :
    String.utf8EncodeChar c = [UInt8.ofNat c.toNat] := by
  have hlt : c.val.toNat < 128 := of_decide_eq_true h
  exact if_pos (by omega)

theorem utf8Size_of_isAscii (h : isAscii c = true) : c.utf8Size = 1 := by
  rw [← String.length_utf8EncodeChar, utf8EncodeChar_of_isAscii h, List.length_singleton]

theorem length_asBytes_of_isAscii (h : ∀ c ∈ cs, isAscii c = true) :
    (asBytes cs).length = cs.length := by
  rw [length_asBytes, utf8Len_eq_length fun c hc => utf8Size_of_isAscii (h c hc)]

/-- The first byte of another character. -/
theorem utf8EncodeChar_of_not_isAscii (h : isAscii c = false) :
    ∃ b rest, String.utf8EncodeChar c = b :: rest ∧ 128 ≤ b.toNat := by
  have hge : 128 ≤ c.val.toNat := Nat.le_of_not_lt (of_decide_eq_false h)
  unfold String.utf8EncodeChar
  simp only
  rw [if_neg (by omega)]
  split
  · refine ⟨_, _, rfl, ?_⟩
    rw [UInt8.toNat_ofNat']
    omega
  · split
    · refine ⟨_, _, rfl, ?_⟩
      rw [UInt8.toNat_ofNat']
      omega
    · refine ⟨_, _, rfl, ?_⟩
      rw [UInt8.toNat_ofNat']
      omega

theorem toAsciiLowercase_of_isAscii (h : isAscii c = true) :
    toAsciiLowercase (UInt8.ofNat c.toNat) = UInt8.ofNat c.toLower.toNat :=
  forall_isAscii
    (p := fun c => toAsciiLowercase (UInt8.ofNat c.toNat) = UInt8.ofNat c.toLower.toNat)
    (by decide +kernel) h

theorem toAsciiLowercase_of_le {b : UInt8} (h : 128 ≤ b.toNat) : toAsciiLowercase b = b := by
  refine if_neg fun hletter => ?_
  have hle : b.toNat ≤ 90 := UInt8.le_iff_toNat_le.mp hletter.2
  omega

theorem toNat_ofNat_of_isAscii (h : isAscii c = true) : (UInt8.ofNat c.toNat).toNat = c.toNat := by
  have hlt : c.toNat < 128 := of_decide_eq_true h
  rw [UInt8.toNat_ofNat', Nat.mod_eq_of_lt (by omega)]

theorem ofNat_toNat_inj (hc : isAscii c = true) (hd : isAscii d = true) :
    UInt8.ofNat c.toNat = UInt8.ofNat d.toNat ↔ c = d := by
  constructor
  · intro h
    have hnat := congrArg UInt8.toNat h
    rw [toNat_ofNat_of_isAscii hc, toNat_ofNat_of_isAscii hd] at hnat
    rw [← Char.ofNat_toNat c, hnat, Char.ofNat_toNat]
  · rintro rfl
    rfl

theorem toLower_of_not_isAscii (h : isAscii c = false) : c.toLower = c := by
  have hge : 128 ≤ c.toNat := Nat.le_of_not_lt (of_decide_eq_false h)
  refine dif_neg fun hupper => ?_
  have hle : c.toNat ≤ 90 := UInt32.le_iff_toNat_le.mp hupper.2
  omega

/-! ## Where ASCII text is found -/

theorem startsWithIgnoringCase_nil (cs : List Char) : StartsWithIgnoringCase [] cs :=
  ⟨[], cs, rfl, rfl⟩

theorem startsWithIgnoringCase_cons_cons :
    StartsWithIgnoringCase (d :: pat) (c :: cs) ↔
      c.toLower = d.toLower ∧ StartsWithIgnoringCase pat cs := by
  constructor
  · rintro ⟨w, rest, heq, hmap⟩
    cases w with
    | nil => cases hmap
    | cons c' w =>
      obtain ⟨rfl, rfl⟩ := List.cons.inj heq
      obtain ⟨hlower, hmap⟩ := List.cons.inj hmap
      exact ⟨hlower, w, rest, rfl, hmap⟩
  · rintro ⟨hlower, w, rest, rfl, hmap⟩
    exact ⟨c :: w, rest, rfl, congrArg₂ List.cons hlower hmap⟩

theorem not_startsWithIgnoringCase_cons_nil : ¬ StartsWithIgnoringCase (d :: pat) [] := by
  rintro ⟨w, rest, heq, hmap⟩
  obtain ⟨rfl, -⟩ := List.append_eq_nil_iff.mp heq.symm
  cases hmap

theorem eqIgnoreAsciiCase_cons_cons {a b : UInt8} {x y : List UInt8} :
    eqIgnoreAsciiCase (a :: x) (b :: y) = true ↔
      toAsciiLowercase a = toAsciiLowercase b ∧ eqIgnoreAsciiCase x y = true := by
  simp [eqIgnoreAsciiCase]

/-- **ASCII text is found in the bytes where it is found in the characters.** -/
theorem eqIgnoreAsciiCase_asBytes_iff (h : ∀ d ∈ pat, isAscii d = true) :
    eqIgnoreAsciiCase ((asBytes cs).take pat.length) (asBytes pat) = true ↔
      StartsWithIgnoringCase pat cs := by
  induction pat generalizing cs with
  | nil => exact iff_of_true rfl (startsWithIgnoringCase_nil cs)
  | cons d pat ih =>
    have hd : isAscii d = true := h d List.mem_cons_self
    have hpat : ∀ e ∈ pat, isAscii e = true := fun e he => h e (List.mem_cons_of_mem _ he)
    rw [asBytes_cons, utf8EncodeChar_of_isAscii hd, List.singleton_append, List.length_cons]
    cases cs with
    | nil =>
      refine iff_of_false (fun hbytes => ?_) not_startsWithIgnoringCase_cons_nil
      cases hbytes
    | cons c cs =>
      rw [asBytes_cons, startsWithIgnoringCase_cons_cons]
      cases hc : isAscii c with
      | true =>
        rw [utf8EncodeChar_of_isAscii hc, List.singleton_append, List.take_succ_cons,
          eqIgnoreAsciiCase_cons_cons, ih hpat, toAsciiLowercase_of_isAscii hc,
          toAsciiLowercase_of_isAscii hd, ofNat_toNat_inj (isAscii_toLower hc) (isAscii_toLower hd)]
      | false =>
        -- neither its first byte nor the character itself is an ASCII letter
        obtain ⟨b, rest, hbytes, hb⟩ := utf8EncodeChar_of_not_isAscii hc
        have hlower := isAscii_toLower hd
        rw [hbytes, List.cons_append, List.take_succ_cons, eqIgnoreAsciiCase_cons_cons,
          toAsciiLowercase_of_le hb, toAsciiLowercase_of_isAscii hd, toLower_of_not_isAscii hc]
        refine iff_of_false (fun hbyte => ?_) fun hchar => ?_
        · have hnat := toNat_ofNat_of_isAscii hlower
          have hlt : d.toLower.toNat < 128 := of_decide_eq_true hlower
          rw [← hbyte.1] at hnat
          omega
        · rw [hchar.1, hlower] at hc
          cases hc

end

end Infra
