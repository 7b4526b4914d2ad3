import Mathlib.Tactic.SplitIfs
import PackageAtlas.Text.Utf8

set_option autoImplicit false

/-! # The order of UTF-8

The bytes of two texts compare as the texts do by their code points (`encode_lt_encode`): the
tables of a namespace, ordered by code points, are in the byte order of their keys. -/

namespace PackageAtlas.Utf8

theorem ofNat_cons_lt_ofNat_cons {m n : Nat} {x y : Bytes} (hm : m < 256) (hn : n < 256) :
    UInt8.ofNat m :: x < UInt8.ofNat n :: y ↔ m < n ∨ m = n ∧ x < y := by
  rw [List.cons_lt_cons_iff, UInt8.lt_iff_toNat_lt, ← UInt8.toNat_inj, UInt8.toNat_ofNat',
    UInt8.toNat_ofNat', Nat.mod_eq_of_lt hm, Nat.mod_eq_of_lt hn]

/-- The smaller of two numbers has the smaller digits to the base 64, read from the greatest. -/
theorem digits_lt {m n : Nat} (h : m < n) :
    m / 262144 < n / 262144 ∨ m / 262144 = n / 262144 ∧
      (m / 4096 % 64 < n / 4096 % 64 ∨ m / 4096 % 64 = n / 4096 % 64 ∧
        (m / 64 % 64 < n / 64 % 64 ∨ m / 64 % 64 = n / 64 % 64 ∧ m % 64 < n % 64)) := by
  by_cases h3 : m / 262144 < n / 262144
  · exact Or.inl h3
  · have e3 : m / 262144 = n / 262144 := by omega
    refine Or.inr ⟨e3, ?_⟩
    by_cases h2 : m / 4096 < n / 4096
    · exact Or.inl (by omega)
    · have e2 : m / 4096 = n / 4096 := by omega
      refine Or.inr ⟨by rw [e2], ?_⟩
      by_cases h1 : m / 64 < n / 64
      · exact Or.inl (by omega)
      · have e1 : m / 64 = n / 64 := by omega
        exact Or.inr ⟨by rw [e1], by omega⟩

/-- Of two different characters the greater one has the greater bytes, and neither encoding is a
beginning of the other, so it does not matter what follows. -/
theorem utf8EncodeChar_append_lt {c d : Char} (h : c < d) (x y : Bytes) :
    String.utf8EncodeChar c ++ x < String.utf8EncodeChar d ++ y := by
  have hlt : c.val.toNat < d.val.toNat := h
  have hmax : d.val.toNat < 0x110000 := by
    have hvalid := d.valid
    simp only [UInt32.isValidChar, Nat.isValidChar] at hvalid
    omega
  dsimp only [String.utf8EncodeChar]
  generalize c.val.toNat = m at *
  generalize d.val.toNat = n at *
  have hdigits := digits_lt hlt
  have hm : m / 262144 % 8 = m / 262144 := Nat.mod_eq_of_lt (by omega)
  have hn : n / 262144 % 8 = n / 262144 := Nat.mod_eq_of_lt (by omega)
  -- the first byte tells the number of bytes, so only encodings of one length go on comparing
  split_ifs <;> simp (disch := omega) only [List.cons_append, List.nil_append,
    ofNat_cons_lt_ofNat_cons] <;> omega

/-- UTF-8 keeps the order of texts. -/
theorem encode_lt_encode {a b : Text} (h : a < b) : encode a < encode b := by
  induction h with
  | @nil c rest =>
      have hne : encode (c :: rest) ≠ [] := by
        simp only [encode, List.flatMap_cons, ne_eq, List.append_eq_nil_iff, not_and]
        intro hc
        have hpos := c.utf8Size_pos
        rw [← String.length_utf8EncodeChar c] at hpos
        exact absurd hc (List.ne_nil_of_length_pos hpos)
      obtain ⟨b, bytes, hb⟩ := List.exists_cons_of_ne_nil hne
      rw [hb]
      exact List.nil_lt_cons b bytes
  | rel hcd => exact utf8EncodeChar_append_lt hcd _ _
  | cons _ ih => exact List.append_left_lt ih

end PackageAtlas.Utf8
