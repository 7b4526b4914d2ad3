import Mathlib.Logic.Function.Basic
import Mathlib.Tactic.SplitIfs
import PackageAtlas.Text.Utf8

set_option autoImplicit false

/-! # Reading UTF-8 back

A text is what its bytes are read as (`decodeLossy_encode`). The machine is followed through the
bytes of one character: the first byte says how many there are and bounds the second, and the bounds
let pass what the character has there. -/

namespace PackageAtlas.Utf8

/-! ## The first byte -/

theorem first_of_one : ∀ n < 0x80, first (.ofNat n) = ([Char.ofNat n], .ready) := by
  decide

theorem first_of_two : ∀ n < 0x20, 2 ≤ n →
    first (.ofNat (n + 0xC0)) = ([], .inside n 0 0x80 0xBF) := by
  decide

theorem first_of_three : ∀ n < 0x10,
    first (.ofNat (n + 0xE0))
      = ([], .inside n 1 (if n = 0 then 0xA0 else 0x80) (if n = 0xD then 0x9F else 0xBF)) := by
  decide

theorem first_of_four : ∀ n < 5,
    first (.ofNat (n + 0xF0))
      = ([], .inside n 2 (if n = 0 then 0x90 else 0x80) (if n = 4 then 0x8F else 0xBF)) := by
  decide

/-! ## The bytes after it -/

theorem toNat_following {digit : Nat} (h : digit < 64) :
    (UInt8.ofNat (digit + 0x80)).toNat = digit + 0x80 := by
  rw [UInt8.toNat_ofNat', Nat.mod_eq_of_lt (by omega)]

theorem following_within {digit : Nat} {low high : UInt8} (h : digit < 64)
    (hlow : low.toNat ≤ digit + 0x80) (hhigh : digit + 0x80 ≤ high.toNat) :
    low ≤ .ofNat (digit + 0x80) ∧ .ofNat (digit + 0x80) ≤ high := by
  rw [UInt8.le_iff_toNat_le, UInt8.le_iff_toNat_le, toNat_following h]
  exact ⟨hlow, hhigh⟩

theorem decodeFrom_last {seen digit : Nat} {low high : UInt8} (rest : Bytes) (h : digit < 64)
    (hlow : low.toNat ≤ digit + 0x80) (hhigh : digit + 0x80 ≤ high.toNat) :
    decodeFrom (.inside seen 0 low high) (.ofNat (digit + 0x80) :: rest)
      = Char.ofNat (seen * 64 + digit) :: decodeFrom .ready rest := by
  rw [decodeFrom, step, if_pos (following_within h hlow hhigh), toNat_following h,
    Nat.add_sub_cancel]
  rfl

theorem decodeFrom_more {seen later digit : Nat} {low high : UInt8} (rest : Bytes) (h : digit < 64)
    (hlow : low.toNat ≤ digit + 0x80) (hhigh : digit + 0x80 ≤ high.toNat) :
    decodeFrom (.inside seen (later + 1) low high) (.ofNat (digit + 0x80) :: rest)
      = decodeFrom (.inside (seen * 64 + digit) later 0x80 0xBF) rest := by
  rw [decodeFrom, step, if_pos (following_within h hlow hhigh), toNat_following h,
    Nat.add_sub_cancel]
  rfl

/-! ## Characters and texts -/

theorem decodeFrom_utf8EncodeChar (c : Char) (rest : Bytes) :
    decodeFrom .ready (String.utf8EncodeChar c ++ rest) = c :: decodeFrom .ready rest := by
  have hvalid := c.valid
  simp only [UInt32.isValidChar, Nat.isValidChar] at hvalid
  have hback : Char.ofNat c.val.toNat = c := Char.ofNat_toNat c
  dsimp only [String.utf8EncodeChar]
  generalize c.val.toNat = n at *
  subst hback
  split_ifs with h1 h2 h3 <;> simp only [List.cons_append, List.nil_append]
  · rw [decodeFrom, step, first_of_one n (by omega)]
    rfl
  · rw [decodeFrom, step, first_of_two (n / 64 % 32) (by omega) (by omega), List.nil_append,
      decodeFrom_last rest (by omega) (by simp) (by simp; omega)]
    congr 2
    omega
  · rw [decodeFrom, step, first_of_three (n / 4096 % 16) (by omega), List.nil_append,
      decodeFrom_more _ (by omega) (by split <;> simp; omega) (by split <;> simp <;> omega),
      decodeFrom_last rest (by omega) (by simp) (by simp; omega)]
    congr 2
    omega
  · rw [decodeFrom, step, first_of_four (n / 262144 % 8) (by omega), List.nil_append,
      decodeFrom_more _ (by omega) (by split <;> simp; omega) (by split <;> simp <;> omega),
      decodeFrom_more _ (by omega) (by simp) (by simp; omega),
      decodeFrom_last rest (by omega) (by simp) (by simp; omega)]
    congr 2
    omega

theorem decodeLossy_encode (t : Text) : decodeLossy (encode t) = t := by
  induction t with
  | nil => rfl
  | cons c rest ih =>
      rw [decodeLossy, encode, List.flatMap_cons, decodeFrom_utf8EncodeChar]
      exact congrArg (c :: ·) ih

theorem encode_injective : Function.Injective encode :=
  Function.LeftInverse.injective decodeLossy_encode

end PackageAtlas.Utf8
