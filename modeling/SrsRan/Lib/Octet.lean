import Mathlib

/-!
Arithmetic of bit fields inside octets and machine words: masks with low
ones are remainders, shifts are products and quotients, and an `or` of
fields that do not overlap is their sum. The codecs of the model write
fields with `&&&`, `<<<`, `>>>` and `|||` as their sources do; these
lemmas turn a decoder applied to an encoder into `div`/`mod` arithmetic
that `omega` closes.
-/

namespace Octet

theorem and_low (x k : Nat) : x &&& (2 ^ k - 1) = x % 2 ^ k :=
  Nat.and_two_pow_sub_one_eq_mod x k

@[simp] theorem and_0x01 (x : Nat) : x &&& 0x01 = x % 2 := and_low x 1
@[simp] theorem and_0x03 (x : Nat) : x &&& 0x03 = x % 4 := and_low x 2
@[simp] theorem and_0x07 (x : Nat) : x &&& 0x07 = x % 8 := and_low x 3
@[simp] theorem and_0x0f (x : Nat) : x &&& 0x0f = x % 16 := and_low x 4
@[simp] theorem and_0x3f (x : Nat) : x &&& 0x3f = x % 64 := and_low x 6
@[simp] theorem and_0x7f (x : Nat) : x &&& 0x7f = x % 128 := and_low x 7
@[simp] theorem and_0xff (x : Nat) : x &&& 0xff = x % 256 := and_low x 8

/-- An `or` whose right field sits entirely below the right zeros of the
left one is a sum. -/
theorem or_eq_add {x y k : Nat} (hx : x % 2 ^ k = 0) (hy : y < 2 ^ k) : x ||| y = x + y := by
  have hx' : x = (x / 2 ^ k) <<< k := by
    rw [Nat.shiftLeft_eq]
    have := Nat.div_add_mod x (2 ^ k)
    rw [hx] at this
    rw [Nat.mul_comm]
    omega
  rw [hx', ← Nat.shiftLeft_add_eq_or_of_lt hy]

theorem shiftLeft_or_eq_add (a y k : Nat) (hy : y < 2 ^ k) : a <<< k ||| y = a * 2 ^ k + y := by
  rw [← Nat.shiftLeft_add_eq_or_of_lt hy, Nat.shiftLeft_eq]

@[simp] theorem toNat_ofNat_uint8 (n : Nat) : (UInt8.ofNat n).toNat = n % 256 := by
  simp

/-- The two octets of a 16-bit word, high first, put back together. -/
theorem uint16_of_octets (x : UInt16) :
    ((x >>> 8).toUInt8.toUInt16 <<< 8) ||| x.toUInt8.toUInt16 = x := by
  apply UInt16.toNat_inj.mp
  have hx := UInt16.toNat_lt x
  simp only [UInt16.toNat_or, UInt16.toNat_shiftLeft, UInt8.toNat_toUInt16, UInt16.toNat_toUInt8,
    UInt16.toNat_shiftRight]
  have h8 : (8 : UInt16).toNat % 16 = 8 := by decide
  rw [h8, Nat.shiftRight_eq_div_pow, Nat.shiftLeft_eq, or_eq_add (k := 8) _ (Nat.mod_lt _ (by decide))]
  · omega
  · omega

/-- A 16-bit word made of two octets gives them back, high first. -/
theorem octets_of_uint16 (hi lo : UInt8) :
    (((hi.toUInt16 <<< 8) ||| lo.toUInt16) >>> 8).toUInt8 = hi ∧
      ((hi.toUInt16 <<< 8) ||| lo.toUInt16).toUInt8 = lo := by
  have hhi := UInt8.toNat_lt hi
  have hlo := UInt8.toNat_lt lo
  have h8 : (8 : UInt16).toNat % 16 = 8 := by decide
  have hword : ((hi.toUInt16 <<< 8) ||| lo.toUInt16).toNat = hi.toNat * 2 ^ 8 + lo.toNat := by
    simp only [UInt16.toNat_or, UInt16.toNat_shiftLeft, UInt8.toNat_toUInt16, h8]
    rw [Nat.shiftLeft_eq, Nat.mod_eq_of_lt (by omega), or_eq_add (k := 8) (by simp) hlo]
  constructor
  · apply UInt8.toNat_inj.mp
    simp only [UInt16.toNat_toUInt8, UInt16.toNat_shiftRight, h8, hword, Nat.shiftRight_eq_div_pow]
    omega
  · apply UInt8.toNat_inj.mp
    simp only [UInt16.toNat_toUInt8, hword]
    omega

end Octet
