import Mathlib

/-!
Binary floating point on the rationals. `roundBinary p q` is the number
with a `p`-bit significand nearest to `q`, ties to an even significand, as
IEEE 754 rounds to nearest (single precision is `p = 24`, double `p = 53`);
the exponent range is left out, no value met here comes near its ends. The
base-2 logarithms of a C library are a parameter, `Libm`: IEEE 754 fixes
their results only where they are exact, and the only such results stated
are those at the powers of two.
-/

namespace BinaryFloat

/-- The integer nearest to `x`, ties to even. -/
def roundHalfEven (x : ℚ) : ℤ :=
  if x - ⌊x⌋ < 1 / 2 then ⌊x⌋
  else if 1 / 2 < x - ⌊x⌋ then ⌊x⌋ + 1
  else if ⌊x⌋ % 2 = 0 then ⌊x⌋ else ⌊x⌋ + 1

/-- The weight of the last significand bit of `q` with a `p`-bit
significand. -/
def ulpExponent (p : Nat) (q : ℚ) : ℤ := Int.log 2 |q| - (p - 1 : Nat)

/-- `q` rounded to a `p`-bit significand, to nearest, ties to even. -/
def roundBinary (p : Nat) (q : ℚ) : ℚ :=
  if q = 0 then 0 else (roundHalfEven (q / 2 ^ ulpExponent p q) : ℚ) * 2 ^ ulpExponent p q

/-- The base-2 logarithms of a C library, `log2f` (single precision) and
`log2` (double), on the values they are given. -/
structure Libm where
  log2f : ℚ → ℚ
  log2 : ℚ → ℚ
  log2f_two_pow : ∀ k : Nat, log2f (2 ^ k) = k
  log2_two_pow : ∀ k : Nat, log2 (2 ^ k) = k

@[simp] theorem roundHalfEven_intCast (z : ℤ) : roundHalfEven z = z := by
  simp [roundHalfEven]

/-- A number whose last significand bit weighs at least `2 ^ ulpExponent`
is kept as it is. -/
theorem roundBinary_of_eq_intCast {p : Nat} {q : ℚ} {m : ℤ} (hm : q / 2 ^ ulpExponent p q = m) :
    roundBinary p q = q := by
  unfold roundBinary
  split_ifs with hq
  · exact hq.symm
  · rw [hm, roundHalfEven_intCast, ← hm, div_mul_cancel₀ _ (zpow_ne_zero _ two_ne_zero)]

theorem ulpExponent_natCast (p n : Nat) : ulpExponent p n = (Nat.log 2 n : ℤ) - (p - 1 : Nat) := by
  rw [ulpExponent, Nat.abs_cast, Int.log_natCast]

/-- An integer with at most `p` bits is kept as it is. -/
theorem roundBinary_natCast_of_lt {p n : Nat} (hn : n < 2 ^ p) : roundBinary p n = n := by
  have hlog : Nat.log 2 n ≤ p - 1 := by
    rcases Nat.eq_zero_or_pos n with h0 | h0
    · simp [h0]
    · have := Nat.log_lt_of_lt_pow (Nat.pos_iff_ne_zero.mp h0) hn
      omega
  apply roundBinary_of_eq_intCast (m := n * 2 ^ (p - 1 - Nat.log 2 n))
  rw [ulpExponent_natCast, div_eq_mul_inv, ← zpow_neg, neg_sub]
  push_cast
  rw [show ((p - 1 : Nat) : ℤ) - (Nat.log 2 n : ℤ) = ((p - 1 - Nat.log 2 n : Nat) : ℤ) by omega,
    zpow_natCast]

/-- A power of two is kept as it is. -/
theorem roundBinary_two_pow (p k : Nat) : roundBinary p (2 ^ k) = 2 ^ k := by
  apply roundBinary_of_eq_intCast (m := 2 ^ (p - 1))
  have hlog : ulpExponent p (2 ^ k) = (k : ℤ) - (p - 1 : Nat) := by
    rw [ulpExponent, abs_of_pos (by positivity), ← zpow_natCast,
      show ((2 : ℚ)) = ((2 : ℕ) : ℚ) by norm_num, Int.log_zpow (by decide)]
  rw [hlog, ← zpow_natCast, ← zpow_sub₀ two_ne_zero]
  push_cast
  rw [show (k : ℤ) - ((k : ℤ) - ((p - 1 : Nat) : ℤ)) = ((p - 1 : Nat) : ℤ) by ring, zpow_natCast]

/-- `Int.log 2` goes down by `j` when its argument is divided by `2 ^ j`. -/
theorem log_div_two_pow {q : ℚ} (hq : 0 < q) (j : Nat) :
    Int.log 2 (q / 2 ^ j) = Int.log 2 q - j := by
  have hq' : 0 < q / 2 ^ j := by positivity
  have hpow : ((2 : ℕ) : ℚ) = 2 := by norm_num
  apply le_antisymm
  · have hlt : q / 2 ^ j < ((2 : ℕ) : ℚ) ^ (Int.log 2 q - j + 1) := by
      have h := Int.lt_zpow_succ_log_self (b := 2) (by decide) q
      rw [hpow] at h ⊢
      rw [show Int.log 2 q - j + 1 = (Int.log 2 q + 1) - (j : ℤ) by ring, zpow_sub₀ two_ne_zero,
        zpow_natCast]
      exact div_lt_div_of_pos_right h (by positivity)
    have := (Int.lt_zpow_iff_log_lt (b := 2) (by decide) hq').mp hlt
    omega
  · apply (Int.zpow_le_iff_le_log (b := 2) (by decide) hq').mp
    have h := Int.zpow_log_le_self (b := 2) (by decide) hq
    rw [hpow] at h ⊢
    rw [zpow_sub₀ two_ne_zero, zpow_natCast]
    exact div_le_div_of_nonneg_right h (by positivity)

/-- Dividing by a power of two commutes with rounding: the exponent range
is not modelled. -/
theorem roundBinary_div_two_pow (p : Nat) {q : ℚ} (hq : 0 < q) (j : Nat) :
    roundBinary p (q / 2 ^ j) = roundBinary p q / 2 ^ j := by
  have he : ulpExponent p (q / 2 ^ j) = ulpExponent p q - j := by
    rw [ulpExponent, ulpExponent, abs_of_pos (by positivity), abs_of_pos hq, log_div_two_pow hq]
    ring
  have hscale : q / 2 ^ j / 2 ^ (ulpExponent p q - j) = q / 2 ^ ulpExponent p q := by
    rw [zpow_sub₀ two_ne_zero, zpow_natCast]
    field_simp
  unfold roundBinary
  rw [if_neg (by positivity), if_neg hq.ne', he, hscale, zpow_sub₀ two_ne_zero, zpow_natCast]
  field_simp

/-- The logarithms rounded down to integers: exact at the powers of two, so
a C library in the sense above. -/
def Libm.floorLog2 : Libm where
  log2f q := Int.log 2 q
  log2 q := Int.log 2 q
  log2f_two_pow k := by
    rw [show (2 : ℚ) ^ k = ((2 : ℕ) : ℚ) ^ (k : ℤ) by push_cast; rfl, Int.log_zpow (by decide)]
    rfl
  log2_two_pow k := by
    rw [show (2 : ℚ) ^ k = ((2 : ℕ) : ℚ) ^ (k : ℤ) by push_cast; rfl, Int.log_zpow (by decide)]
    rfl

end BinaryFloat
