import SrsRan.Lib.BitString

/-!
Two's complement fields. The `w` low bits of an integer `x` are the natural
number `x % 2 ^ w`; read back as a signed number they give `x` again when
`x` lies in `[-2 ^ (w - 1), 2 ^ (w - 1))`. An arithmetic right shift is a
floor division, and it maps such a range onto a smaller one. `Int16` is the
type of `int16_t`: `Int16.ofInt` keeps the 16 low bits.
-/

namespace TwosComplement

open BitString

/-- The `w` low bits of `x` in two's complement, as a natural number. -/
def field (w : Nat) (x : Int) : Nat := (x % 2 ^ w).toNat

/-- A `w`-bit field read as a two's complement number. -/
def signedOf (w r : Nat) : Int := if r < 2 ^ (w - 1) then r else (r : Int) - 2 ^ w

theorem field_lt (w : Nat) (x : Int) : field w x < 2 ^ w := by
  have h0 := Int.emod_nonneg x (show (2 : Int) ^ w ≠ 0 by positivity)
  have h1 := Int.emod_lt_of_pos x (show (0 : Int) < 2 ^ w by positivity)
  unfold field
  rw [Int.toNat_lt h0]
  exact_mod_cast h1

theorem field_cast (w : Nat) (x : Int) : (field w x : Int) = x % 2 ^ w :=
  Int.toNat_of_nonneg (Int.emod_nonneg x (by positivity))

@[simp] theorem field_natCast (w n : Nat) : field w n = n % 2 ^ w := by
  unfold field
  rw [show ((2 : Int) ^ w) = ((2 ^ w : Nat) : Int) by push_cast; rfl, ← Int.natCast_emod, Int.toNat_natCast]

/-- Fields of a smaller width are the low bits of the larger one. -/
theorem field_mod {v w : Nat} (h : v ≤ w) (x : Int) : field w x % 2 ^ v = field v x := by
  have hd : (2 : Int) ^ v ∣ 2 ^ w := pow_dvd_pow 2 h
  rw [← Int.natCast_inj, Int.natCast_emod, field_cast, field_cast]
  push_cast
  exact Int.emod_emod_of_dvd x hd

/-- The bits of a field depend on the integer modulo `2 ^ w` only. -/
theorem msbBits_field_of_le {v w : Nat} (h : v ≤ w) (x : Int) :
    msbBits v (field w x) = msbBits v (field v x) := by
  rw [← msbBits_mod, field_mod h]

/-- Dividing by `2 ^ b` then keeping `a` bits keeps the bits `b` to `a + b`. -/
theorem ediv_two_pow_emod (x : Int) (a b : Nat) :
    x / 2 ^ b % 2 ^ a = x % 2 ^ (a + b) / 2 ^ b := by
  have hb : (0 : Int) < 2 ^ b := by positivity
  have hr0 := Int.emod_nonneg x (show (2 : Int) ^ (a + b) ≠ 0 by positivity)
  have hr1 := Int.emod_lt_of_pos x (show (0 : Int) < 2 ^ (a + b) by positivity)
  -- `x = 2 ^ (a + b) * q + r`, so `x / 2 ^ b = 2 ^ a * q + r / 2 ^ b`
  have hx : x = x % 2 ^ (a + b) + 2 ^ b * (2 ^ a * (x / 2 ^ (a + b))) := by
    rw [← mul_assoc, ← pow_add, Nat.add_comm b a]
    exact (Int.emod_add_mul_ediv x _).symm
  conv_lhs => rw [hx]
  rw [Int.add_mul_ediv_left _ _ hb.ne', Int.add_mul_emod_self_left]
  apply Int.emod_eq_of_lt (Int.ediv_nonneg hr0 hb.le)
  apply Int.ediv_lt_of_lt_mul hb
  rwa [← pow_add]

/-- A field of `a + b` bits is the `a`-bit field of the integer divided by
`2 ^ b`, followed by its own `b` low bits. -/
theorem msbBits_field_add (a b : Nat) (x : Int) :
    msbBits (a + b) (field (a + b) x) = msbBits a (field a (x / 2 ^ b)) ++ msbBits b (field b x) := by
  rw [msbBits_add, msbBits_field_of_le (Nat.le_add_left b a)]
  congr 2
  rw [← Int.natCast_inj, Int.natCast_ediv, field_cast, field_cast]
  push_cast
  rw [ediv_two_pow_emod]

/-- Reading back the field of a number in range gives the number. -/
theorem signedOf_field {w : Nat} (hw : 0 < w) {x : Int} (hlo : -2 ^ (w - 1) ≤ x)
    (hhi : x < 2 ^ (w - 1)) : signedOf w (field w x) = x := by
  have hpow : (2 : Int) ^ w = 2 * 2 ^ (w - 1) := by
    rw [← pow_succ', Nat.sub_add_cancel hw]
  have hcast := field_cast w x
  unfold signedOf
  by_cases hx : 0 ≤ x
  · -- a non-negative number is its own field, in the lower half
    have hmod : x % 2 ^ w = x := Int.emod_eq_of_lt hx (by omega)
    have hlt : field w x < 2 ^ (w - 1) := by zify; omega
    rw [if_pos hlt]
    omega
  · -- a negative one is `2 ^ w` above, in the upper half
    have hmod : x % 2 ^ w = x + 2 ^ w := by
      rw [← Int.add_emod_right]
      exact Int.emod_eq_of_lt (by omega) (by omega)
    have hlt : ¬ field w x < 2 ^ (w - 1) := by zify; omega
    rw [if_neg hlt]
    omega

/-- An arithmetic right shift by `e` takes `[-2 ^ (w - 1 + e), 2 ^ (w - 1 + e))`
onto `[-2 ^ (w - 1), 2 ^ (w - 1))`. -/
theorem ediv_two_pow_mem {w e : Nat} {x : Int} (hlo : -2 ^ (w - 1 + e) ≤ x) (hhi : x < 2 ^ (w - 1 + e)) :
    -2 ^ (w - 1) ≤ x / 2 ^ e ∧ x / 2 ^ e < 2 ^ (w - 1) := by
  have he : (0 : Int) < 2 ^ e := by positivity
  rw [pow_add] at hlo hhi
  constructor
  · rw [Int.le_ediv_iff_mul_le he]
    linarith
  · exact Int.ediv_lt_of_lt_mul he hhi

/-! ## `int16_t` -/

/-- `Int16.ofInt` of a number in range is that number. -/
theorem toInt_ofInt_of_mem {x : Int} (hlo : -2 ^ 15 ≤ x) (hhi : x < 2 ^ 15) : (Int16.ofInt x).toInt = x := by
  rw [Int16.toInt_ofInt]
  exact Int.bmod_eq_of_le (by simp [Int16.size]; omega) (by simp [Int16.size]; omega)

end TwosComplement
