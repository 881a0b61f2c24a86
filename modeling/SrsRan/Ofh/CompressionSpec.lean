import SrsRan.Ofh.Compression
import SrsRan.Lib.TwosComplement

/-!
What the Open Fronthaul IQ codecs do to a PRB. The packer writes each
sample's two's complement field, `iqWidth` bits most significant first, one
after the other, and clears the rest of the last octet; the unpacker reads a
field back and `sign_extend` turns it into the sample. The BFP exponent is
the least one that brings every sample into `dataWidth` bits, but for a PRB
whose samples all equal one negative power of two, and
`compress_prb_generic` followed by `decompress_prb_generic` hands `to_float`
each sample rounded down to a multiple of `2 ^ exponent`.

For widths below 8 the packer converts a negative sample to `uint8_t`
before it inserts its `iqWidth` bits, and `bit_buffer::insert` asserts that
the value fits them: either codec aborts on any PRB with a negative sample.
-/

namespace SrsRan.Ofh

open BitString TwosComplement

/-! ## `int16_t` arithmetic -/

/-- Two numbers equal modulo `2 ^ 16` are stored as the same `int16_t`. -/
theorem int16_ofInt_congr {x y : Int} (h : x % 2 ^ 16 = y % 2 ^ 16) : Int16.ofInt x = Int16.ofInt y := by
  rw [← Int16.toBitVec_inj, Int16.toBitVec_ofInt, Int16.toBitVec_ofInt]
  apply BitVec.eq_of_toNat_eq
  rw [BitVec.toNat_ofInt, BitVec.toNat_ofInt, Nat.cast_pow, Nat.cast_ofNat, h]

theorem int16_toInt_ofNat_emod (r : Nat) : (Int16.ofNat r).toInt % 2 ^ 16 = (r : Int) % 2 ^ 16 := by
  have hsize : ((Int16.size : Nat) : Int) = 2 ^ 16 := rfl
  rw [Int16.toInt_ofNat', ← hsize, Int.bmod_emod]

/-! ## The quantizer -/

/-- `sign_extend` of a `bitWidth`-bit field reads it as a two's complement
number: the shift left puts its sign bit on bit 15, the arithmetic shift
right brings it back. -/
theorem signExtend_ofNat {w r : Nat} (hw0 : 0 < w) (hw : w ≤ 16) (hr : r < 2 ^ w) :
    signExtend w (Int16.ofNat r) = Int16.ofInt (signedOf w r) := by
  have hk : (2 : Int) ^ w * 2 ^ (16 - w) = 2 ^ 16 := by rw [← pow_add, Nat.add_sub_cancel' hw]
  have hk' : (2 : Int) ^ (w - 1) * 2 ^ (16 - w) = 2 ^ 15 := by
    rw [← pow_add]; congr 1; omega
  have hpos : (0 : Int) < 2 ^ (16 - w) := by positivity
  have hr' : (r : Int) < 2 ^ w := by exact_mod_cast hr
  set y : Int := (r : Int) * 2 ^ (16 - w) with hy
  have hy0 : 0 ≤ y := by positivity
  have hy1 : y < 2 ^ 16 := by rw [← hk]; exact Int.mul_lt_mul_of_pos_right hr' hpos
  have hshift : Int16.ofInt ((Int16.ofNat r).toInt <<< (16 - w)) = Int16.ofInt y := by
    apply int16_ofInt_congr
    rw [Int.shiftLeft_eq, Int.mul_emod, int16_toInt_ofNat_emod, ← Int.mul_emod]
  have hbmod : (Int16.ofInt y).toInt = if y < 2 ^ 15 then y else y - 2 ^ 16 := by
    rw [Int16.toInt_ofInt, Int.bmod_def, show ((Int16.size : Nat) : Int) = 2 ^ 16 from rfl,
      Int.emod_eq_of_lt hy0 hy1]
    rfl
  simp only [signExtend]
  rw [hshift, hbmod, Int.shiftRight_eq_div_pow, Nat.cast_pow, Nat.cast_ofNat]
  unfold signedOf
  by_cases hlt : r < 2 ^ (w - 1)
  · -- the sign bit is clear
    have : y < 2 ^ 15 := by
      rw [← hk', hy]
      exact Int.mul_lt_mul_of_pos_right (by exact_mod_cast hlt) hpos
    rw [if_pos this, if_pos hlt, hy, Int.mul_ediv_cancel _ hpos.ne']
  · -- the sign bit is set
    have : ¬ y < 2 ^ 15 := by
      rw [← hk', hy, not_lt]
      exact Int.mul_le_mul_of_nonneg_right (by exact_mod_cast not_lt.mp hlt) hpos.le
    rw [if_neg this, if_neg hlt, hy, ← hk, ← Int.sub_mul, Int.mul_ediv_cancel _ hpos.ne']

/-- `sign_extend` of the field of a number in range is the number. -/
theorem signExtend_field {w : Nat} (hw0 : 0 < w) (hw : w ≤ 16) {x : Int}
    (hlo : -2 ^ (w - 1) ≤ x) (hhi : x < 2 ^ (w - 1)) :
    signExtend w (Int16.ofNat (field w x)) = Int16.ofInt x := by
  rw [signExtend_ofNat hw0 hw (field_lt w x), signedOf_field hw0 hlo hhi]

/-! ## Unpacking -/

/-- A byte shifted up by `s` bits, or-ed with an `s`-bit number: the two
side by side, as the unpacker puts the two parts of a wide field together. -/
theorem int16_shift_or {a b s : Nat} (ha : a < 2 ^ 8) (hb : b < 2 ^ s) (hs : s ≤ 8) :
    Int16.ofInt ((Int16.ofNat a).toInt <<< s) ||| Int16.ofNat b = Int16.ofNat (a * 2 ^ s + b) := by
  have hlt : a * 2 ^ s < 2 ^ 16 :=
    calc a * 2 ^ s < 2 ^ 8 * 2 ^ s := Nat.mul_lt_mul_of_pos_right ha (Nat.two_pow_pos s)
      _ ≤ 2 ^ 8 * 2 ^ 8 := Nat.mul_le_mul_left _ (Nat.pow_le_pow_right (by norm_num) hs)
  have hsum : a * 2 ^ s + b < 2 ^ 16 := by
    have : a * 2 ^ s + 2 ^ s ≤ 2 ^ 8 * 2 ^ s := by rw [← Nat.succ_mul]; exact Nat.mul_le_mul_right _ ha
    have : 2 ^ 8 * 2 ^ s ≤ 2 ^ 16 := by
      rw [← pow_add]; exact Nat.pow_le_pow_right (by norm_num) (by omega)
    omega
  have hhigh : (Int16.ofInt ((Int16.ofNat a).toInt <<< s)).toBitVec.toNat = a * 2 ^ s := by
    rw [Int16.toBitVec_ofInt, BitVec.toNat_ofInt, Nat.cast_pow, Nat.cast_ofNat, Int.shiftLeft_eq,
      Int.mul_emod, int16_toInt_ofNat_emod, ← Int.mul_emod]
    have : ((a : Int) * 2 ^ s) % 2 ^ 16 = ((a * 2 ^ s : Nat) : Int) := by
      push_cast
      exact Int.emod_eq_of_lt (by positivity) (by exact_mod_cast hlt)
    rw [this, Int.toNat_natCast]
  rw [← Int16.toBitVec_inj, Int16.toBitVec_or]
  apply BitVec.eq_of_toNat_eq
  rw [BitVec.toNat_or, hhigh, Int16.toBitVec_ofNat', Int16.toBitVec_ofNat', BitVec.toNat_ofNat,
    BitVec.toNat_ofNat, Nat.mod_eq_of_lt (lt_of_lt_of_le hb (Nat.pow_le_pow_right (by norm_num) (by omega))),
    Nat.mod_eq_of_lt hsum, ← Nat.shiftLeft_eq, Nat.shiftLeft_add_eq_or_of_lt hb]

section Unpack

variable {prb : CompressedPrb} {offset w : Nat}

/-- `unpack` reads the `w` bits from `offset` on, most significant first,
into the low bits of an `int16_t`. -/
theorem unpack_eq (hw : w ≤ 16) (hp : offset + w ≤ prb.data.currentSize) :
    unpack prb offset w = .ok (Int16.ofNat (ofMsbBits ((prb.data.bits.drop offset).take w))) := by
  have hsize := prb.data.currentSize_le
  unfold unpack
  rcases Nat.lt_or_ge 8 w with hwide | hnarrow
  · -- a wide field: its top byte, shifted up, then its `w - 8` low bits
    obtain ⟨n, rfl⟩ : ∃ n, w = n + 9 := ⟨w - 9, by omega⟩
    have h₁ := @BitBuffer.extract_eq prb.data offset 8 le_rfl (by omega)
    have h₂ := @BitBuffer.extract_eq prb.data (offset + 8) (n + 1) (by omega) (by omega)
    have hb₁ : ofMsbBits ((prb.data.bits.drop offset).take 8) < 2 ^ 8 :=
      lt_of_lt_of_le (ofMsbBits_lt _) (Nat.pow_le_pow_right (by norm_num) (List.length_take_le _ _))
    have hb₂ : ofMsbBits ((prb.data.bits.drop (offset + 8)).take (n + 1)) < 2 ^ (n + 1) :=
      lt_of_lt_of_le (ofMsbBits_lt _) (Nat.pow_le_pow_right (by norm_num) (List.length_take_le _ _))
    have hlen : ((prb.data.bits.drop (offset + 8)).take (n + 1)).length = n + 1 := by
      simp only [List.length_take, List.length_drop, BitBuffer.length_bits]
      omega
    have hsplit : (prb.data.bits.drop offset).take (n + 9) =
        (prb.data.bits.drop offset).take 8 ++ (prb.data.bits.drop (offset + 8)).take (n + 1) := by
      rw [show n + 9 = 8 + (n + 1) by omega, List.take_add, List.drop_drop]
    simp only [unpackLoop, Nat.add_one_ne_zero, ↓reduceIte, show n + 9 > 8 by omega, h₁, show n + 9 - 8 = n + 1 by omega,
      show ¬ n + 1 > 8 by omega, h₂]
    rw [int16_shift_or hb₁ hb₂ (by omega), hsplit, ofMsbBits_append, hlen]
  · rcases Nat.eq_zero_or_pos w with rfl | hpos
    · rfl
    · -- a narrow field: one extract, or-ed into zero
      obtain ⟨n, rfl⟩ : ∃ n, w = n + 1 := ⟨w - 1, by omega⟩
      have h := @BitBuffer.extract_eq prb.data offset (n + 1) hnarrow hp
      simp only [unpackLoop, Nat.add_one_ne_zero, ↓reduceIte, show ¬ n + 1 > 8 by omega, h,
        Int16.zero_or]

/-- The fields of a run of numbers in range read back, each sign extended:
the numbers themselves. -/
theorem unpackSamples_fields {prb : CompressedPrb} {w : Nat} (hw0 : 0 < w) (hw : w ≤ 16) :
    ∀ (xs : List Int) (readPos : Nat) (rest : List Bool),
      (∀ x ∈ xs, -2 ^ (w - 1) ≤ x ∧ x < 2 ^ (w - 1)) →
      readPos + w * xs.length ≤ prb.data.currentSize →
      prb.data.bits.drop readPos = xs.flatMap (fun x => msbBits w (field w x)) ++ rest →
      unpackSamples prb w xs.length readPos = .ok (xs.map Int16.ofInt) := by
  intro xs
  induction xs with
  | nil => intro _ _ _ _ _; rfl
  | cons x xs ih =>
    intro readPos rest hrange hp hbits
    simp only [List.length_cons, Nat.mul_succ] at hp
    simp only [List.flatMap_cons, List.append_assoc] at hbits
    have hfield : (prb.data.bits.drop readPos).take w = msbBits w (field w x) := by
      rw [hbits, List.take_left' (length_msbBits _ _)]
    have hnext : prb.data.bits.drop (readPos + w) = xs.flatMap (fun x => msbBits w (field w x)) ++ rest := by
      rw [← List.drop_drop, hbits, List.drop_left' (length_msbBits _ _)]
    obtain ⟨hlo, hhi⟩ := hrange x (by simp)
    have hx : unpack prb readPos w = .ok (Int16.ofNat (field w x)) := by
      rw [unpack_eq hw (by omega), hfield, ofMsbBits_msbBits, Nat.mod_eq_of_lt (field_lt w x)]
    simp only [List.length_cons, unpackSamples, hx, ih (readPos + w) rest (fun y hy => hrange y (by simp [hy])) (by omega) hnext,
      signExtend_field hw0 hw hlo hhi, List.map_cons]

end Unpack

/-! ## Packing -/

section Pack

variable {bb : BitBuffer} {s : Int16} {p w : Nat}

theorem packSample_done (bb : BitBuffer) (fuel : Nat) (s : Int16) (p : Nat) :
    packSample bb fuel s p 0 = .ok (bb, p) := by
  cases fuel <;> rfl

/-- A turn of the loop with more than a byte left: the top byte goes in, and
the sample keeps the bits below it. -/
theorem packSample_wide (bb : BitBuffer) (fuel : Nat) (s : Int16) (p : Nat) {left : Nat} (h : 8 < left) :
    packSample bb (fuel + 1) s p left =
      match bb.insert (toUint8 (s.toInt >>> (left - 8))) p 8 with
      | .error e => .error (.bitBuffer e)
      | .ok bb => packSample bb fuel (Int16.ofInt (s.toInt % 2 ^ (left - 8))) (p + 8) (left - 8) := by
  rw [packSample]
  cases hins : bb.insert (toUint8 (s.toInt >>> (left - 8))) p 8 <;>
    simp only [show left ≠ 0 by omega, h, ↓reduceIte, show min 8 left = 8 by omega, hins]

/-- The last turn: what is left goes in as the sample converted to `uint8_t`. -/
theorem packSample_narrow (bb : BitBuffer) (fuel : Nat) (s : Int16) (p : Nat) {left : Nat}
    (h0 : left ≠ 0) (h : left ≤ 8) :
    packSample bb (fuel + 1) s p left =
      match bb.insert (toUint8 s.toInt) p left with
      | .error e => .error (.bitBuffer e)
      | .ok bb => .ok (bb, p + left) := by
  rw [packSample]
  simp only [h0, show ¬ left > 8 by omega, ↓reduceIte, Nat.min_eq_right h, Nat.sub_self]
  cases bb.insert (toUint8 s.toInt) p left with
  | error e => rfl
  | ok bb => exact packSample_done _ _ _ _

/-- `uint8_t masked = sample` keeps the field of `sample` on 8 bits. -/
theorem toUint8_eq_field (v : Int) : toUint8 v = field 8 v := rfl

/-- One sample packed: its field takes the `w` bits from `p` on, provided
the byte conversion leaves a value that fits them, which it does for any
sample from 8 bits on. -/
theorem packSample_ok (hw : w ≤ 16) (hp : p + w ≤ bb.currentSize)
    (hfit : 8 ≤ w ∨ field 8 s.toInt < 2 ^ w) :
    ∃ bb', packSample bb w s p w = .ok (bb', p + w) ∧ bb'.currentSize = bb.currentSize ∧
      bb'.bits = splice bb.bits p (msbBits w (field w s.toInt)) := by
  have hsize := bb.currentSize_le
  rcases Nat.lt_or_ge 8 w with hwide | hnarrow
  · -- two inserts: the top byte, then the `w - 8` bits below it
    obtain ⟨n, rfl⟩ : ∃ n, w = n + 9 := ⟨w - 9, by omega⟩
    have hlow : s.toInt % 2 ^ (n + 1) < 2 ^ 15 :=
      lt_of_lt_of_le (Int.emod_lt_of_pos _ (by positivity)) (pow_le_pow_right₀ (by norm_num) (by omega))
    have hlow0 : 0 ≤ s.toInt % 2 ^ (n + 1) := Int.emod_nonneg _ (by positivity)
    have hlowInt : (Int16.ofInt (s.toInt % 2 ^ (n + 1))).toInt = s.toInt % 2 ^ (n + 1) :=
      toInt_ofInt_of_mem (by omega) hlow
    have hlowField : field 8 (s.toInt % 2 ^ (n + 1)) = field (n + 1) s.toInt := by
      zify
      rw [field_cast, field_cast, Int.emod_eq_of_lt hlow0
        (lt_of_lt_of_le (Int.emod_lt_of_pos _ (by positivity)) (pow_le_pow_right₀ (by norm_num) (by omega)))]
    have hhigh : toUint8 (s.toInt >>> (n + 9 - 8)) = field 8 (s.toInt / 2 ^ (n + 1)) := by
      rw [toUint8_eq_field, Int.shiftRight_eq_div_pow, show n + 9 - 8 = n + 1 by omega, Nat.cast_pow,
        Nat.cast_ofNat]
    obtain ⟨bb₁, hins₁⟩ := BitBuffer.insert_ok_iff.mpr
      ⟨le_rfl, field_lt 8 (s.toInt / 2 ^ (n + 1)), show p + 8 ≤ bb.currentSize by omega⟩
    have hsize₁ := BitBuffer.insert_currentSize hins₁
    obtain ⟨bb₂, hins₂⟩ := (@BitBuffer.insert_ok_iff bb₁ (field (n + 1) s.toInt) (p + 8) (n + 1)).mpr ⟨by omega, field_lt _ _, by omega⟩
    refine ⟨bb₂, ?_, (BitBuffer.insert_currentSize hins₂).trans hsize₁, ?_⟩
    · rw [show n + 9 = (n + 8) + 1 from rfl, packSample_wide _ _ _ _ (by omega), hhigh, hins₁]
      dsimp only
      rw [show n + 9 - 8 = n + 1 by omega, show n + 8 = (n + 7) + 1 from rfl,
        packSample_narrow _ _ _ _ (by omega) (by omega), hlowInt, toUint8_eq_field, hlowField, hins₂]
      dsimp only
      rw [show p + 8 + (n + 1) = p + (n + 8 + 1) by omega]
    · -- the top byte and the low bits are the field's two parts
      have hsplice := @splice_splice _ bb.bits (msbBits 8 (field 8 (s.toInt / 2 ^ (n + 1))))
        (msbBits (n + 1) (field (n + 1) s.toInt)) p (by simp; omega)
      rw [length_msbBits, ← msbBits_field_add, show 8 + (n + 1) = n + 9 by omega] at hsplice
      rw [BitBuffer.insert_bits hins₂, BitBuffer.insert_bits hins₁, hsplice]
  · rcases Nat.eq_zero_or_pos w with rfl | hpos
    · exact ⟨bb, packSample_done bb 0 s p, rfl, by simp⟩
    · -- one insert of the whole field
      obtain ⟨n, rfl⟩ : ∃ n, w = n + 1 := ⟨w - 1, by omega⟩
      have hv : field 8 s.toInt < 2 ^ (n + 1) := by
        rcases hfit with h | h
        · rw [show n + 1 = 8 by omega]; exact field_lt 8 _
        · exact h
      obtain ⟨bb', hins⟩ := BitBuffer.insert_ok_iff.mpr ⟨hnarrow, hv, hp⟩
      refine ⟨bb', ?_, BitBuffer.insert_currentSize hins, ?_⟩
      · rw [packSample_narrow _ _ _ _ (by omega) hnarrow, toUint8_eq_field, hins]
      · rw [BitBuffer.insert_bits hins, msbBits_field_of_le hnarrow]

/-- Below 8 bits, a sample whose byte conversion does not fit the width
makes `insert` assert. -/
theorem packSample_error (hw0 : 0 < w) (hw : w < 8) (hbad : 2 ^ w ≤ field 8 s.toInt) :
    packSample bb w s p w = .error (.bitBuffer .valueExceedsCount) := by
  obtain ⟨n, rfl⟩ : ∃ n, w = n + 1 := ⟨w - 1, by omega⟩
  have hins : bb.insert (field 8 s.toInt) p (n + 1) = .error .valueExceedsCount := by
    simp only [BitBuffer.insert, show ¬ n + 1 > 8 by omega, ↓reduceIte, not_lt.mpr hbad, not_false_eq_true]
  rw [packSample_narrow _ _ _ _ (by omega) (by omega), toUint8_eq_field, hins]

variable {samples : List Int16}

/-- The fields of the samples one after the other. -/
def sampleBits (w : Nat) (samples : List Int16) : List Bool :=
  samples.flatMap fun s => msbBits w (field w s.toInt)

@[simp] theorem length_sampleBits (w : Nat) (samples : List Int16) :
    (sampleBits w samples).length = w * samples.length := by
  induction samples with
  | nil => rfl
  | cons s rest ih => simp [sampleBits] at ih ⊢; rw [ih]; ring

/-- The loop over the samples writes their fields one after the other, from
`p` on, as long as every sample passes the byte conversion. -/
theorem packSamples_ok (hw : w ≤ 16) (hfit : ∀ s ∈ samples, 8 ≤ w ∨ field 8 s.toInt < 2 ^ w) :
    ∀ {bb : BitBuffer} {p : Nat}, p + w * samples.length ≤ bb.currentSize →
      ∃ bb', packSamples w bb samples p = .ok (bb', p + w * samples.length) ∧
        bb'.currentSize = bb.currentSize ∧ bb'.bits = splice bb.bits p (sampleBits w samples) := by
  induction samples with
  | nil =>
    intro bb p _
    exact ⟨bb, by simp [packSamples], rfl, by simp [sampleBits]⟩
  | cons s rest ih =>
    intro bb p hp
    have hsize := bb.currentSize_le
    simp only [List.length_cons, Nat.mul_succ] at hp
    obtain ⟨bb₁, h₁, hsize₁, hbits₁⟩ :=
      @packSample_ok bb s p w hw (by omega) (hfit s (by simp))
    obtain ⟨bb₂, h₂, hsize₂, hbits₂⟩ :=
      @ih (fun s' hs' => hfit s' (by simp [hs'])) bb₁ (p + w) (by omega)
    refine ⟨bb₂, ?_, hsize₂.trans hsize₁, ?_⟩
    · simp only [packSamples, h₁, h₂, List.length_cons]
      congr 2
      ring
    · have hsplice := @splice_splice _ bb.bits (msbBits w (field w s.toInt)) (sampleBits w rest) p
        (by simp; omega)
      rw [length_msbBits] at hsplice
      rw [hbits₂, hbits₁, hsplice]
      rfl

/-- Below 8 bits, the loop asserts as soon as it meets a sample whose byte
conversion does not fit; the others before it pass. -/
theorem packSamples_error (hw0 : 0 < w) (hw : w < 8) (hbad : ∃ s ∈ samples, 2 ^ w ≤ field 8 s.toInt) :
    ∀ {bb : BitBuffer} {p : Nat}, p + w * samples.length ≤ bb.currentSize →
      packSamples w bb samples p = .error (.bitBuffer .valueExceedsCount) := by
  induction samples with
  | nil => simp at hbad
  | cons s rest ih =>
    intro bb p hp
    simp only [List.length_cons, Nat.mul_succ] at hp
    by_cases hs : 2 ^ w ≤ field 8 s.toInt
    · simp only [packSamples, packSample_error hw0 hw hs]
    · -- this sample passes; the bad one is further on
      obtain ⟨bb₁, h₁, hsize₁, -⟩ :=
        @packSample_ok bb s p w (by omega) (by omega) (.inr (not_le.mp hs))
      have hrest : ∃ s ∈ rest, 2 ^ w ≤ field 8 s.toInt := by
        obtain ⟨s', hs', hbad'⟩ := hbad
        rcases List.mem_cons.mp hs' with rfl | hs'
        · exact absurd hbad' hs
        · exact ⟨s', hs', hbad'⟩
      simp only [packSamples, h₁]
      exact ih hrest (by omega)

end Pack

section PackPrb

variable {prb : CompressedPrb} {samples : List Int16} {w : Nat}

/-- `compressed_prb_packer::pack` on a PRB of `CAPACITY_BITS` bits: the
fields of the 24 samples from bit 0 on, and `3 * iqWidth` octets used. The
fields end on an octet boundary, so no tail bits are cleared. -/
theorem pack_ok (hlen : samples.length = nofSubcarriersPerRb * 2) (hw : w ≤ maxIqWidth)
    (hsize : prb.data.currentSize = CompressedPrb.capacityBits)
    (hfit : ∀ s ∈ samples, 8 ≤ w ∨ field 8 s.toInt < 2 ^ w) :
    ∃ prb', pack prb samples w = .ok prb' ∧ prb'.compParam = prb.compParam ∧ prb'.bytesUsed = 3 * w ∧
      prb'.data.currentSize = prb.data.currentSize ∧
      prb'.data.bits = splice prb.data.bits 0 (sampleBits w samples) := by
  simp only [nofSubcarriersPerRb] at hlen
  simp only [maxIqWidth] at hw
  simp only [CompressedPrb.capacityBits, nofSubcarriersPerRb, maxIqWidth] at hsize
  obtain ⟨bb, hpack, hsize', hbits⟩ :=
    @packSamples_ok w samples hw hfit prb.data 0 (by rw [hlen]; omega)
  refine ⟨{ prb with data := bb, bytesUsed := 3 * w }, ?_, rfl, rfl, hsize', hbits⟩
  simp only [pack, hlen, nofSubcarriersPerRb, maxIqWidth, ne_eq, not_true_eq_false, ↓reduceIte,
    show ¬ w > 16 by omega, hpack, show (0 + w * 24) % 8 = 0 by omega, show 24 * w % 8 = 0 by omega,
    show 24 * w / 8 = 3 * w by omega, Nat.add_zero]

/-- Below 8 bits, `pack` asserts on any PRB holding a sample whose byte
conversion does not fit the width. -/
theorem pack_error (hlen : samples.length = nofSubcarriersPerRb * 2) (hw0 : 0 < w) (hw : w < 8)
    (hsize : prb.data.currentSize = CompressedPrb.capacityBits)
    (hbad : ∃ s ∈ samples, 2 ^ w ≤ field 8 s.toInt) :
    pack prb samples w = .error (.bitBuffer .valueExceedsCount) := by
  simp only [nofSubcarriersPerRb] at hlen
  simp only [CompressedPrb.capacityBits, nofSubcarriersPerRb, maxIqWidth] at hsize
  have herr := @packSamples_error w samples hw0 hw hbad prb.data 0
    (by rw [hlen]; omega)
  simp only [pack, hlen, nofSubcarriersPerRb, maxIqWidth, ne_eq, not_true_eq_false, ↓reduceIte,
    show ¬ w > 16 by omega, herr]

end PackPrb

/-! ## The BFP exponent -/

/-- The leading zeros of a number whose highest one is bit `k`. -/
theorem countLeadingZeros_eq {x k : Nat} (hlo : 2 ^ k ≤ x) (hhi : x < 2 ^ (k + 1)) :
    ∀ {n : Nat}, k < n → countLeadingZeros n x = n - 1 - k := by
  have htop : x.testBit k = true := by
    have hdiv : x / 2 ^ k = 1 := Nat.div_eq_of_lt_le (by simpa using hlo) (by rw [pow_succ] at hhi; omega)
    have := Nat.testBit_div_two_pow (n := k) x 0
    rw [hdiv, Nat.zero_add] at this
    simpa using this.symm
  intro n
  induction n with
  | zero => intro h; omega
  | succ n ih =>
    intro hk
    by_cases hn : n = k
    · -- the scan stops at bit `k`
      subst hn
      simp [countLeadingZeros, htop]
    · -- bit `n` is above the highest one
      have hzero : x.testBit n = false :=
        Nat.testBit_eq_false_of_lt (lt_of_lt_of_le hhi (Nat.pow_le_pow_right (by norm_num) (by omega)))
      simp only [countLeadingZeros, hzero, Bool.false_eq_true, ↓reduceIte, ih (by omega)]
      omega

section Exponent

variable {x w : Nat}

/-- `determine_exponent` in closed form, below `2 ^ 15`: no shift for zero,
and otherwise the bits above `w - 1` of the magnitude's highest one. -/
theorem determineExponent_eq (hw0 : 0 < w) (hw : w ≤ 16) (hx : x < 2 ^ 15) :
    determineExponent x w = .ok (if x = 0 then 0 else Nat.log 2 x + 2 - w) := by
  have hm : maxIqWidth = 16 := rfl
  have hk : x ≠ 0 → Nat.log 2 x < 15 := fun hx0 => Nat.log_lt_of_lt_pow hx0 hx
  -- `clz(x) - 16U - 1U` does not wrap below `2 ^ 15`
  have hlz : x ≠ 0 → (countLeadingZeros 32 x + 2 ^ 32 - 16 - 1) % 2 ^ 32 = 14 - Nat.log 2 x := by
    intro hx0
    have hclz : countLeadingZeros 32 x = 31 - Nat.log 2 x :=
      countLeadingZeros_eq (Nat.pow_log_le_self 2 hx0) (Nat.lt_pow_succ_log_self (by norm_num) x)
        (by have := hk hx0; omega)
    rw [hclz, show 31 - Nat.log 2 x + 2 ^ 32 - 16 - 1 = 14 - Nat.log 2 x + 2 ^ 32 by have := hk hx0; omega,
      Nat.add_mod_right]
    exact Nat.mod_eq_of_lt (by omega)
  unfold determineExponent
  dsimp only
  rw [hm]
  split_ifs with h₁ h₂ h₃ h₄ h₅ <;> first | omega | congr 1
  · -- a magnitude shifted by its leading zeros less the sign bit
    rw [hlz h₄]
    have := hk h₄
    omega
  · omega
  · -- no shift is allowed at 16 bits
    have := hk h₅
    omega

/-- The exponent is the least one that brings a magnitude below `2 ^ 15`
under `2 ^ (w - 1 + e)`. -/
theorem determineExponent_least (hw0 : 0 < w) (hw : w ≤ 16) (hx : x < 2 ^ 15) {e : Nat}
    (he : determineExponent x w = .ok e) :
    x < 2 ^ (w - 1 + e) ∧ ∀ e', x < 2 ^ (w - 1 + e') → e ≤ e' := by
  rw [determineExponent_eq hw0 hw hx, Except.ok.injEq] at he
  subst he
  by_cases hx0 : x = 0
  · simp [hx0]
  · have hlo := Nat.pow_log_le_self 2 hx0
    have hhi := Nat.lt_pow_succ_log_self (b := 2) (by norm_num) x
    simp only [hx0, ↓reduceIte]
    constructor
    · exact lt_of_lt_of_le hhi (Nat.pow_le_pow_right (by norm_num) (by omega))
    · intro e' he'
      have := (Nat.pow_lt_pow_iff_right (a := 2) (by norm_num)).mp (lt_of_le_of_lt hlo he')
      omega

/-- At `2 ^ 15` (all 24 samples `-32768`) the leading zeros less 17 wrap
around as an `unsigned`, and the exponent is 0. -/
theorem determineExponent_two_pow_fifteen (hw0 : 0 < w) (hw : w ≤ 16) :
    determineExponent (2 ^ 15) w = .ok 0 := by
  have hclz : countLeadingZeros 32 (2 ^ 15) = 16 :=
    countLeadingZeros_eq (k := 15) le_rfl (by norm_num) (by norm_num)
  have hm : maxIqWidth = 16 := rfl
  unfold determineExponent
  dsimp only
  rw [hm, hclz]
  -- `16 - 16U - 1U` is `UINT_MAX`, and the minimum is the whole `max_shift`
  split_ifs <;> first | omega | congr 1
  all_goals omega

end Exponent

/-! ## The samples of a PRB -/

section Samples

variable {q : List Int16} {s : Int16}

theorem le_maxElement (hs : s ∈ q) : s.toInt ≤ maxElement q := by
  induction q with
  | nil => simp at hs
  | cons x rest ih =>
    cases rest with
    | nil =>
      rw [List.mem_singleton.mp hs]
      rfl
    | cons y ys =>
      rcases List.mem_cons.mp hs with rfl | hs
      · exact le_max_left _ _
      · exact le_max_of_le_right (ih hs)

theorem minElement_le (hs : s ∈ q) : minElement q ≤ s.toInt := by
  induction q with
  | nil => simp at hs
  | cons x rest ih =>
    cases rest with
    | nil =>
      rw [List.mem_singleton.mp hs]
      rfl
    | cons y ys =>
      rcases List.mem_cons.mp hs with rfl | hs
      · exact min_le_left _ _
      · exact min_le_of_right_le (ih hs)

theorem maxElement_mem (hq : q ≠ []) : ∃ s ∈ q, s.toInt = maxElement q := by
  induction q with
  | nil => exact absurd rfl hq
  | cons x rest ih =>
    cases rest with
    | nil => exact ⟨x, by simp, rfl⟩
    | cons y ys =>
      obtain ⟨s, hs, hmax⟩ := ih (List.cons_ne_nil y ys)
      show ∃ s ∈ x :: y :: ys, s.toInt = max x.toInt (maxElement (y :: ys))
      rcases le_total x.toInt (maxElement (y :: ys)) with h | h
      · exact ⟨s, List.mem_cons_of_mem x hs, by rw [max_eq_right h, hmax]⟩
      · exact ⟨x, by simp, by rw [max_eq_left h]⟩

theorem minElement_mem (hq : q ≠ []) : ∃ s ∈ q, s.toInt = minElement q := by
  induction q with
  | nil => exact absurd rfl hq
  | cons x rest ih =>
    cases rest with
    | nil => exact ⟨x, by simp, rfl⟩
    | cons y ys =>
      obtain ⟨s, hs, hmin⟩ := ih (List.cons_ne_nil y ys)
      show ∃ s ∈ x :: y :: ys, s.toInt = min x.toInt (minElement (y :: ys))
      rcases le_total x.toInt (minElement (y :: ys)) with h | h
      · exact ⟨x, by simp, by rw [min_eq_left h]⟩
      · exact ⟨s, List.mem_cons_of_mem x hs, by rw [min_eq_right h, hmin]⟩

/-- `max_abs` as the integer `compress_prb_generic` computes, with the bounds
every `int16_t` sample gives it. -/
theorem maxAbs_cast (hq : q ≠ []) :
    (maxAbs q : Int) = max |maxElement q| (|minElement q| - 1) ∧
      -2 ^ 15 ≤ maxElement q ∧ maxElement q < 2 ^ 15 ∧ -2 ^ 15 ≤ minElement q ∧ minElement q < 2 ^ 15 := by
  obtain ⟨sM, -, hM⟩ := maxElement_mem hq
  obtain ⟨sm, -, hm⟩ := minElement_mem hq
  refine ⟨Int.toNat_of_nonneg (le_max_of_le_left (abs_nonneg _)), ?_, ?_, ?_, ?_⟩ <;>
    simp only [← hM, ← hm, Int16.le_toInt, Int16.toInt_lt]

/-- `max_abs` reaches `2 ^ 15` only on a PRB whose samples are all `-32768`. -/
theorem maxAbs_lt (hq : ∃ s ∈ q, s.toInt ≠ -2 ^ 15) : maxAbs q < 2 ^ 15 := by
  obtain ⟨s, hs, hne⟩ := hq
  have hq' : q ≠ [] := List.ne_nil_of_mem hs
  obtain ⟨hcast, hM₀, hM₁, hm₀, hm₁⟩ := maxAbs_cast hq'
  have hsM := le_maxElement hs
  have h₀ := Int16.le_toInt s
  zify
  rw [hcast, abs_eq_max_neg, abs_eq_max_neg]
  omega

theorem maxAbs_le : maxAbs q ≤ 2 ^ 15 := by
  by_cases hq : q = []
  · subst hq; decide
  · obtain ⟨hcast, hM₀, hM₁, hm₀, hm₁⟩ := maxAbs_cast hq
    zify
    rw [hcast, abs_eq_max_neg, abs_eq_max_neg]
    omega

/-- Every sample lies within `max_abs` of zero, one more below. -/
theorem mem_of_maxAbs_lt {N : Nat} (hs : s ∈ q) (h : maxAbs q < 2 ^ N) :
    -2 ^ N ≤ s.toInt ∧ s.toInt < 2 ^ N := by
  obtain ⟨hcast, -⟩ := maxAbs_cast (List.ne_nil_of_mem hs)
  have hsM := le_maxElement hs
  have hsm := minElement_le hs
  have h' : (maxAbs q : Int) < 2 ^ N := by exact_mod_cast h
  rw [hcast, abs_eq_max_neg, abs_eq_max_neg] at h'
  omega

end Samples

/-- Every sample shifted right by `e` lies in `[-2 ^ (w - 1), 2 ^ (w - 1))`:
the exponent brings the PRB to `w` bits. -/
def ExponentFits (w e : Nat) (q : List Int16) : Prop :=
  ∀ s ∈ q, -2 ^ (w - 1) ≤ s.toInt / 2 ^ e ∧ s.toInt / 2 ^ e < 2 ^ (w - 1)

instance (w e : Nat) (q : List Int16) : Decidable (ExponentFits w e q) :=
  inferInstanceAs (Decidable (∀ s ∈ q, _))

section ExponentChoice

variable {q : List Int16} {w e : Nat}

/-- The exponent `compress_prb_generic` takes fits the PRB, unless all its
samples are `-32768` and the width is below 16. -/
theorem exponent_fits (hw0 : 0 < w) (hw : w ≤ 16) (hq : w = 16 ∨ ∃ s ∈ q, s.toInt ≠ -2 ^ 15)
    (he : determineExponent (maxAbs q % 2 ^ 16) w = .ok e) : ExponentFits w e q := by
  rw [Nat.mod_eq_of_lt (lt_of_le_of_lt maxAbs_le (by norm_num))] at he
  intro s hs
  by_cases hlt : maxAbs q < 2 ^ 15
  · obtain ⟨hfit, -⟩ := determineExponent_least hw0 hw hlt he
    obtain ⟨hlo, hhi⟩ := mem_of_maxAbs_lt hs hfit
    exact ediv_two_pow_mem (by exact_mod_cast hlo) (by exact_mod_cast hhi)
  · -- at 16 bits, with no shift, every `int16_t` fits
    have hw16 : w = 16 := hq.resolve_right (fun h => hlt (maxAbs_lt h))
    subst hw16
    rw [show maxAbs q = 2 ^ 15 by have := maxAbs_le (q := q); omega,
      determineExponent_two_pow_fifteen hw0 hw, Except.ok.injEq] at he
    subst he
    simp only [pow_zero, Int.ediv_one]
    exact ⟨Int16.le_toInt s, Int16.toInt_lt s⟩

/-- No smaller exponent fits, but for a PRB whose samples all equal one
negative power of two: there `max_abs` counts `|min|` where `|min| - 1`
suffices. -/
theorem exponent_least (hw0 : 0 < w) (hw : w ≤ 16) (hq : q ≠ [])
    (he : determineExponent (maxAbs q % 2 ^ 16) w = .ok e) {e' : Nat} (he' : e' < e) :
    ¬ ExponentFits w e' q ∨ ∀ s ∈ q, s.toInt = -2 ^ (w - 1 + e') := by
  rw [Nat.mod_eq_of_lt (lt_of_le_of_lt maxAbs_le (by norm_num))] at he
  by_cases hlt : maxAbs q < 2 ^ 15
  · have hbig : 2 ^ (w - 1 + e') ≤ maxAbs q := by
      by_contra h
      have := (determineExponent_least hw0 hw hlt he).2 e' (not_le.mp h)
      omega
    obtain ⟨hcast, -⟩ := maxAbs_cast hq
    obtain ⟨sM, hsM, hM⟩ := maxElement_mem hq
    obtain ⟨sm, hsm, hm⟩ := minElement_mem hq
    have hbig' : (2 : Int) ^ (w - 1 + e') ≤ max |maxElement q| (|minElement q| - 1) := by
      rw [← hcast]; exact_mod_cast hbig
    have hmM : minElement q ≤ maxElement q := hM ▸ minElement_le hsM
    have hpow : (2 : Int) ^ (w - 1 + e') = 2 ^ (w - 1) * 2 ^ e' := pow_add _ _ _
    have he'pos : (0 : Int) < 2 ^ e' := by positivity
    rw [abs_eq_max_neg, abs_eq_max_neg] at hbig'
    by_cases hlow : minElement q < -2 ^ (w - 1 + e')
    · -- the smallest sample shifts below the range
      refine .inl fun hfit => ?_
      have := (hfit sm hsm).1
      rw [Int.le_ediv_iff_mul_le he'pos, hm] at this
      rw [hpow] at hlow
      linarith
    · by_cases hpos : 0 ≤ maxElement q
      · -- the largest sample shifts above the range
        refine .inl fun hfit => ?_
        have := (hfit sM hsM).2
        rw [Int.ediv_lt_iff_lt_mul he'pos, hM] at this
        have : (2 : Int) ^ (w - 1 + e') ≤ maxElement q := by omega
        rw [hpow] at this
        linarith
      · -- all samples are squeezed onto `-2 ^ (w - 1 + e')`
        refine .inr fun s hs => ?_
        have := le_maxElement hs
        have := minElement_le hs
        omega
  · have hmax : maxAbs q = 2 ^ 15 := by have := maxAbs_le (q := q); omega
    rw [hmax, determineExponent_two_pow_fifteen hw0 hw, Except.ok.injEq] at he
    omega

end ExponentChoice

/-! ## Compression and decompression of a PRB -/

/-- `determine_exponent` accepts every width from 1 to 16 and never shifts
by more than `16 - dataWidth`. -/
theorem determineExponent_ok {w : Nat} (hw0 : 0 < w) (hw : w ≤ maxIqWidth) (x : Nat) :
    ∃ e, determineExponent x w = .ok e ∧ e ≤ maxIqWidth - w := by
  unfold determineExponent
  simp only [show w ≠ 0 by omega, show ¬ w > maxIqWidth by omega, ↓reduceIte, Except.ok.injEq,
    exists_eq_left']
  omega

/-- A sample shifted right, stored back in an `int16_t`: the floor of its
quotient by `2 ^ e`, which always fits. -/
theorem toInt_shiftRight (s : Int16) (e : Nat) : (Int16.ofInt (s.toInt >>> e)).toInt = s.toInt / 2 ^ e := by
  have hpow : (2 : Int) ^ 15 ≤ 2 ^ (15 + e) := pow_le_pow_right₀ (by norm_num) (by omega)
  have := ediv_two_pow_mem (w := 16) (e := e) (x := s.toInt) (by have := Int16.le_toInt s; simp; omega)
    (by have := Int16.toInt_lt s; simp; omega)
  rw [Int.shiftRight_eq_div_pow, Nat.cast_pow, Nat.cast_ofNat]
  exact toInt_ofInt_of_mem this.1 this.2

/-- The fields the packer gets from `compress_prb_generic`: those of the
shifted samples. -/
theorem sampleBits_shifted (w e : Nat) (q : List Int16) :
    sampleBits w (q.map fun s : Int16 => Int16.ofInt (s.toInt >>> e)) =
      (q.map fun s : Int16 => s.toInt / 2 ^ e).flatMap fun x => msbBits w (field w x) := by
  simp only [sampleBits, List.flatMap_map, toInt_shiftRight]

section Codec

variable {prb : CompressedPrb} {q : List Int16} {w : Nat}

/-- What `decompress_prb_generic` reads from a PRB holding the fields of
`xs` from bit 0 on: each number times the scaler. -/
theorem decompressPrbGeneric_fields {prb' : CompressedPrb} {xs : List Int} (hw0 : 0 < w) (hw : w ≤ 16)
    (hlen : xs.length = nofSubcarriersPerRb * 2) (hsize : prb'.data.currentSize = CompressedPrb.capacityBits)
    (hrange : ∀ x ∈ xs, -2 ^ (w - 1) ≤ x ∧ x < 2 ^ (w - 1))
    (hbits : prb'.data.bits = splice prb.data.bits 0 (xs.flatMap fun x => msbBits w (field w x)))
    (hscaler : prb'.compParam.toNat < 15) :
    decompressPrbGeneric prb' w = .ok (xs.map fun x => x * 2 ^ prb'.compParam.toNat) := by
  have hdata := prb.data.currentSize_le
  have hread := @unpackSamples_fields prb' w hw0 hw xs 0 (prb.data.bits.drop (0 +
    (xs.flatMap fun x => msbBits w (field w x)).length))
    hrange (by rw [hsize, hlen]; simp [CompressedPrb.capacityBits, nofSubcarriersPerRb, maxIqWidth]; omega)
    (by rw [hbits, drop_splice (Nat.zero_le _)])
  have hscale : (Int16.ofInt ((1 : Int) <<< prb'.compParam.toNat)).toInt = 2 ^ prb'.compParam.toNat := by
    have hlt : (2 : Int) ^ prb'.compParam.toNat < 2 ^ 15 := pow_lt_pow_right₀ (by norm_num) hscaler
    have hpos : (0 : Int) < 2 ^ prb'.compParam.toNat := by positivity
    rw [Int.shiftLeft_eq, one_mul]
    exact toInt_ofInt_of_mem (by omega) hlt
  rw [hlen] at hread
  simp only [decompressPrbGeneric, hread, List.map_map]
  congr 1
  apply List.map_congr_left
  intro x hx
  obtain ⟨hlo, hhi⟩ := hrange x hx
  have hw' : (2 : Int) ^ (w - 1) ≤ 2 ^ 15 := pow_le_pow_right₀ (by norm_num) (by omega)
  simp only [Function.comp, toInt_ofInt_of_mem (x := x) (by omega) (by omega), hscale]

end Codec

/-! ## Block floating point -/

section Bfp

variable {prb : CompressedPrb} {q : List Int16} {w : Nat}

/-- `compress_prb_generic` once its exponent is known: the shifted samples
packed, the exponent stored. -/
theorem compressPrbGeneric_eq {e : Nat} (he : determineExponent (maxAbs q % 2 ^ 16) w = .ok e)
    (he8 : e < 2 ^ 8) :
    compressPrbGeneric prb q w =
      pack { prb with compParam := UInt8.ofNat e } (q.map fun s : Int16 => Int16.ofInt (s.toInt >>> e)) w := by
  simp only [compressPrbGeneric, he, UInt8.toNat_ofNat', Nat.mod_eq_of_lt he8]

theorem length_nofSamplesPerPrb (hlen : q.length = nofSamplesPerPrb) : q.length = nofSubcarriersPerRb * 2 := by
  rw [hlen]; rfl

/-- The BFP round trip, from 8 bits on: `compress_prb_generic` stores an
exponent that brings every sample to `w` bits, the least one but for a PRB
whose samples all equal one negative power of two, packs `3 * w` octets,
and `decompress_prb_generic` hands `to_float` every sample rounded down to a
multiple of `2 ^ exponent`. A PRB of 24 samples `-32768` is excluded below
16 bits. -/
theorem compressPrbGeneric_roundTrip (hw8 : 8 ≤ w) (hw : w ≤ maxIqWidth)
    (hsize : prb.data.currentSize = CompressedPrb.capacityBits) (hlen : q.length = nofSamplesPerPrb)
    (hq : w = 16 ∨ ∃ s ∈ q, s.toInt ≠ -2 ^ 15) :
    ∃ prb', compressPrbGeneric prb q w = .ok prb' ∧ prb'.bytesUsed = 3 * w ∧
      ExponentFits w prb'.compParam.toNat q ∧
      (∀ e' < prb'.compParam.toNat, ¬ ExponentFits w e' q ∨ ∀ s ∈ q, s.toInt = -2 ^ (w - 1 + e')) ∧
      decompressPrbGeneric prb' w =
        .ok (q.map fun s => s.toInt / 2 ^ prb'.compParam.toNat * 2 ^ prb'.compParam.toNat) := by
  have hw16 : w ≤ 16 := hw
  have hq0 : q ≠ [] := by
    intro h
    simp [h, nofSamplesPerPrb, nofSubcarriersPerRb] at hlen
  obtain ⟨e, he, hle⟩ := determineExponent_ok (by omega) hw (maxAbs q % 2 ^ 16)
  have he8 : e ≤ 8 := by simp only [maxIqWidth] at hle; omega
  have hfits := exponent_fits (by omega) hw16 hq he
  obtain ⟨prb', hpack, hparam, hbytes, hsize', hbits⟩ :=
    @pack_ok { prb with compParam := UInt8.ofNat e }
      (q.map fun s : Int16 => Int16.ofInt (s.toInt >>> e)) w
      (by rw [List.length_map, length_nofSamplesPerPrb hlen]) hw hsize (fun _ _ => .inl hw8)
  have hparam' : prb'.compParam.toNat = e := by
    rw [hparam, UInt8.toNat_ofNat', Nat.mod_eq_of_lt (by omega)]
  refine ⟨prb', by rw [compressPrbGeneric_eq he (by omega), hpack], hbytes, hparam' ▸ hfits, ?_, ?_⟩
  · rw [hparam']
    intro e' he'
    exact exponent_least (by omega) hw16 hq0 he he'
  · -- the packed fields are those of the quotients, which the unpacker reads back
    have hdec := @decompressPrbGeneric_fields prb w prb'
      (q.map fun s : Int16 => s.toInt / 2 ^ e) (by omega) hw16
      (by rw [List.length_map, length_nofSamplesPerPrb hlen]) (hsize'.trans hsize)
      (by
        intro x hx
        obtain ⟨s, hs, rfl⟩ := List.mem_map.mp hx
        exact hfits s hs)
      (by rw [hbits, sampleBits_shifted]) (by omega)
    rw [hdec, List.map_map, hparam']
    rfl

/-- At 9 bits, a PRB of 24 samples from `-1000` to `500`: exponent 7. -/
theorem compressPrbGeneric_roundTrip_nine :
    ∃ prb', compressPrbGeneric .empty (Int16.ofInt (-1000) :: Int16.ofInt 500 :: List.replicate 22 3) 9 = .ok prb' ∧
      prb'.bytesUsed = 27 ∧
      ExponentFits 9 prb'.compParam.toNat (Int16.ofInt (-1000) :: Int16.ofInt 500 :: List.replicate 22 3) ∧
      (∀ e' < prb'.compParam.toNat, ¬ ExponentFits 9 e' (Int16.ofInt (-1000) :: Int16.ofInt 500 :: List.replicate 22 3) ∨
        ∀ s ∈ Int16.ofInt (-1000) :: Int16.ofInt 500 :: List.replicate 22 3, s.toInt = -2 ^ (9 - 1 + e')) ∧
      decompressPrbGeneric prb' 9 =
        .ok ((Int16.ofInt (-1000) :: Int16.ofInt 500 :: List.replicate 22 3).map
          fun s => s.toInt / 2 ^ prb'.compParam.toNat * 2 ^ prb'.compParam.toNat) :=
  compressPrbGeneric_roundTrip (by decide) (by decide) rfl (by decide) (.inr (by decide))

/-- Below 8 bits `compress_prb_generic` aborts on every PRB with a negative
sample: the shifted sample stays negative, and converted to `uint8_t` it
exceeds the `w` bits `bit_buffer::insert` is asked to take. -/
theorem compressPrbGeneric_negative_sample_asserts (hw0 : 0 < w) (hw : w < 8)
    (hsize : prb.data.currentSize = CompressedPrb.capacityBits) (hlen : q.length = nofSamplesPerPrb)
    (hneg : ∃ s ∈ q, s.toInt < 0) (hq : ∃ s ∈ q, s.toInt ≠ -2 ^ 15) :
    compressPrbGeneric prb q w = .error (.bitBuffer .valueExceedsCount) := by
  obtain ⟨e, he, hle⟩ := determineExponent_ok hw0 (show w ≤ maxIqWidth by simp [maxIqWidth]; omega)
    (maxAbs q % 2 ^ 16)
  have hfits := exponent_fits hw0 (by omega) (.inr hq) he
  obtain ⟨s, hs, hs0⟩ := hneg
  obtain ⟨hlo, -⟩ := hfits s hs
  have hc : s.toInt / 2 ^ e < 0 := Int.ediv_neg_of_neg_of_pos hs0 (by positivity)
  have hpow : (2 : Int) ^ w = 2 * 2 ^ (w - 1) := by rw [← pow_succ', Nat.sub_add_cancel hw0]
  have hpow7 : (2 : Int) ^ w ≤ 2 ^ 7 := pow_le_pow_right₀ (by norm_num) (by omega)
  have hbad : 2 ^ w ≤ field 8 (Int16.ofInt (s.toInt >>> e)).toInt := by
    have hmod : s.toInt / 2 ^ e % 2 ^ 8 = s.toInt / 2 ^ e + 2 ^ 8 := by
      rw [← Int.add_emod_right]
      exact Int.emod_eq_of_lt (by norm_num; omega) (by norm_num; omega)
    zify
    rw [field_cast, toInt_shiftRight, hmod]
    norm_num
    omega
  rw [compressPrbGeneric_eq he (by simp only [maxIqWidth] at hle; omega)]
  exact pack_error (by rw [List.length_map, length_nofSamplesPerPrb hlen]) hw0 hw hsize
    ⟨_, List.mem_map_of_mem hs, hbad⟩

/-- At 4 bits, one sample `-1` among zeros is enough. -/
theorem compressPrbGeneric_negative_sample_asserts_four :
    compressPrbGeneric .empty (Int16.ofInt (-1) :: List.replicate 23 0) 4 =
      .error (.bitBuffer .valueExceedsCount) :=
  compressPrbGeneric_negative_sample_asserts (by decide) (by decide) rfl (by decide) (by decide) (by decide)

/-- The no-compression round trip: samples already in `w` bits come back
as they are, provided they are non-negative below 8 bits. -/
theorem noneCodec_roundTrip (hw0 : 0 < w) (hw : w ≤ maxIqWidth)
    (hsize : prb.data.currentSize = CompressedPrb.capacityBits) (hlen : q.length = nofSubcarriersPerRb * 2)
    (hrange : ∀ s ∈ q, -2 ^ (w - 1) ≤ s.toInt ∧ s.toInt < 2 ^ (w - 1))
    (hfit : 8 ≤ w ∨ ∀ s ∈ q, 0 ≤ s.toInt) :
    ∃ prb', compressPrbNone prb q w = .ok prb' ∧ prb'.bytesUsed = 3 * w ∧
      decompressPrbNone prb' w = .ok (q.map Int16.toInt) := by
  have hw16 : w ≤ 16 := hw
  have hbyte : ∀ s ∈ q, 8 ≤ w ∨ field 8 s.toInt < 2 ^ w := by
    intro s hs
    by_cases h8 : 8 ≤ w
    · exact .inl h8
    · -- a non-negative sample below `2 ^ (w - 1)` is its own byte
      refine .inr ?_
      have h0 := hfit.resolve_left h8 s hs
      have hhi := (hrange s hs).2
      have hpow : (2 : Int) ^ (w - 1) ≤ 2 ^ w := pow_le_pow_right₀ (by norm_num) (by omega)
      have hpow8 : (2 : Int) ^ (w - 1) ≤ 2 ^ 8 := pow_le_pow_right₀ (by norm_num) (by omega)
      zify
      rw [field_cast, Int.emod_eq_of_lt h0 (by omega)]
      omega
  obtain ⟨prb', hpack, -, hbytes, hsize', hbits⟩ := pack_ok hlen hw hsize hbyte
  refine ⟨prb', hpack, hbytes, ?_⟩
  have hread := @unpackSamples_fields prb' w (by omega) hw16 (q.map Int16.toInt) 0
    (prb.data.bits.drop (0 + (sampleBits w q).length))
    (by
      intro x hx
      obtain ⟨s, hs, rfl⟩ := List.mem_map.mp hx
      exact hrange s hs)
    (by rw [hsize'.trans hsize, List.length_map, hlen]; simp [CompressedPrb.capacityBits, nofSubcarriersPerRb, maxIqWidth]; omega)
    (by rw [hbits, drop_splice (Nat.zero_le _), sampleBits, List.flatMap_map])
  rw [List.length_map, hlen] at hread
  simp only [decompressPrbNone, hread, List.map_map]
  congr 1
  apply List.map_congr_left
  intro s _
  simp only [Function.comp, Int16.ofInt_toInt]

/-- At 4 bits, twelve samples 7 and twelve samples 2. -/
theorem noneCodec_roundTrip_four :
    ∃ prb', compressPrbNone .empty (List.replicate 12 (Int16.ofInt 7) ++ List.replicate 12 (Int16.ofInt 2)) 4 =
        .ok prb' ∧ prb'.bytesUsed = 12 ∧
      decompressPrbNone prb' 4 =
        .ok ((List.replicate 12 (Int16.ofInt 7) ++ List.replicate 12 (Int16.ofInt 2)).map Int16.toInt) :=
  noneCodec_roundTrip (by decide) (by decide) rfl (by decide)
    (by simp only [List.mem_append, List.mem_replicate]; rintro s (⟨-, rfl⟩ | ⟨-, rfl⟩) <;> decide)
    (.inr (by simp only [List.mem_append, List.mem_replicate]; rintro s (⟨-, rfl⟩ | ⟨-, rfl⟩) <;> decide))

/-- Below 8 bits the no-compression codec aborts on a negative sample too. -/
theorem noneCodec_negative_sample_asserts (hw0 : 0 < w) (hw : w < 8)
    (hsize : prb.data.currentSize = CompressedPrb.capacityBits) (hlen : q.length = nofSubcarriersPerRb * 2)
    {s : Int16} (hs : s ∈ q) (hlo : -2 ^ (w - 1) ≤ s.toInt) (hs0 : s.toInt < 0) :
    compressPrbNone prb q w = .error (.bitBuffer .valueExceedsCount) := by
  have hpow : (2 : Int) ^ w = 2 * 2 ^ (w - 1) := by rw [← pow_succ', Nat.sub_add_cancel hw0]
  have hpow7 : (2 : Int) ^ w ≤ 2 ^ 7 := pow_le_pow_right₀ (by norm_num) (by omega)
  have hbad : 2 ^ w ≤ field 8 s.toInt := by
    have hmod : s.toInt % 2 ^ 8 = s.toInt + 2 ^ 8 := by
      rw [← Int.add_emod_right]
      exact Int.emod_eq_of_lt (by norm_num; omega) (by norm_num; omega)
    zify
    rw [field_cast, hmod]
    norm_num
    omega
  exact pack_error hlen hw0 hw hsize ⟨s, hs, hbad⟩

/-- At 4 bits, one sample `-1` among zeros. -/
theorem noneCodec_negative_sample_asserts_four :
    compressPrbNone .empty (Int16.ofInt (-1) :: List.replicate 23 0) 4 = .error (.bitBuffer .valueExceedsCount) :=
  noneCodec_negative_sample_asserts (by decide) (by decide) rfl (by decide) List.mem_cons_self (by decide)
    (by decide)

end Bfp

end SrsRan.Ofh
