import SrsRan.Lib.BitString
import SrsRan.Lib.Fallible

/-!
`srsran::bit_buffer` (`adt/bit_buffer.h`), the packed bit store of the Open
Fronthaul IQ codecs, with the masks of `bounded_bitset.h` it builds on. A
bit buffer is a view of 8-bit words whose first `size()` bits are in use,
bit 0 being the most significant bit of word 0. `insert` and `extract` work
a word or two at a time with masks; read through `octetBits`, `insert` puts
a run of bits in place and `extract` reads one back, and that is all the
codecs above them rely on.
-/

namespace SrsRan

open BitString

/-- `mask_msb_zeros<Integer>(N)` for an integer of `bits` bits: the `N` most
significant bits clear, the others set. -/
def maskMsbZeros (bits n : Nat) : Nat :=
  if n = 0 then 2 ^ bits - 1 else if n = bits then 0 else (2 ^ bits - 1) >>> n

/-- `mask_lsb_ones<Integer>(N)`: the `N` least significant bits set. -/
def maskLsbOnes (bits n : Nat) : Nat := maskMsbZeros bits (bits - n)

/-- `mask_msb_ones<Integer>(N)`: the complement of `mask_msb_zeros`, within
the integer's `bits` bits. -/
def maskMsbOnes (bits n : Nat) : Nat := 2 ^ bits - 1 - maskMsbZeros bits n

theorem maskMsbZeros_eq {bits n : Nat} (h : n ≤ bits) : maskMsbZeros bits n = 2 ^ (bits - n) - 1 := by
  unfold maskMsbZeros
  split_ifs with h₀ h₁
  · rw [h₀, Nat.sub_zero]
  · simp [h₁]
  · apply Nat.eq_of_testBit_eq
    intro i
    rw [Nat.testBit_shiftRight, Nat.testBit_two_pow_sub_one, Nat.testBit_two_pow_sub_one]
    simp only [decide_eq_decide]
    omega

theorem maskLsbOnes_eq {bits n : Nat} (h : n ≤ bits) : maskLsbOnes bits n = 2 ^ n - 1 := by
  rw [maskLsbOnes, maskMsbZeros_eq (Nat.sub_le _ _), Nat.sub_sub_self h]

theorem maskMsbOnes_eq {bits n : Nat} (h : n ≤ bits) :
    maskMsbOnes bits n = 2 ^ bits - 2 ^ (bits - n) := by
  have hle : 2 ^ (bits - n) ≤ 2 ^ bits := Nat.pow_le_pow_right (by norm_num) (Nat.sub_le _ _)
  have hpos : 0 < 2 ^ (bits - n) := Nat.two_pow_pos _
  rw [maskMsbOnes, maskMsbZeros_eq h]
  omega

/-- How an `srsran_assert` of `insert` or `extract` aborts. -/
inductive BitBufferError
  /-- `count <= bits_per_word` fails. -/
  | countExceedsWord
  /-- `value_ < (1U << count)` fails. -/
  | valueExceedsCount
  /-- `startpos + count <= size()` fails. -/
  | rangeExceedsSize
  /-- `value_ <= mask_lsb_ones<word_t>(count)` fails. -/
  | valueExceedsWord
  deriving DecidableEq, Repr

/-- A bit buffer: the words of its view and the number of bits in use. The
constructor asserts that the words in use lie in the view. -/
structure BitBuffer where
  buffer : List UInt8
  currentSize : Nat
  nofWords_le : (currentSize + 7) / 8 ≤ buffer.length

namespace BitBuffer

/-- `calculate_nof_words`. -/
def calculateNofWords (nofBits : Nat) : Nat := (nofBits + (8 - 1)) / 8

/-- The word at index `i`, as the number an expression over it is computed on. -/
def word (b : BitBuffer) (i : Nat) : Nat := (b.buffer.getD i 0).toNat

/-- `buffer[i] = x`: the assignment keeps the word's 8 low bits. -/
def setWord (b : BitBuffer) (i x : Nat) : BitBuffer where
  buffer := b.buffer.set i (UInt8.ofNat x)
  currentSize := b.currentSize
  nofWords_le := by simpa using b.nofWords_le

/-- `bit_buffer::insert`: puts the `count` low bits of `value_` at bit
`startpos`. -/
def insert (b : BitBuffer) (value startpos count : Nat) : Except BitBufferError BitBuffer :=
  if count > 8 then .error .countExceedsWord
  else if ¬ value < 2 ^ count then .error .valueExceedsCount
  else if startpos + count > b.currentSize then .error .rangeExceedsSize
  else
    let startWord := startpos / 8
    let startMod := startpos % 8
    let value' := value % 2 ^ 8
    if ¬ value ≤ maskLsbOnes 8 count then .error .valueExceedsWord
    -- the start bit is aligned with the beginning of a word
    else if startMod = 0 then
      .ok (b.setWord startWord
        ((b.word startWord &&& maskMsbZeros 8 count) ||| (value' <<< (8 - count))))
    -- the insertion only affects one word
    else if startMod + count ≤ 8 then
      .ok (b.setWord startWord
        ((b.word startWord &&& (maskMsbOnes 8 startMod ||| maskLsbOnes 8 (8 - startMod - count))) |||
          (value' <<< (8 - startMod - count))))
    else
      let b' := b.setWord startWord
        ((b.word startWord &&& maskMsbOnes 8 startMod) ||| (value' >>> (startMod + count - 8)))
      .ok (b'.setWord (startWord + 1)
        ((b.word (startWord + 1) &&& maskMsbZeros 8 (startMod + count - 8)) |||
          (value' <<< (2 * 8 - startMod - count))))

/-- `bit_buffer::extract<Integer>` for the default `Integer = uint8_t`: the
`count` bits from `startpos` on, as the low bits of the result. -/
def extract (b : BitBuffer) (startpos count : Nat) : Except BitBufferError Nat :=
  if count > 8 then .error .countExceedsWord
  else if startpos + count > b.currentSize then .error .rangeExceedsSize
  else
    let startWord := startpos / 8
    let startMod := startpos % 8
    if startMod = 0 then .ok (b.word startWord >>> (8 - count))
    else if startMod + count ≤ 8 then
      .ok ((b.word startWord >>> (8 - startMod - count)) &&& maskLsbOnes 8 count)
    else
      -- two words concatenated in a 32-bit register
      let word := (b.word startWord <<< 8) ||| b.word (startWord + 1)
      .ok ((word >>> (2 * 8 - startMod - count)) &&& maskLsbOnes 32 count)

/-! ## The bits of a buffer -/

/-- The bits of the view, most significant bit of each word first. -/
def bits (b : BitBuffer) : List Bool := octetBits b.buffer

@[simp] theorem length_bits (b : BitBuffer) : b.bits.length = 8 * b.buffer.length := by
  simp [bits]

theorem currentSize_le (b : BitBuffer) : b.currentSize ≤ 8 * b.buffer.length := by
  have := b.nofWords_le
  omega

@[simp] theorem setWord_currentSize (b : BitBuffer) (i x : Nat) :
    (b.setWord i x).currentSize = b.currentSize := rfl

@[simp] theorem setWord_buffer (b : BitBuffer) (i x : Nat) :
    (b.setWord i x).buffer = b.buffer.set i (UInt8.ofNat x) := rfl

theorem word_eq_getElem {b : BitBuffer} {i : Nat} (hi : i < b.buffer.length) :
    b.word i = b.buffer[i].toNat := by
  simp [word, List.getD_eq_getElem?_getD, hi]

theorem word_lt (b : BitBuffer) (i : Nat) : b.word i < 2 ^ 8 := (b.buffer.getD i 0).toNat_lt

@[simp] theorem word_setWord_ne (b : BitBuffer) {i j : Nat} (h : i ≠ j) (x : Nat) :
    (b.setWord i x).word j = b.word j := by
  simp [word, setWord, List.getD_eq_getElem?_getD, h]

/-- The bits of an octet after the assignment of a value of more than 8
bits: its 8 low bits. -/
theorem msbBits_ofNat (x : Nat) : msbBits 8 (UInt8.ofNat x).toNat = msbBits 8 x := by
  rw [UInt8.toNat_ofNat', msbBits_mod]

/-- Word `i` of the buffer spliced: the run `[8 * i + a, 8 * i + a + m.length)`
of the buffer's bits becomes `m`. -/
theorem bits_setWord {b : BitBuffer} {i a x : Nat} {m : List Bool}
    (hi : i < b.buffer.length) (ha : a + m.length ≤ 8)
    (hx : msbBits 8 x = (msbBits 8 (b.word i)).take a ++ m ++ (msbBits 8 (b.word i)).drop (a + m.length)) :
    (b.setWord i x).bits = b.bits.take (8 * i + a) ++ m ++ b.bits.drop (8 * i + a + m.length) := by
  rw [word_eq_getElem hi] at hx
  exact octetBits_set_splice hi ha (by rw [msbBits_ofNat, hx])

/-- Words `i` and `i + 1` spliced, the first from bit `a` to its end and the
second from its start: one run of the buffer's bits, across the boundary. -/
theorem bits_setWord_setWord {b : BitBuffer} {i a x₀ x₁ : Nat} {m₀ m₁ : List Bool}
    (hi : i + 1 < b.buffer.length) (ha : a + m₀.length = 8) (hm₁ : m₁.length ≤ 8)
    (hx₀ : msbBits 8 x₀ =
      (msbBits 8 (b.word i)).take a ++ m₀ ++ (msbBits 8 (b.word i)).drop (a + m₀.length))
    (hx₁ : msbBits 8 x₁ = (msbBits 8 (b.word (i + 1))).take 0 ++ m₁ ++
      (msbBits 8 (b.word (i + 1))).drop (0 + m₁.length)) :
    ((b.setWord i x₀).setWord (i + 1) x₁).bits =
      b.bits.take (8 * i + a) ++ (m₀ ++ m₁) ++ b.bits.drop (8 * i + a + (m₀.length + m₁.length)) := by
  have e₀ := bits_setWord (Nat.lt_of_succ_lt hi) ha.le hx₀
  have e₁ := bits_setWord (b := b.setWord i x₀) (a := 0) (m := m₁) (by simpa using hi) (by simpa using hm₁)
    (by rwa [word_setWord_ne _ (Nat.ne_of_lt (Nat.lt_succ_self i))])
  have hlen : (b.bits.take (8 * i + a) ++ m₀).length = 8 * (i + 1) + 0 := by
    have := b.currentSize_le
    simp only [List.length_append, List.length_take, length_bits]
    omega
  rw [e₁, e₀, List.append_assoc _ m₀, ← List.append_assoc, List.take_left' hlen, ← List.drop_drop,
    List.drop_left' hlen, List.drop_drop, ← List.append_assoc, List.append_assoc _ m₀, Nat.add_assoc]

/-! ## `insert` -/

section Insert

variable {b b' : BitBuffer} {value startpos count : Nat}

/-- `insert` succeeds exactly when its first three assertions hold; the fourth
is implied by the second. -/
theorem insert_ok_iff :
    (∃ b', b.insert value startpos count = .ok b') ↔
      count ≤ 8 ∧ value < 2 ^ count ∧ startpos + count ≤ b.currentSize := by
  constructor
  · rintro ⟨b', h⟩
    simp only [insert] at h
    split_ifs at h with h₁ h₂ h₃
    all_goals first | exact ⟨by omega, by omega, by omega⟩
  · rintro ⟨h₁, h₂, h₃⟩
    have h₄ : value ≤ maskLsbOnes 8 count := by rw [maskLsbOnes_eq h₁]; omega
    unfold insert
    simp only [show ¬ count > 8 by omega, h₂, show ¬ startpos + count > b.currentSize by omega,
      h₄, not_true_eq_false, ↓reduceIte]
    split_ifs <;> exact ⟨_, rfl⟩

theorem insert_currentSize (h : b.insert value startpos count = .ok b') :
    b'.currentSize = b.currentSize := by
  simp only [insert] at h
  split_ifs at h <;> cases h <;> rfl

/-- A run of zero bits: the buffer is unchanged. -/
theorem insert_count_zero (h : b.insert value startpos 0 = .ok b') : b'.bits = b.bits := by
  have hv : value = 0 := by
    obtain ⟨-, hv, -⟩ := insert_ok_iff.mp ⟨b', h⟩
    simpa using hv
  subst hv
  have hself : ∀ i, b.setWord i (b.word i) = b := by
    intro i
    by_cases hi : i < b.buffer.length
    · cases b
      simp only [setWord, BitBuffer.mk.injEq, and_true]
      rw [word_eq_getElem hi, UInt8.ofNat_toNat, List.set_getElem_self]
    · cases b
      simp only [setWord, BitBuffer.mk.injEq, and_true]
      exact List.set_eq_of_length_le (by simpa using hi)
  have hw := b.word_lt (startpos / 8)
  simp only [insert, maskMsbZeros_eq (Nat.zero_le 8), maskMsbOnes_eq (show startpos % 8 ≤ 8 by omega),
    maskLsbOnes_eq (show 8 - startpos % 8 - 0 ≤ 8 by omega), Nat.zero_mod] at h
  split_ifs at h with h₁ h₂ h₃ h₄ h₅ h₆ <;> cases h
  · rw [Nat.and_two_pow_sub_one_eq_mod, Nat.mod_eq_of_lt hw, Nat.zero_shiftLeft, Nat.or_zero, hself]
  · have hmask : (2 ^ 8 - 2 ^ (8 - startpos % 8) ||| 2 ^ (8 - startpos % 8 - 0) - 1) = 2 ^ 8 - 1 := by
      apply Nat.eq_of_testBit_eq
      intro j
      rw [Nat.testBit_or, testBit_two_pow_sub_two_pow (by omega), Nat.testBit_two_pow_sub_one,
        Nat.testBit_two_pow_sub_one]
      by_cases hj : j < 8 - startpos % 8 <;> simp [hj] <;> omega
    rw [hmask, Nat.and_two_pow_sub_one_eq_mod, Nat.mod_eq_of_lt hw, Nat.zero_shiftLeft, Nat.or_zero,
      hself]
  · omega

/-- What `insert` does to the bits: the run `[startpos, startpos + count)`
becomes the `count` bits of `value`, and every other bit of the view stays. -/
theorem insert_bits (h : b.insert value startpos count = .ok b') :
    b'.bits = splice b.bits startpos (msbBits count value) := by
  rw [splice, length_msbBits]
  obtain ⟨hc, hv, hp⟩ := insert_ok_iff.mp ⟨b', h⟩
  rcases Nat.eq_zero_or_pos count with rfl | hpos
  · rw [insert_count_zero h, msbBits_zero, List.append_nil, Nat.add_zero, List.take_append_drop]
  have hsize := b.currentSize_le
  have hval : value % 2 ^ 8 = value :=
    Nat.mod_eq_of_lt (lt_of_lt_of_le hv (Nat.pow_le_pow_right (by norm_num) hc))
  have hsplit : startpos = 8 * (startpos / 8) + startpos % 8 := (Nat.div_add_mod _ _).symm
  have hw : startpos / 8 < b.buffer.length := by omega
  simp only [insert, show ¬ count > 8 by omega, hv, show ¬ startpos + count > b.currentSize by omega,
    show value ≤ maskLsbOnes 8 count by rw [maskLsbOnes_eq hc]; omega, not_true_eq_false,
    ↓reduceIte, hval] at h
  split_ifs at h with h₁ h₂
  · -- aligned: the field opens word `startpos / 8`
    cases h
    have hx := msbBits_splice (x := b.word (startpos / 8)) (y := value) (show 0 + count ≤ 8 by omega)
      (.inl rfl)
    simp only [Nat.sub_zero, Nat.sub_self, Nat.zero_or, List.take_zero, List.nil_append,
      Nat.zero_add] at hx
    rw [← maskMsbZeros_eq hc] at hx
    have := bits_setWord (a := 0) (m := msbBits count value) hw (by simpa using hc)
      (by rw [length_msbBits, List.take_zero, List.nil_append, Nat.zero_add, hx])
    rw [this, length_msbBits, Nat.add_zero, show 8 * (startpos / 8) = startpos by omega]
  · -- the field lies inside word `startpos / 8`
    cases h
    have hx := msbBits_splice (x := b.word (startpos / 8)) (y := value) h₂ (.inr hv)
    rw [← maskMsbOnes_eq (by omega), ← maskLsbOnes_eq (show 8 - startpos % 8 - count ≤ 8 by omega)] at hx
    have := bits_setWord (m := msbBits count value) hw (by simpa using h₂)
      (by rw [length_msbBits]; exact hx)
    rw [this, length_msbBits, ← hsplit]
  · -- the field straddles words `startpos / 8` and `startpos / 8 + 1`: its
    -- `8 - startpos % 8` high bits close the first, the others open the second
    cases h
    have hw₁ : startpos / 8 + 1 < b.buffer.length := by omega
    have hhigh : value >>> (startpos % 8 + count - 8) < 2 ^ (8 - startpos % 8) := by
      rw [Nat.shiftRight_eq_div_pow, Nat.div_lt_iff_lt_mul (Nat.two_pow_pos _), ← pow_add]
      exact lt_of_lt_of_le hv (Nat.pow_le_pow_right (by norm_num) (by omega))
    have hlen₁ : ((msbBits count value).take (8 - startpos % 8)).length = 8 - startpos % 8 := by
      simp; omega
    have hlen₂ : ((msbBits count value).drop (8 - startpos % 8)).length =
        startpos % 8 + count - 8 := by
      simp; omega
    have hx₀ : msbBits 8 ((b.word (startpos / 8) &&& maskMsbOnes 8 (startpos % 8)) |||
          (value >>> (startpos % 8 + count - 8))) =
        (msbBits 8 (b.word (startpos / 8))).take (startpos % 8) ++
          (msbBits count value).take (8 - startpos % 8) ++
          (msbBits 8 (b.word (startpos / 8))).drop
            (startpos % 8 + ((msbBits count value).take (8 - startpos % 8)).length) := by
      have := msbBits_splice (x := b.word (startpos / 8)) (y := value >>> (startpos % 8 + count - 8))
        (show startpos % 8 + (8 - startpos % 8) ≤ 8 by omega) (.inr hhigh)
      rw [show 8 - startpos % 8 - (8 - startpos % 8) = 0 by omega, Nat.pow_zero, Nat.sub_self,
        Nat.or_zero, Nat.shiftLeft_zero] at this
      rw [hlen₁, take_msbBits (n := count) (by omega), maskMsbOnes_eq (by omega), Nat.shiftRight_eq_div_pow,
        show count - (8 - startpos % 8) = startpos % 8 + count - 8 by omega]
      rw [Nat.shiftRight_eq_div_pow] at this
      exact this
    have hx₁ : msbBits 8 ((b.word (startpos / 8 + 1) &&& maskMsbZeros 8 (startpos % 8 + count - 8)) |||
          (value <<< (2 * 8 - startpos % 8 - count))) =
        (msbBits 8 (b.word (startpos / 8 + 1))).take 0 ++
          (msbBits count value).drop (8 - startpos % 8) ++
          (msbBits 8 (b.word (startpos / 8 + 1))).drop
            (0 + ((msbBits count value).drop (8 - startpos % 8)).length) := by
      have := msbBits_splice (x := b.word (startpos / 8 + 1)) (y := value)
        (show 0 + (startpos % 8 + count - 8) ≤ 8 by omega) (.inl rfl)
      simp only [Nat.sub_zero, Nat.sub_self, Nat.zero_or] at this
      rw [hlen₂, drop_msbBits (n := count) (by omega), maskMsbZeros_eq (by omega),
        show count - (8 - startpos % 8) = startpos % 8 + count - 8 by omega,
        show 2 * 8 - startpos % 8 - count = 8 - (startpos % 8 + count - 8) by omega]
      exact this
    rw [bits_setWord_setWord hw₁ (by omega) (by omega) hx₀ hx₁, List.take_append_drop, hlen₁, hlen₂,
      show 8 * (startpos / 8) + startpos % 8 = startpos by omega,
      show 8 - startpos % 8 + (startpos % 8 + count - 8) = count by omega]
end Insert

/-! ## `extract` -/

section Extract

variable {b : BitBuffer} {startpos count : Nat}

/-- The bits from bit `o` of word `i` on. -/
theorem bits_drop {i o : Nat} (hi : i < b.buffer.length) (ho : o ≤ 8) :
    b.bits.drop (8 * i + o) = msbBits (8 - o) (b.word i) ++ octetBits (b.buffer.drop (i + 1)) := by
  rw [word_eq_getElem hi]
  exact drop_octetBits (List.getElem?_eq_getElem hi) ho

/-- `extract` reads the run `[startpos, startpos + count)` of the buffer's
bits, most significant first. -/
theorem extract_eq (hc : count ≤ 8) (hp : startpos + count ≤ b.currentSize) :
    b.extract startpos count = .ok (ofMsbBits ((b.bits.drop startpos).take count)) := by
  have hsize := b.currentSize_le
  have hsplit : 8 * (startpos / 8) + startpos % 8 = startpos := Nat.div_add_mod _ _
  simp only [extract, show ¬ count > 8 by omega, show ¬ startpos + count > b.currentSize by omega,
    ↓reduceIte, maskLsbOnes_eq hc, maskLsbOnes_eq (show count ≤ 32 by omega),
    Nat.and_two_pow_sub_one_eq_mod, Nat.shiftRight_eq_div_pow]
  rcases Nat.eq_zero_or_pos count with rfl | hpos
  · -- nothing to read
    have hw := b.word_lt (startpos / 8)
    split_ifs <;> simp only [List.take_zero, ofMsbBits_nil, Nat.pow_zero, Nat.mod_one, Nat.sub_zero,
      Nat.div_eq_of_lt hw]
  have hw : startpos / 8 < b.buffer.length := by omega
  have hw₀ := b.word_lt (startpos / 8)
  have hd : b.bits.drop startpos =
      msbBits (8 - startpos % 8) (b.word (startpos / 8)) ++ octetBits (b.buffer.drop (startpos / 8 + 1)) := by
    rw [← bits_drop hw (by omega), hsplit]
  rw [hd]
  split_ifs with h₁ h₂
  · -- aligned: the top `count` bits of the word
    rw [List.take_append_of_le_length (by simp; omega), h₁, take_msbBits hc, ofMsbBits_msbBits,
      Nat.mod_eq_of_lt]
    rw [Nat.div_lt_iff_lt_mul (Nat.two_pow_pos _), ← pow_add, Nat.add_sub_cancel' hc]
    exact hw₀
  · -- inside one word
    rw [List.take_append_of_le_length (by simp; omega), take_msbBits (by omega), ofMsbBits_msbBits,
      Nat.sub_right_comm]
  · -- across two words, read as one 16-bit number
    have hw₁ : startpos / 8 + 1 < b.buffer.length := by omega
    have hnext : octetBits (b.buffer.drop (startpos / 8 + 1)) =
        msbBits 8 (b.word (startpos / 8 + 1)) ++ octetBits (b.buffer.drop (startpos / 8 + 1 + 1)) := by
      rw [List.drop_eq_getElem_cons hw₁, octetBits_cons, word_eq_getElem hw₁]
    rw [hnext, ← List.append_assoc,
      ← msbBits_two_pow_mul_add _ _ _ _ (b.word_lt _), List.take_append_of_le_length (by simp; omega),
      take_msbBits (by omega), ofMsbBits_msbBits, ← Nat.shiftLeft_add_eq_or_of_lt (b.word_lt _),
      Nat.shiftLeft_eq, Nat.mul_comm (b.word _),
      show 8 - startpos % 8 + 8 - count = 2 * 8 - startpos % 8 - count by omega]

end Extract

end BitBuffer

end SrsRan
