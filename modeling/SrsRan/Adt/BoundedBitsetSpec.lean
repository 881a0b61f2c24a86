import SrsRan.Adt.BoundedBitset

/-!
`to_packed_bits` on a bitset whose size is a multiple of 64. The last word
is then full, but `last_word_steps = divide_ceil(size() % 64, bits)` is 0:
the LSB-first loop takes no integer from it and the count returned is one
word's worth short of `divide_ceil(size(), bits)`.
-/

namespace SrsRan.Adt

namespace BoundedBitset

variable {N : Nat} {msb : Bool}

theorem divideCeil_zero {den : Nat} (h : 0 < den) : divideCeil 0 den = 0 := by
  unfold divideCeil
  exact Nat.div_eq_of_lt (by omega)

theorem nofWords_of_size {b : BoundedBitset N msb} {k : Nat} (hsize : b.size = bitsPerWord * k) : b.nofWords = k := by
  unfold nofWords divideCeil
  rw [hsize]
  simp only [bitsPerWord]
  omega

/-- The LSB-first loop reads no word at or beyond the last one when the last
one gives no integer. -/
theorem packedBitsLsb_congr {b b' : BoundedBitset N msb} {steps mask : Nat} (hn : b'.nofWords = b.nofWords)
    (hw : ∀ i < b.nofWords - 1, b'.word i = b.word i) :
    b'.packedBitsLsb steps mask 0 = b.packedBitsLsb steps mask 0 := by
  unfold packedBitsLsb
  rw [hn]
  apply List.flatMap_congr
  intro i hi
  rw [List.mem_range] at hi
  by_cases hlast : i = b.nofWords - 1
  · simp [hlast]
  · simp only [hlast, ↓reduceIte, hw i (by omega)]

/-- On a bitset of `64 * k` bits, `k ≥ 1`, and for every integer width,
LSB-first `to_packed_bits` returns `(k - 1) * steps_per_word`, one word's
`steps_per_word` integers fewer than `divide_ceil(size(), bits_per_integer)`,
and what it writes does not depend on the last word. -/
theorem toPackedBits_drops_last_word (b : BoundedBitset N false) {k : Nat} (hk : 0 < k)
    (hsize : b.size = bitsPerWord * k) (hk32 : bitsPerWord * k < 2 ^ 32) {sizeofInteger : Nat}
    (hs : sizeofInteger = 1 ∨ sizeofInteger = 2 ∨ sizeofInteger = 4 ∨ sizeofInteger = 8)
    {packedBitsSize : Nat} (henough : (k - 1) * (8 / sizeofInteger) ≤ packedBitsSize) :
    ∃ written, b.toPackedBits sizeofInteger packedBitsSize = .ok (written, (k - 1) * (8 / sizeofInteger)) ∧
      (k - 1) * (8 / sizeofInteger) + 8 / sizeofInteger = divideCeil b.size (sizeofInteger * 8) ∧
      ∀ b' : BoundedBitset N false, b'.size = b.size → (∀ i < k - 1, b'.word i = b.word i) →
        b'.toPackedBits sizeofInteger packedBitsSize = .ok (written, (k - 1) * (8 / sizeofInteger)) := by
  have hsteps : 8 / sizeofInteger ≤ 8 := Nat.div_le_self 8 sizeofInteger
  have hbits : 0 < sizeofInteger * 8 := by omega
  -- the count: `(nof_words - 1) * steps_per_word + 0`, with no `unsigned` wrap
  have hcount : ∀ b' : BoundedBitset N false, b'.size = bitsPerWord * k →
      ((b'.nofWords % 2 ^ 32 + 2 ^ 32 - 1) % 2 ^ 32 * (8 / sizeofInteger) +
        divideCeil (b'.size % bitsPerWord) (sizeofInteger * 8)) % 2 ^ 32 = (k - 1) * (8 / sizeofInteger) := by
    intro b' hb'
    have hmod : b'.size % bitsPerWord = 0 := by rw [hb']; simp [bitsPerWord]
    rw [nofWords_of_size hb', hmod, divideCeil_zero hbits, Nat.add_zero,
      Nat.mod_eq_of_lt (show k < 2 ^ 32 by simp only [bitsPerWord] at hk32; omega),
      show k + 2 ^ 32 - 1 = k - 1 + 2 ^ 32 by omega, Nat.add_mod_right,
      Nat.mod_eq_of_lt (show k - 1 < 2 ^ 32 by simp only [bitsPerWord] at hk32; omega)]
    simp only [bitsPerWord] at hk32
    exact Nat.mod_eq_of_lt (calc
      (k - 1) * (8 / sizeofInteger) ≤ (k - 1) * 8 := Nat.mul_le_mul_left _ hsteps
      _ < 2 ^ 32 := by omega)
  have hpack : ∀ b' : BoundedBitset N false, b'.size = bitsPerWord * k →
      b'.toPackedBits sizeofInteger packedBitsSize =
        .ok (b'.packedBitsLsb (8 / sizeofInteger) (maskLsbOnes bitsPerWord (sizeofInteger * 8)) 0,
          (k - 1) * (8 / sizeofInteger)) := by
    intro b' hb'
    have hmod : b'.size % bitsPerWord = 0 := by rw [hb']; simp [bitsPerWord]
    unfold toPackedBits
    dsimp only
    rw [hcount b' hb', if_neg (Nat.not_lt.mpr henough), hmod, divideCeil_zero hbits]
    rfl
  refine ⟨_, hpack b hsize, ?_, fun b' hb' hw => ?_⟩
  · -- `divide_ceil(64 k, 8 s) = k * (8 / s)` for each width
    rw [hsize]
    unfold divideCeil
    simp only [bitsPerWord]
    rcases hs with rfl | rfl | rfl | rfl <;> omega
  · rw [hpack b' (hb'.trans hsize)]
    congr 2
    apply packedBitsLsb_congr (by rw [nofWords_of_size (hb'.trans hsize), nofWords_of_size hsize])
    rw [nofWords_of_size hsize]
    exact hw

/-- A full 64-bit bitset packed into octets: nothing is written and 0 is
returned, where `divide_ceil(64, 8) = 8`. -/
theorem toPackedBits_drops_last_word_octets :
    ∃ written, (⟨[0xFFFFFFFFFFFFFFFF], 64, rfl, le_refl 64⟩ : BoundedBitset 64 false).toPackedBits 1 8 =
        .ok (written, (1 - 1) * (8 / 1)) ∧
      (1 - 1) * (8 / 1) + 8 / 1 = divideCeil (⟨[0xFFFFFFFFFFFFFFFF], 64, rfl, le_refl 64⟩ : BoundedBitset 64 false).size
        (1 * 8) ∧
      ∀ b' : BoundedBitset 64 false, b'.size = (⟨[0xFFFFFFFFFFFFFFFF], 64, rfl, le_refl 64⟩ : BoundedBitset 64 false).size →
        (∀ i < 1 - 1, b'.word i = (⟨[0xFFFFFFFFFFFFFFFF], 64, rfl, le_refl 64⟩ : BoundedBitset 64 false).word i) →
        b'.toPackedBits 1 8 = .ok (written, (1 - 1) * (8 / 1)) :=
  toPackedBits_drops_last_word _ (by decide) rfl (by decide) (.inl rfl) (by decide)

end BoundedBitset

end SrsRan.Adt
