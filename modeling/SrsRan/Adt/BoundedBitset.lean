import SrsRan.Support.BitBuffer

/-!
`bounded_bitset<N, LowestInfoBitIsMSB>` (`adt/bounded_bitset.h`): up to `N`
bits in `max_nof_words_()` 64-bit words, of which the first `nof_words_()`
hold the `size()` bits in use. Bit `i` of the information is bit
`get_bitidx_(i)` of the storage, which is `i` or, when the lowest
information bit is the most significant, `size() - 1 - i`.

Modelled here: the storage, the size, `resize`, the bit accessors,
`push_back`, `extract` and the conversions to integers. `unsigned` locals are
32 bits wide, and the model keeps their wrap where it can occur; a shift by
the width of its operand or more is undefined behaviour, and an error of the
model.
-/

namespace SrsRan.Adt

/-- `bits_per_word`: the width of `word_t = uint64_t`. -/
def bitsPerWord : Nat := 64

/-- `max_nof_words_()`. -/
def maxNofWords (N : Nat) : Nat := (N + bitsPerWord - 1) / bitsPerWord

/-- `divide_ceil(num, den)`. -/
def divideCeil (num den : Nat) : Nat := (num + (den - 1)) / den

/-- The assertions of `bounded_bitset`. -/
inductive BitsetAssertion
  /-- "ERROR: new size='{}' exceeds bitset capacity='{}'" -/
  | sizeExceedsCapacity
  /-- "ERROR: index='{}' is out-of-bounds for bitset of size='{}'" -/
  | indexOutOfBounds
  /-- "The number of bits (i.e., {}) exceeds the destination bit-width (i.e., {})." -/
  | extractWidth
  /-- "The start position (i.e., {}) plus the number of bits (i.e., {}) exceed the current size (i.e., {})" -/
  | extractRange
  /-- "ERROR: cannot convert bitset of size='{}' to uint64_t" -/
  | notOneWord
  /-- "ERROR: Provided mask='{}' does not fit in bitset of size='{}'" -/
  | maskTooLarge
  /-- "ERROR: provided array size='{}' is too small" -/
  | packedBitsTooSmall
  /-- Not an assertion: a shift by the width of its operand or more, which
  is undefined behaviour. -/
  | undefinedShift
  deriving DecidableEq, Repr

/-- The storage of a `bounded_bitset`: the words and the size in use, which
the constructor and `resize` keep within `N`. -/
structure BoundedBitset (N : Nat) (lowestInfoBitIsMSB : Bool) where
  buffer : List UInt64
  curSize : Nat
  length_buffer : buffer.length = maxNofWords N
  curSize_le : curSize ≤ N

namespace BoundedBitset

variable {N : Nat} {msb : Bool}

/-- `bounded_bitset()`: no bits, zeroed storage. -/
def empty : BoundedBitset N msb where
  buffer := List.replicate (maxNofWords N) 0
  curSize := 0
  length_buffer := List.length_replicate
  curSize_le := Nat.zero_le N

/-- `size()`. -/
def size (b : BoundedBitset N msb) : Nat := b.curSize

/-- `nof_words_()`: the words holding the bits in use. -/
def nofWords (b : BoundedBitset N msb) : Nat := divideCeil b.size bitsPerWord

/-- `buffer[i]`. -/
def word (b : BoundedBitset N msb) (i : Nat) : UInt64 := b.buffer.getD i 0

/-- `buffer[i] = w`. -/
def setWord (b : BoundedBitset N msb) (i : Nat) (w : UInt64) : BoundedBitset N msb :=
  { b with
    buffer := b.buffer.set i w
    length_buffer := by rw [List.length_set]; exact b.length_buffer }

/-! ### Bits -/

/-- `get_bitidx_(bitpos)`: where information bit `bitpos` is stored. -/
def getBitidx (b : BoundedBitset N msb) (bitpos : Nat) : Nat := if msb then b.size - 1 - bitpos else bitpos

/-- `maskbit(pos)`. -/
def maskbit (pos : Nat) : UInt64 := 1 <<< UInt64.ofNat (pos % bitsPerWord)

/-- `test_(bitpos)`. -/
def testBit (b : BoundedBitset N msb) (bitpos : Nat) : Bool :=
  let bitidx := b.getBitidx bitpos
  (b.word (bitidx / bitsPerWord) &&& maskbit bitidx) != 0

/-- `set_(bitpos)`. -/
def setBit (b : BoundedBitset N msb) (bitpos : Nat) : BoundedBitset N msb :=
  let bitidx := b.getBitidx bitpos
  b.setWord (bitidx / bitsPerWord) (b.word (bitidx / bitsPerWord) ||| maskbit bitidx)

/-- `reset_(bitpos)`. -/
def resetBit (b : BoundedBitset N msb) (bitpos : Nat) : BoundedBitset N msb :=
  let bitidx := b.getBitidx bitpos
  b.setWord (bitidx / bitsPerWord) (b.word (bitidx / bitsPerWord) &&& ~~~(maskbit bitidx))

/-- `test(pos)`. -/
def test (b : BoundedBitset N msb) (pos : Nat) : Except BitsetAssertion Bool :=
  if pos < b.size then .ok (b.testBit pos) else .error .indexOutOfBounds

/-- `set(pos, val)`. -/
def set (b : BoundedBitset N msb) (pos : Nat) (val : Bool) : Except BitsetAssertion (BoundedBitset N msb) :=
  if pos < b.size then .ok (if val then b.setBit pos else b.resetBit pos) else .error .indexOutOfBounds

/-! ### Size -/

/-- `sanitize_()`: the bits of the last word beyond the size cleared. -/
def sanitize (b : BoundedBitset N msb) : BoundedBitset N msb :=
  let n := b.size % bitsPerWord
  let nwords := b.nofWords
  if n ≠ 0 ∧ nwords > 0 then
    b.setWord (nwords - 1) (b.word (nwords - 1) &&& ~~~((~~~(0 : UInt64)) <<< UInt64.ofNat n))
  else b

/-- `count` words from `start` on set to zero. -/
def zeroWords (b : BoundedBitset N msb) (start : Nat) : (count : Nat) → BoundedBitset N msb
  | 0 => b
  | count + 1 => (b.setWord start 0).zeroWords (start + 1) count

/-- `resize(new_size)`: the last word sanitized, and the words gained or lost
zeroed. -/
def resize (b : BoundedBitset N msb) (newSize : Nat) : Except BitsetAssertion (BoundedBitset N msb) :=
  if h : newSize ≤ N then
    if newSize = b.curSize then .ok b
    else
      let prevNofWords := b.nofWords
      let b' := sanitize { b with curSize := newSize, curSize_le := h }
      let newNofWords := b'.nofWords
      .ok (b'.zeroWords (min prevNofWords newNofWords) (max prevNofWords newNofWords - min prevNofWords newNofWords))
  else .error .sizeExceedsCapacity

/-! ### Integers -/

/-- The loop of `push_back(val, nof_bits)` writing the new bits, most
significant first. -/
def pushBackBits (val : Nat) (nofBits bitpos : Nat) (b : BoundedBitset N msb) :
    (bitIndex : Nat) → Except BitsetAssertion (BoundedBitset N msb)
  | 0 => .ok b
  | k + 1 =>
    let bitIndex := nofBits - (k + 1)
    match b.set (bitpos + bitIndex) ((val >>> (nofBits - 1 - bitIndex)) &&& 1 == 1) with
    | .error e => .error e
    | .ok b => pushBackBits val nofBits bitpos b k

/-- The loop of `push_back(val, nof_bits)` that, when the lowest information
bit is the most significant, moves the old bits to the front. -/
def pushBackShift (nofBits : Nat) (b : BoundedBitset N msb) (bitpos : Nat) :
    (count : Nat) → Except BitsetAssertion (BoundedBitset N msb)
  | 0 => .ok b
  | k + 1 =>
    let bitIndex := bitpos - (k + 1)
    match b.test (bitIndex + nofBits) with
    | .error e => .error e
    | .ok v =>
      match b.set bitIndex v with
      | .error e => .error e
      | .ok b => pushBackShift nofBits b bitpos k

/-- `push_back(val, nof_bits)`: `nof_bits` more bits, those of `val` from the
most significant down. -/
def pushBack (b : BoundedBitset N msb) (val nofBits : Nat) : Except BitsetAssertion (BoundedBitset N msb) :=
  let bitpos := b.size
  match b.resize (b.size + nofBits) with
  | .error e => .error e
  | .ok b =>
    let shifted := if msb then pushBackShift nofBits b bitpos bitpos else .ok b
    match shifted with
    | .error e => .error e
    | .ok b => pushBackBits val nofBits bitpos b nofBits

/-- The loop of `extract(startpos, nof_bits)`: for each bit set,
`val |= 1U << (nof_bits - 1 - bit_index)`, an `unsigned` shift. -/
def extractLoop (b : BoundedBitset N msb) (startpos nofBits : Nat) (val : Nat) :
    (count : Nat) → Except BitsetAssertion Nat
  | 0 => .ok val
  | k + 1 =>
    let bitIndex := nofBits - (k + 1)
    match b.test (startpos + bitIndex) with
    | .error e => .error e
    | .ok false => extractLoop b startpos nofBits val k
    | .ok true =>
      if nofBits - 1 - bitIndex ≥ 32 then .error .undefinedShift
      else extractLoop b startpos nofBits (val ||| 1 <<< (nofBits - 1 - bitIndex)) k

/-- `extract<Integer>(startpos, nof_bits)` for an `Integer` of `sizeofInteger`
octets: the bits from `startpos`, the first one most significant. -/
def extract (b : BoundedBitset N msb) (sizeofInteger startpos nofBits : Nat) : Except BitsetAssertion Nat :=
  if nofBits > sizeofInteger * 8 then .error .extractWidth
  else if startpos + nofBits > b.size then .error .extractRange
  else extractLoop b startpos nofBits 0 nofBits

/-- `to_uint64()`. -/
def toUint64 (b : BoundedBitset N msb) : Except BitsetAssertion UInt64 :=
  if b.nofWords = 1 then .ok (b.word 0) else .error .notOneWord

/-- `from_uint64(v)`; the bound `1U << size()` is an `unsigned` shift. -/
def fromUint64 (b : BoundedBitset N msb) (v : UInt64) : Except BitsetAssertion (BoundedBitset N msb) :=
  if b.nofWords ≠ 1 then .error .notOneWord
  else if b.size ≥ 32 then .error .undefinedShift
  else if ¬ v.toNat < 1 <<< b.size then .error .maskTooLarge
  else .ok (b.setWord 0 v)

/-- The LSB-first loop of `to_packed_bits`: `nof_steps` integers from each
word, shifted by `j * steps_per_word`. -/
def packedBitsLsb (b : BoundedBitset N msb) (stepsPerWord integerMask lastWordSteps : Nat) : List Nat :=
  (List.range b.nofWords).flatMap fun i =>
    let nofSteps := if i = b.nofWords - 1 then lastWordSteps else stepsPerWord
    (List.range nofSteps).map fun j => (b.word i).toNat >>> (j * stepsPerWord) &&& integerMask

/-- The MSB-first loop of `to_packed_bits`: the words from the last, the
lowest one shifted up to the top first. That shift is by 64 when the size is
a multiple of 64. -/
def packedBitsMsb (b : BoundedBitset N msb) (stepsPerWord bitsPerInteger integerMask lastWordSteps : Nat) :
    Except BitsetAssertion (List Nat) :=
  if b.nofWords > 0 ∧ b.size % bitsPerWord = 0 then .error .undefinedShift
  else
    .ok <| (List.range b.nofWords).flatMap fun i =>
      let w := b.word (b.nofWords - i - 1)
      let (w, nofSteps) :=
        if i = b.nofWords - 1 then (w <<< UInt64.ofNat (bitsPerWord - b.size % bitsPerWord), lastWordSteps)
        else (w, stepsPerWord)
      (List.range nofSteps).map fun j => w.toNat >>> (bitsPerWord - (j + 1) * bitsPerInteger) &&& integerMask

/-- `to_packed_bits<UnsignedInteger>(packed_bits)` for an integer of
`sizeofInteger` octets (1, 2, 4 or 8) and a span of `packedBitsSize`
entries: the integers written and the count returned. -/
def toPackedBits (b : BoundedBitset N msb) (sizeofInteger packedBitsSize : Nat) :
    Except BitsetAssertion (List Nat × Nat) :=
  let stepsPerWord := 8 / sizeofInteger
  let bitsPerInteger := sizeofInteger * 8
  let integerMask := maskLsbOnes bitsPerWord bitsPerInteger
  let lastWordSteps := divideCeil (b.size % bitsPerWord) bitsPerInteger
  let nofWords := b.nofWords % 2 ^ 32
  -- `unsigned` arithmetic
  let nofIntegersPacked := ((nofWords + 2 ^ 32 - 1) % 2 ^ 32 * stepsPerWord + lastWordSteps) % 2 ^ 32
  if packedBitsSize < nofIntegersPacked then .error .packedBitsTooSmall
  else if !msb then .ok (b.packedBitsLsb stepsPerWord integerMask lastWordSteps, nofIntegersPacked)
  else (b.packedBitsMsb stepsPerWord bitsPerInteger integerMask lastWordSteps).map (·, nofIntegersPacked)

end BoundedBitset

end SrsRan.Adt
