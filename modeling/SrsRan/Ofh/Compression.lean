import SrsRan.Support.BitBuffer

/-!
The Open Fronthaul IQ codecs of `lib/ofh/compression`: block floating point
(`iq_compression_bfp_impl`, O-RAN.WG4.CUS Annex A.1.2) and no compression
(`iq_compression_none_impl`), on one PRB of 12 subcarriers, with the PRB
packer and unpacker they share and the quantizer's sign extension.

An `int16_t` is an `Int16`. Arithmetic is done on `Int`, as C++ does after
promoting to `int`, and stored back with `Int16.ofInt`, which keeps the 16
low bits. The float side of the codecs (`quantize_input`, `to_fixed_point`,
`to_float`) is left out: decompression is modelled up to the integer each
sample hands to `quantizer::to_float`.
-/

namespace SrsRan.Ofh

/-- `NOF_SUBCARRIERS_PER_RB`. -/
def nofSubcarriersPerRb : Nat := 12

/-- `iq_compression_bfp_impl::NOF_SAMPLES_PER_PRB`: I and Q of every subcarrier. -/
def nofSamplesPerPrb : Nat := 2 * nofSubcarriersPerRb

/-- `MAX_IQ_WIDTH`. -/
def maxIqWidth : Nat := 16

/-- How a codec call aborts: an `srsran_assert` of its own or of the bit
buffer. -/
inductive CompressionError
  /-- `bit_buffer::insert` or `extract` asserts. -/
  | bitBuffer (e : BitBufferError)
  /-- "Compressed data must contain 12 IQ samples" -/
  | sampleCountMismatch
  /-- "Requested width can not exceed 16" -/
  | widthExceeds16
  /-- "Invalid data width" -/
  | invalidDataWidth
  /-- "Passed IQ data width exceeds 16 bits" -/
  | dataWidthExceeds16
  deriving DecidableEq, Repr

/-- `compressed_prb`: the packed samples of one PRB in a bit buffer of
`CAPACITY_BITS` bits, the number of octets used and the compression
parameter (the BFP exponent). -/
structure CompressedPrb where
  data : BitBuffer
  bytesUsed : Nat
  compParam : UInt8

/-- `compressed_prb::CAPACITY_BITS`. -/
def CompressedPrb.capacityBits : Nat := nofSubcarriersPerRb * 2 * maxIqWidth

/-- `compressed_prb()`: a bit buffer of `CAPACITY_BITS` bits over zeroed
storage, no octets used, parameter 0. -/
def CompressedPrb.empty : CompressedPrb where
  data := ⟨List.replicate (capacityBits / 8) 0, capacityBits, by decide⟩
  bytesUsed := 0
  compParam := 0

/-- `uint8_t x = v` for an `int` or `int16_t` value: its 8 low bits. -/
def toUint8 (v : Int) : Nat := (v % 2 ^ 8).toNat

/-! ## The quantizer -/

/-- `quantizer::sign_extend` of a quantizer of `bitWidth` bits: the low
`bitWidth` bits of `value` read as a two's complement number. -/
def signExtend (bitWidth : Nat) (value : Int16) : Int16 :=
  let nbitsShiftSign := 16 - bitWidth
  let shifted := Int16.ofInt (value.toInt <<< nbitsShiftSign)
  Int16.ofInt (shifted.toInt >>> nbitsShiftSign)

/-! ## Packing and unpacking a PRB -/

/-- The `while` loop of `compressed_prb_packer::pack` for one sample: its
`leftToPack` low bits go into the buffer at `startPos`, at most a byte at a
time from the top. The loop turns at most `leftToPack` times, which `fuel`
bounds. Returns the buffer and the next position. -/
def packSample (bb : BitBuffer) : (fuel : Nat) → (sample : Int16) → (startPos leftToPack : Nat) →
    Except CompressionError (BitBuffer × Nat)
  | 0, _, startPos, _ => .ok (bb, startPos)
  | fuel + 1, sample, startPos, leftToPack =>
    if leftToPack = 0 then .ok (bb, startPos)
    else
      let nbits := min 8 leftToPack
      -- `uint8_t masked = sample`, replaced by the byte on top when more
      -- than a byte is left, `sample` then keeping only the bits below it
      let (masked, sample) : Nat × Int16 :=
        if leftToPack > 8 then
          (toUint8 (sample.toInt >>> (leftToPack - 8)),
            Int16.ofInt (sample.toInt % 2 ^ (leftToPack - 8)))
        else (toUint8 sample.toInt, sample)
      match bb.insert masked startPos nbits with
      | .error e => .error (.bitBuffer e)
      | .ok bb => packSample bb fuel sample (startPos + nbits) (leftToPack - nbits)

/-- The `for` loop of `compressed_prb_packer::pack` over the samples. -/
def packSamples (iqWidth : Nat) : BitBuffer → List Int16 → Nat →
    Except CompressionError (BitBuffer × Nat)
  | bb, [], startPos => .ok (bb, startPos)
  | bb, sample :: rest, startPos =>
    match packSample bb iqWidth sample startPos iqWidth with
    | .error e => .error e
    | .ok (bb, startPos) => packSamples iqWidth bb rest startPos

/-- `compressed_prb_packer::pack`: the samples' `iqWidth`-bit fields one
after the other from bit 0, the rest of the last octet cleared, and the
octets used stored. -/
def pack (prb : CompressedPrb) (compressedIq : List Int16) (iqWidth : Nat) :
    Except CompressionError CompressedPrb :=
  if compressedIq.length ≠ nofSubcarriersPerRb * 2 then .error .sampleCountMismatch
  else if iqWidth > maxIqWidth then .error .widthExceeds16
  else
    match packSamples iqWidth prb.data compressedIq 0 with
    | .error e => .error e
    | .ok (bb, startPos) =>
      -- clear the tail bits of the last octet used
      let tail :=
        if startPos % 8 ≠ 0 then bb.insert 0 startPos (8 - startPos % 8) else .ok bb
      match tail with
      | .error e => .error (.bitBuffer e)
      | .ok bb =>
        .ok { prb with
              data := bb
              bytesUsed := compressedIq.length * iqWidth / 8 +
                if compressedIq.length * iqWidth % 8 ≠ 0 then 1 else 0 }

/-- The loop of `compressed_prb_unpacker::unpack`: a byte at a time while
more than a byte is left, each shifted to the top of what is left, then the
last bits or-ed in. At most `length` turns, which `fuel` bounds. -/
def unpackLoop (bb : BitBuffer) : (fuel : Nat) → (value : Int16) → (offset bitsLeftToRead : Nat) →
    Except CompressionError Int16
  | 0, value, _, _ => .ok value
  | fuel + 1, value, offset, bitsLeftToRead =>
    if bitsLeftToRead = 0 then .ok value
    else if bitsLeftToRead > 8 then
      match bb.extract offset 8 with
      | .error e => .error (.bitBuffer e)
      | .ok byte =>
        -- `value = extract(...)`, then `value <<= ...`
        let value := Int16.ofInt ((Int16.ofNat byte).toInt <<< (bitsLeftToRead - 8))
        unpackLoop bb fuel value (offset + 8) (bitsLeftToRead - 8)
    else
      match bb.extract offset bitsLeftToRead with
      | .error e => .error (.bitBuffer e)
      | .ok bits => .ok (value ||| Int16.ofNat bits)

/-- `compressed_prb_unpacker::unpack`: the `length` bits from `offset` on. -/
def unpack (prb : CompressedPrb) (offset length : Nat) : Except CompressionError Int16 :=
  unpackLoop prb.data length 0 offset length

/-- The samples of a PRB, `dataWidth` bits each, sign extended: `re` and
`im` of each subcarrier in turn, as both decompressors read them. -/
def unpackSamples (prb : CompressedPrb) (dataWidth : Nat) : Nat → Nat → Except CompressionError (List Int16)
  | 0, _ => .ok []
  | n + 1, readPos =>
    match unpack prb readPos dataWidth with
    | .error e => .error e
    | .ok value =>
      match unpackSamples prb dataWidth n (readPos + dataWidth) with
      | .error e => .error e
      | .ok rest => .ok (signExtend dataWidth value :: rest)

/-! ## Block floating point -/

/-- `__builtin_clz` over `bits` bits: the zeros above the highest one. -/
def countLeadingZeros : (bits : Nat) → Nat → Nat
  | 0, _ => 0
  | bits + 1, x => if x.testBit bits then 0 else countLeadingZeros bits x + 1

/-- `iq_compression_bfp_impl::determine_exponent`: the shift that brings a
magnitude `x` to `dataWidth` bits, sign included. The leading zeros are
counted on 32 bits and `- 16U - 1U` is unsigned arithmetic. -/
def determineExponent (x dataWidth : Nat) : Except CompressionError Nat :=
  if dataWidth = 0 then .error .invalidDataWidth
  else if dataWidth > maxIqWidth then .error .dataWidthExceeds16
  else
    let maxShift := maxIqWidth - dataWidth
    let lzWithoutSign :=
      if x > 0 ∧ maxShift > 0 then (countLeadingZeros 32 x + 2 ^ 32 - 16 - 1) % 2 ^ 32 else maxShift
    let rawExp : Int := min maxShift lzWithoutSign
    .ok (max 0 ((maxIqWidth - dataWidth : Nat) - rawExp)).toNat

/-- The larger of the samples, `*std::max_element`. -/
def maxElement : List Int16 → Int
  | [] => 0
  | [x] => x.toInt
  | x :: rest => max x.toInt (maxElement rest)

/-- The smaller of the samples, `*std::min_element`. -/
def minElement : List Int16 → Int
  | [] => 0
  | [x] => x.toInt
  | x :: rest => min x.toInt (minElement rest)

/-- `max_abs` of `compress_prb_generic`: `std::max(std::abs(max), std::abs(min) - 1)`. -/
def maxAbs (inputQuantized : List Int16) : Nat :=
  (max |maxElement inputQuantized| (|minElement inputQuantized| - 1)).toNat

/-- `iq_compression_bfp_impl::compress_prb_generic`: the exponent of the PRB
from its largest magnitude, every sample shifted right by it, the exponent
stored as the compression parameter and the shifted samples packed. The span
holds `NOF_SAMPLES_PER_PRB` samples. -/
def compressPrbGeneric (prb : CompressedPrb) (inputQuantized : List Int16) (dataWidth : Nat) :
    Except CompressionError CompressedPrb :=
  match determineExponent (maxAbs inputQuantized % 2 ^ 16) dataWidth with
  | .error e => .error e
  | .ok exp =>
    let exponent := UInt8.ofNat exp
    let compressedSamples := inputQuantized.map fun q : Int16 => Int16.ofInt (q.toInt >>> exponent.toNat)
    pack { prb with compParam := exponent } compressedSamples dataWidth

/-- `iq_compression_bfp_impl::decompress_prb_generic`, up to `to_float`: each
sample sign extended and multiplied by `scaler = 1 << exponent`, an
`int16_t`. -/
def decompressPrbGeneric (prb : CompressedPrb) (dataWidth : Nat) : Except CompressionError (List Int) :=
  let exponent := prb.compParam
  let scaler := Int16.ofInt ((1 : Int) <<< exponent.toNat)
  match unpackSamples prb dataWidth (nofSubcarriersPerRb * 2) 0 with
  | .error e => .error e
  | .ok samples => .ok (samples.map fun s => s.toInt * scaler.toInt)

/-! ## No compression -/

/-- `iq_compression_none_impl::compress` on one PRB, from the quantized
samples on: they are packed as they are. -/
def compressPrbNone (prb : CompressedPrb) (quantized : List Int16) (dataWidth : Nat) :
    Except CompressionError CompressedPrb :=
  pack prb quantized dataWidth

/-- `iq_compression_none_impl::decompress` on one PRB, up to `to_float`. -/
def decompressPrbNone (prb : CompressedPrb) (dataWidth : Nat) : Except CompressionError (List Int) :=
  match unpackSamples prb dataWidth (nofSubcarriersPerRb * 2) 0 with
  | .error e => .error e
  | .ok samples => .ok (samples.map Int16.toInt)

end SrsRan.Ofh
