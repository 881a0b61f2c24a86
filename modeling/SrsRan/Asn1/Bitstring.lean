import SrsRan.Asn1.Integer

/-!
Bit strings (X.691 16): the length determinant `pack_length` and
`unpack_length` of `asn1_utils.cpp` (10.9), the `bitstring_utils` that
`bitstring<LB, UB, ext, aligned>::pack` and `unpack` call, and the class's
octet buffer.

The two sides choose the length prefix differently. `pack_length_prefix`
writes `len - lb` in `ceilf(log2(ub - lb))` bits whenever `ub` is not
`UINT32_MAX`; `unpack_length_prefix` reads it with the bounded
`unpack_length`, which reads `ceilf(log2f(ub - lb + 1))` bits below 64K and
the unconstrained determinant from 64K on. For `SIZE(1..2)` the writer
sends no length bits and the reader takes the first bit of the string as
the length.
-/

namespace SrsRan

open BinaryFloat BitString

/-- `ASN_16K`. -/
def asn16K : Nat := 16384

/-- `std::numeric_limits<uint32_t>::max()`. -/
def uint32Max : Nat := 2 ^ 32 - 1

/-- `(uint32_t)ceilf(log2(x))` for an integer `x`: `log2` is the double
precision one, and its result is converted to `float` for `ceilf`. -/
def ceilLog2 (libm : Libm) (x : Nat) : Nat :=
  (⌈roundBinary 24 (libm.log2 x)⌉).toNat

/-! ## The length determinant -/

/-- `pack_length(bref, val, aligned)`: below 128 one octet, below 16K two
octets flagged `10`; the aligned variant starts on an octet and also takes
the 16K fragments up to 64K. -/
def packLength (bref : BitWriter) (val : Nat) (aligned : Bool) : Except AsnError BitWriter :=
  if !aligned then
    if val < 128 then BitRef.pack bref (UInt64.ofNat val) 8
    else if val < asn16K then do
      let bref ← BitRef.pack bref 2 2
      BitRef.pack bref (UInt64.ofNat val) 14
    else .error (.code .srsasnErrorEncodeFail)
  else if val > asn64K then .error (.code .srsasnErrorEncodeFail)
  else
    let bref := bref.alignBytesZero
    if val < 128 then BitRef.pack bref (UInt64.ofNat val) 8
    else if val < asn16K then do
      let bref ← BitRef.pack bref 2 2
      BitRef.pack bref (UInt64.ofNat val) 14
    else do
      let bref ← BitRef.pack bref 3 2
      let m := val / asn16K
      let bref ← BitRef.pack bref (UInt64.ofNat m) 6
      BitRef.pack bref (UInt64.ofNat (val - m * asn16K)) 16

/-- `unpack_length(val, bref, aligned)` into a `uint32_t`. The flags are
read into a `bool`; the aligned variant does not read 16K fragments. -/
def unpackLength (bref : BitReader) (aligned : Bool) : Except AsnError (Nat × BitReader) :=
  if !aligned then do
    let (ext, bref) ← CbitRef.unpack bref 8 1
    if ext = 0 then CbitRef.unpack bref 32 7
    else do
      let (ext, bref) ← CbitRef.unpack bref 8 1
      if ext = 0 then CbitRef.unpack bref 32 14
      else .error (.code .srsasnErrorDecodeFail)
  else do
    let bref ← CbitRef.alignBytes bref
    let (val, bref) ← CbitRef.unpack bref 32 8
    if val < 128 then pure (val, bref)
    else if val - 128 < 64 then do
      let (valOctet2, bref) ← CbitRef.unpack bref 32 8
      pure (((val - 128) <<< 8) + valOctet2, bref)
    else .error (.code .srsasnErrorDecodeFail)

/-- `unpack_length(n, bref, lb, ub, aligned)`, the overload with bounds,
into a `uint32_t`: the constrained whole number below 64K, the
unconstrained determinant from there on. -/
def unpackLengthBounded (libm : Libm) (bref : BitReader) (lb ub : Nat) (aligned : Bool) :
    Except AsnError (Nat × BitReader) :=
  if ub ≥ asn64K then unpackLength bref aligned
  else unpackConstrainedWholeNumber libm 32 bref lb ub aligned

/-! ## The bit string object -/

/-- A `bitstring`: `nof_bits` bits in `ceil_frac(nof_bits, 8)` octets, bit
`i` at weight `2 ^ (i % 8)` of octet `i / 8`. -/
structure Bitstring where
  octets : List UInt8
  nofBits : Nat
  length_octets : octets.length = ceilFrac nofBits 8

namespace Bitstring

/-- `resize`, which clears every octet. -/
def resize (newSize : Nat) : Bitstring :=
  ⟨List.replicate (ceilFrac newSize 8) 0, newSize, List.length_replicate⟩

/-- `get`. -/
def get (s : Bitstring) (idx : Nat) : Bool :=
  (s.octets.getD (idx / 8) 0).toNat.testBit (idx % 8)

/-- The bits of the string, `get 0` first. -/
def bits (s : Bitstring) : List Bool :=
  (List.range s.nofBits).map s.get

/-- A write of `buf[i]` through `data()`. -/
def setOctet (s : Bitstring) (i : Nat) (v : UInt8) : Bitstring :=
  ⟨s.octets.set i v, s.nofBits, by rw [List.length_set, s.length_octets]⟩

end Bitstring

namespace BitstringUtils

/-- `pack_length_prefix`: the extension bit, then nothing for a fixed size,
the unconstrained determinant (unaligned) past the bounds or for an
unbounded string, and else `len - lb` in `ceilf(log2(ub - lb))` bits. -/
def packLengthPrefix (libm : Libm) (bref : BitWriter) (len lb ub : Nat) (hasExt isAligned : Bool) :
    Except AsnError BitWriter :=
  if hasExt && ub == uint32Max then .error (.code .srsasnErrorEncodeFail) else
  let withinBounds := decide (lb ≤ len) && decide (len ≤ ub)
  if !withinBounds && !hasExt then .error (.code .srsasnErrorEncodeFail) else do
  let bref ← if hasExt then BitRef.pack bref (!withinBounds).toUInt64 1 else pure bref
  if lb = ub && withinBounds then pure bref
  else if ub = uint32Max || !withinBounds then packLength bref len false
  else do
    let lenBits := ceilLog2 libm (ub - lb)
    let bref ← BitRef.pack bref (UInt64.ofNat (len - lb)) lenBits
    pure (if isAligned then bref.alignBytesZero else bref)

/-- `pack_bitfield`: the last octet's low bits, then the octets below it
from the top down. -/
def packBitfield (bref : BitWriter) (buf : List UInt8) (nbits lb ub : Nat) (isAligned : Bool) :
    Except AsnError BitWriter :=
  if nbits = 0 then .error (.code .srsasnErrorEncodeFail) else do
  let bref := if isAligned && (lb != ub || ub > 16) then bref.alignBytesZero else bref
  let nOcts := ceilFrac nbits 8
  let offset := (nbits - 1) % 8 + 1
  let bref ← BitRef.pack bref (buf.getD (nOcts - 1) 0).toUInt64 offset
  (List.range' 1 (nOcts - 1)).foldlM
    (fun bref i => BitRef.pack bref (buf.getD (nOcts - 1 - i) 0).toUInt64 8) bref

/-- `bitstring_utils::pack`. -/
def pack (libm : Libm) (bref : BitWriter) (data : List UInt8) (len lb ub : Nat)
    (hasExt isAligned : Bool) : Except AsnError BitWriter := do
  let bref ← packLengthPrefix libm bref len lb ub hasExt isAligned
  packBitfield bref data len lb ub isAligned

/-- `unpack_length_prefix`. -/
def unpackLengthPrefix (libm : Libm) (bref : BitReader) (lb ub : Nat) (hasExt isAligned : Bool) :
    Except AsnError (Nat × BitReader) := do
  let (ext, bref) ← if hasExt then CbitRef.unpack bref 8 1 else pure (0, bref)
  if ub = uint32Max || ext ≠ 0 then unpackLength bref isAligned
  else if lb = ub then pure (lb, bref)
  else unpackLengthBounded libm bref lb ub isAligned

/-- `unpack_bitfield` into the octets of `buf`: the top octet's low bits,
then the octets below it from the top down. The result of `align_bytes` is
not checked. -/
def unpackBitfield (buf : Bitstring) (bref : BitReader) (n lb ub : Nat) (isAligned : Bool) :
    Except AsnError (Bitstring × BitReader) :=
  if n > asn64K then .error (.code .srsasnErrorDecodeFail)
  else if n = 0 then .ok (buf, bref)
  else do
    let bref := if isAligned && (lb != ub || ub > 16) then
        (match CbitRef.alignBytes bref with
          | .ok bref => bref
          | .error _ => bref)
      else bref
    let nOcts := ceilFrac n 8
    let offset := (n - 1) % 8 + 1
    let (top, bref) ← CbitRef.unpack bref 8 offset
    (List.range' 1 (nOcts - 1)).foldlM
      (fun (buf, bref) i => do
        let (v, bref) ← CbitRef.unpack bref 8 8
        pure (buf.setOctet (nOcts - 1 - i) (UInt8.ofNat v), bref))
      (buf.setOctet (nOcts - 1) (UInt8.ofNat top), bref)

end BitstringUtils

namespace Bitstring

/-- `bitstring<lb, ub, hasExt, isAligned>::pack`. -/
def pack (libm : Libm) (lb ub : Nat) (hasExt isAligned : Bool) (s : Bitstring) (bref : BitWriter) :
    Except AsnError BitWriter :=
  BitstringUtils.pack libm bref s.octets s.nofBits lb ub hasExt isAligned

/-- `bitstring<lb, ub, hasExt, isAligned>::unpack`: the string it leaves and
the reader after it. -/
def unpack (libm : Libm) (lb ub : Nat) (hasExt isAligned : Bool) (bref : BitReader) :
    Except AsnError (Bitstring × BitReader) := do
  let (nbits, bref) ← BitstringUtils.unpackLengthPrefix libm bref lb ub hasExt isAligned
  BitstringUtils.unpackBitfield (resize nbits) bref nbits lb ub isAligned

end Bitstring

/-! ## The widths of the bounded prefix -/

theorem ceilLog2_two_pow (libm : Libm) {k : Nat} (hk : k < 2 ^ 24) : ceilLog2 libm (2 ^ k) = k := by
  rw [ceilLog2, Nat.cast_pow, Nat.cast_ofNat, libm.log2_two_pow, roundBinary_natCast_of_lt hk,
    Int.ceil_natCast, Int.toNat_natCast]

/-- For `ub - lb = 2 ^ k` the writer's prefix has `k` bits, and for
`ub - lb = 1` the reader's has one. -/
theorem ceilLog2_one (libm : Libm) : ceilLog2 libm 1 = 0 := by
  simpa using ceilLog2_two_pow libm (k := 0) (by decide)

/-- `SIZE(1..2)`, unaligned, without extension, holding the one bit `1`:
`pack` writes that bit alone, `1000 0000`, and `unpack` takes it for the
length prefix, so it reads a string of two bits, both `0`, from the padding. -/
theorem bitstring_size1to2_takes_data_bit_for_length (libm : Libm) :
    Bitstring.pack libm 1 2 false false ⟨[1], 1, rfl⟩ ⟨[], 0⟩ = .ok ⟨[0x80], 1⟩ ∧
      (Bitstring.unpack libm 1 2 false false (BitReader.ofBuffer [0x80])).map
          (fun (s, r) => (s.nofBits, s.bits, r.it, r.offset)) =
        .ok (2, [false, false], 0, 3) := by
  have hw : ceilLog2 libm (2 - 1) = 0 := ceilLog2_one libm
  have hr : ceilLog2f libm ((2 - 1 + 1) % 2 ^ 64) = 1 := ceilLog2f_two_pow libm 1
  constructor
  · simp only [Bitstring.pack, BitstringUtils.pack, BitstringUtils.packLengthPrefix, hw]
    decide +kernel
  · simp only [Bitstring.unpack, BitstringUtils.unpackLengthPrefix, unpackLengthBounded,
      unpackConstrainedWholeNumber, hr, Bool.not_false, ↓reduceIte]
    decide +kernel

/-- With the `log2` that returns the exact floor. -/
theorem bitstring_size1to2_takes_data_bit_for_length_floorLog2 :
    Bitstring.pack Libm.floorLog2 1 2 false false ⟨[1], 1, rfl⟩ ⟨[], 0⟩ = .ok ⟨[0x80], 1⟩ ∧
      (Bitstring.unpack Libm.floorLog2 1 2 false false (BitReader.ofBuffer [0x80])).map
          (fun (s, r) => (s.nofBits, s.bits, r.it, r.offset)) =
        .ok (2, [false, false], 0, 3) :=
  bitstring_size1to2_takes_data_bit_for_length Libm.floorLog2

end SrsRan
