import SrsRan.Support.BitEncoding

/-!
The NR-U frame codec of `nru_packing.cpp` (TS 38.425 section 5.5): DL user
data (PDU type 0) and DL data delivery status (PDU type 1). `pack` appends a
frame to a byte buffer with a `bit_encoder`, the flags of the optional fields
in its first octets and the fields themselves after them in the order the
specification gives, then pads the frame with zero octets to `n * 4 - 2`
octets. `unpack` checks that length and reads the fields back with a
`bit_decoder` into the structure it is given.

A `byte_buffer` is the list of its octets and never fails to grow, and
logging is left out. A failed `unpack` is its error, without the fields it
had written to its out-parameter before it failed.
-/

namespace SrsRan.Nru

open BitString

def nruMaxNofPdcpSnDiscardBlocks : Nat := 16
def nruMaxNofLostNruSnRanges : Nat := 2

/-! ## `nru_pdu_type`

An enumeration over `uint8_t` that `unpack` casts the 4-bit field to. -/

namespace NruPduType

def dlUserData : UInt8 := 0
def dlDataDeliveryStatus : UInt8 := 1
def assistanceInformation : UInt8 := 2
def reserved : UInt8 := 3

end NruPduType

/-! ## Messages -/

structure NruPdcpSnDiscardBlock where
  pdcpSnStart : UInt32 := 0
  blockSize : UInt8 := 0
  deriving DecidableEq, Repr

/-- `nru_pdcp_sn_discard_blocks`, a `static_vector` of capacity
`nru_max_nof_pdcp_sn_discard_blocks`. -/
structure NruPdcpSnDiscardBlocks where
  blocks : List NruPdcpSnDiscardBlock
  length_le : blocks.length ≤ nruMaxNofPdcpSnDiscardBlocks
  deriving DecidableEq

structure NruDlUserData where
  reportPolling : Bool := false
  assistInfoReportPollingFlag : Bool := false
  retransmissionFlag : Bool := false
  nruSn : UInt32 := 0
  dlDiscardPdcpSn : Option UInt32 := none
  discardBlocks : Option NruPdcpSnDiscardBlocks := none
  deriving DecidableEq

structure NruLostNruSnRange where
  nruSnStart : UInt32 := 0
  nruSnEnd : UInt32 := 0
  deriving DecidableEq, Repr

/-- `nru_lost_nru_sn_ranges`, a `static_vector` of capacity
`nru_max_nof_lost_nru_sn_ranges`. -/
structure NruLostNruSnRanges where
  ranges : List NruLostNruSnRange
  length_le : ranges.length ≤ nruMaxNofLostNruSnRanges
  deriving DecidableEq

structure NruDlDataDeliveryStatus where
  finalFrameInd : Bool := false
  desiredBufferSizeForDrb : UInt32 := 0
  desiredDataRate : Option UInt32 := none
  lostNruSnRanges : Option NruLostNruSnRanges := none
  highestDeliveredPdcpSn : Option UInt32 := none
  highestTransmittedPdcpSn : Option UInt32 := none
  causeValue : Option UInt8 := none
  highestDeliveredRetransmittedPdcpSn : Option UInt32 := none
  highestRetransmittedPdcpSn : Option UInt32 := none
  deriving DecidableEq

/-- Why `pack` or `unpack` returns `false`, by the message it logs, or why
an assertion of the bit coders aborts. -/
inductive NruError
  | emptyPdu
  | lengthNotNTimes4Minus2
  | invalidPduType
  | spareBitsSet
  | tooManyDiscardBlocks
  | tooManyLostNruSnRanges
  | readFailed
  | writeFailed
  | assertion
  deriving DecidableEq, Repr

/-- `VERIFY_READ`: a read that returns `false` fails the unpack. -/
def verifyRead {α : Type} (x : Except BitCoderError α) : Except NruError α :=
  x.mapError fun
    | .returnsFalse => .readFailed
    | .assertion => .assertion

/-- `VERIFY_WRITE`: a write that returns `false` fails the pack. -/
def verifyWrite {α : Type} (x : Except BitCoderError α) : Except NruError α :=
  x.mapError fun
    | .returnsFalse => .writeFailed
    | .assertion => .assertion

/-- A `bool` packed as one bit. -/
def boolBit (b : Bool) : UInt64 := if b then 1 else 0

/-! ## Writing -/

/-- An optional field, packed with `n_bits` bits when it has a value. -/
def packIfPresent (encoder : BitWriter) (field : Option UInt64) (nBits : Nat) :
    Except NruError BitWriter :=
  match field with
  | some value => verifyWrite (BitEncoder.pack encoder value nBits)
  | none => pure encoder

/-- The padding loop of both `pack`s: zero octets are appended while the
frame begun at `startLen` is not `n * 4 - 2` octets long. Three turns
always suffice, and the fuel is that bound. -/
def padLoop (startLen : Nat) : Nat → List UInt8 → List UInt8
  | 0, outBuf => outBuf
  | fuel + 1, outBuf =>
    if (outBuf.length - startLen + 2) % 4 ≠ 0 then padLoop startLen fuel (outBuf ++ [0]) else outBuf

/-- `dl_discard_blocks`: the discard blocks are present and not empty. -/
def NruDlUserData.dlDiscardBlocks (dlUserData : NruDlUserData) : Bool :=
  match dlUserData.discardBlocks with
  | some discardBlocks => !discardBlocks.blocks.isEmpty
  | none => false

/-- The loop over the discard blocks: the start SN in 24 bits and the block
size in 8. -/
def packDiscardBlockList (encoder : BitWriter) : List NruPdcpSnDiscardBlock → Except NruError BitWriter
  | [] => pure encoder
  | discardBlock :: rest => do
    let encoder ← verifyWrite (BitEncoder.pack encoder discardBlock.pdcpSnStart.toUInt64 24)
    let encoder ← verifyWrite (BitEncoder.pack encoder discardBlock.blockSize.toUInt64 8)
    packDiscardBlockList encoder rest

/-- The discard blocks, when `dl_discard_blocks` is set: their number in 8
bits, then each block. -/
def packDiscardBlocks (encoder : BitWriter) (dlUserData : NruDlUserData) : Except NruError BitWriter :=
  match dlUserData.discardBlocks with
  | some discardBlocks =>
    if dlUserData.dlDiscardBlocks then do
      let encoder ← verifyWrite (BitEncoder.pack encoder (UInt64.ofNat discardBlocks.blocks.length) 8)
      packDiscardBlockList encoder discardBlocks.blocks
    else pure encoder
  | none => pure encoder

/-- `nru_packing::pack` for DL user data, appending to `outBuf`. -/
def packDlUserData (outBuf : List UInt8) (dlUserData : NruDlUserData) : Except NruError (List UInt8) := do
  let startLen := outBuf.length
  let encoder : BitWriter := ⟨outBuf, 0⟩
  let encoder ← verifyWrite (BitEncoder.pack encoder NruPduType.dlUserData.toUInt64 4)
  let encoder ← verifyWrite (BitEncoder.pack encoder 0 1)
  let encoder ← verifyWrite (BitEncoder.pack encoder (boolBit dlUserData.dlDiscardBlocks) 1)
  let encoder ← verifyWrite (BitEncoder.pack encoder (boolBit dlUserData.dlDiscardPdcpSn.isSome) 1)
  let encoder ← verifyWrite (BitEncoder.pack encoder (boolBit dlUserData.reportPolling) 1)
  let encoder ← verifyWrite (BitEncoder.pack encoder 0 6)
  let encoder ← verifyWrite (BitEncoder.pack encoder (boolBit dlUserData.assistInfoReportPollingFlag) 1)
  let encoder ← verifyWrite (BitEncoder.pack encoder (boolBit dlUserData.retransmissionFlag) 1)
  let encoder ← verifyWrite (BitEncoder.pack encoder dlUserData.nruSn.toUInt64 24)
  let encoder ← packIfPresent encoder (dlUserData.dlDiscardPdcpSn.map (·.toUInt64)) 24
  let encoder ← packDiscardBlocks encoder dlUserData
  return padLoop startLen 3 encoder.bytes

/-- The loop over the lost NR-U SN ranges: start and end, 24 bits each. -/
def packLostNruSnRangeList (encoder : BitWriter) : List NruLostNruSnRange → Except NruError BitWriter
  | [] => pure encoder
  | range :: rest => do
    let encoder ← verifyWrite (BitEncoder.pack encoder range.nruSnStart.toUInt64 24)
    let encoder ← verifyWrite (BitEncoder.pack encoder range.nruSnEnd.toUInt64 24)
    packLostNruSnRangeList encoder rest

/-- The lost NR-U SN ranges, when present: their number in 8 bits, then
each range. -/
def packLostNruSnRanges (encoder : BitWriter) (lostNruSnRanges : Option NruLostNruSnRanges) :
    Except NruError BitWriter :=
  match lostNruSnRanges with
  | some lost => do
    let encoder ← verifyWrite (BitEncoder.pack encoder (UInt64.ofNat lost.ranges.length) 8)
    packLostNruSnRangeList encoder lost.ranges
  | none => pure encoder

/-- `nru_packing::pack` for the DL data delivery status, appending to
`outBuf`. -/
def packDlDataDeliveryStatus (outBuf : List UInt8) (status : NruDlDataDeliveryStatus) :
    Except NruError (List UInt8) := do
  let startLen := outBuf.length
  let encoder : BitWriter := ⟨outBuf, 0⟩
  let encoder ← verifyWrite (BitEncoder.pack encoder NruPduType.dlDataDeliveryStatus.toUInt64 4)
  let encoder ← verifyWrite (BitEncoder.pack encoder (boolBit status.highestTransmittedPdcpSn.isSome) 1)
  let encoder ← verifyWrite (BitEncoder.pack encoder (boolBit status.highestDeliveredPdcpSn.isSome) 1)
  let encoder ← verifyWrite (BitEncoder.pack encoder (boolBit status.finalFrameInd) 1)
  let encoder ← verifyWrite (BitEncoder.pack encoder (boolBit status.lostNruSnRanges.isSome) 1)
  let encoder ← verifyWrite (BitEncoder.pack encoder 0 4)
  let encoder ← verifyWrite (BitEncoder.pack encoder (boolBit status.desiredDataRate.isSome) 1)
  let encoder ← verifyWrite (BitEncoder.pack encoder (boolBit status.highestRetransmittedPdcpSn.isSome) 1)
  let encoder ←
    verifyWrite (BitEncoder.pack encoder (boolBit status.highestDeliveredRetransmittedPdcpSn.isSome) 1)
  let encoder ← verifyWrite (BitEncoder.pack encoder (boolBit status.causeValue.isSome) 1)
  let encoder ← verifyWrite (BitEncoder.pack encoder status.desiredBufferSizeForDrb.toUInt64 32)
  let encoder ← packIfPresent encoder (status.desiredDataRate.map (·.toUInt64)) 32
  let encoder ← packLostNruSnRanges encoder status.lostNruSnRanges
  let encoder ← packIfPresent encoder (status.highestDeliveredPdcpSn.map (·.toUInt64)) 24
  let encoder ← packIfPresent encoder (status.highestTransmittedPdcpSn.map (·.toUInt64)) 24
  let encoder ← packIfPresent encoder (status.causeValue.map (·.toUInt64)) 8
  let encoder ← packIfPresent encoder (status.highestDeliveredRetransmittedPdcpSn.map (·.toUInt64)) 24
  let encoder ← packIfPresent encoder (status.highestRetransmittedPdcpSn.map (·.toUInt64)) 24
  return padLoop startLen 3 encoder.bytes

/-! ## Reading -/

/-- An optional field of `n_bits` bits into a type of `t_bits`, read when its
flag is set. -/
def unpackIfPresent (decoder : BitReader) (present : Bool) (tBits nBits : Nat) :
    Except NruError (Option Nat × BitReader) :=
  if present then do
    let (value, decoder) ← verifyRead (BitDecoder.unpack decoder tBits nBits)
    pure (some value, decoder)
  else pure (none, decoder)

/-- The loop over the discard blocks, pushing each onto the vector before
reading its start SN and block size. -/
def unpackDiscardBlockList (decoder : BitReader) :
    (n : Nat) → Except NruError ({l : List NruPdcpSnDiscardBlock // l.length = n} × BitReader)
  | 0 => pure (⟨[], rfl⟩, decoder)
  | n + 1 => do
    let (pdcpSnStart, decoder) ← verifyRead (BitDecoder.unpack decoder 32 24)
    let (blockSize, decoder) ← verifyRead (BitDecoder.unpack decoder 8 8)
    let (rest, decoder) ← unpackDiscardBlockList decoder n
    pure (⟨⟨.ofNat pdcpSnStart, .ofNat blockSize⟩ :: rest.val, by simp [rest.property]⟩, decoder)

/-- The discard blocks, when the flag is set: their number, at most
`nru_max_nof_pdcp_sn_discard_blocks`, then the blocks. -/
def unpackDiscardBlocks (decoder : BitReader) (dlUserData : NruDlUserData) (dlDiscardBlocks : Bool) :
    Except NruError NruDlUserData :=
  if dlDiscardBlocks then do
    let (nofDiscardBlocks, decoder) ← verifyRead (BitDecoder.unpack decoder 8 8)
    if h : nofDiscardBlocks > nruMaxNofPdcpSnDiscardBlocks then throw .tooManyDiscardBlocks else do
    let (blocks, _) ← unpackDiscardBlockList decoder nofDiscardBlocks
    pure { dlUserData with discardBlocks := some ⟨blocks.val, by rw [blocks.property]; omega⟩ }
  else pure dlUserData

/-- `nru_packing::unpack` for DL user data, into `dlUserData`. -/
def unpackDlUserData (dlUserData : NruDlUserData) (container : List UInt8) : Except NruError NruDlUserData :=
  if container.isEmpty then throw .emptyPdu else
  if (container.length + 2) % 4 ≠ 0 then throw .lengthNotNTimes4Minus2 else do
  let decoder := BitReader.ofBuffer container
  let (pduType, decoder) ← verifyRead (BitDecoder.unpack decoder 8 4)
  if UInt8.ofNat pduType ≠ NruPduType.dlUserData then throw .invalidPduType else do
  let (spare, decoder) ← verifyRead (BitDecoder.unpack decoder 8 1)
  if spare ≠ 0 then throw .spareBitsSet else do
  let (dlDiscardBlocks, decoder) ← verifyRead (BitDecoder.unpack decoder 8 1)
  let (dlFlush, decoder) ← verifyRead (BitDecoder.unpack decoder 8 1)
  let (reportPolling, decoder) ← verifyRead (BitDecoder.unpack decoder 8 1)
  let (spare, decoder) ← verifyRead (BitDecoder.unpack decoder 8 6)
  if spare ≠ 0 then throw .spareBitsSet else do
  -- the one read whose flag the source does not check
  let (assistInfoReportPollingFlag, decoder) ← verifyRead (BitDecoder.unpackUnchecked decoder 8 1)
  let (retransmissionFlag, decoder) ← verifyRead (BitDecoder.unpack decoder 8 1)
  let (nruSn, decoder) ← verifyRead (BitDecoder.unpack decoder 32 24)
  let (dlDiscardPdcpSn, decoder) ← unpackIfPresent decoder (dlFlush != 0) 32 24
  unpackDiscardBlocks decoder
    { dlUserData with
      reportPolling := reportPolling != 0
      assistInfoReportPollingFlag := assistInfoReportPollingFlag != 0
      retransmissionFlag := retransmissionFlag != 0
      nruSn := .ofNat nruSn
      dlDiscardPdcpSn := (dlDiscardPdcpSn.map UInt32.ofNat).or dlUserData.dlDiscardPdcpSn }
    (dlDiscardBlocks != 0)

/-- The loop over the lost NR-U SN ranges. -/
def unpackLostNruSnRangeList (decoder : BitReader) :
    (n : Nat) → Except NruError ({l : List NruLostNruSnRange // l.length = n} × BitReader)
  | 0 => pure (⟨[], rfl⟩, decoder)
  | n + 1 => do
    let (nruSnStart, decoder) ← verifyRead (BitDecoder.unpack decoder 32 24)
    let (nruSnEnd, decoder) ← verifyRead (BitDecoder.unpack decoder 32 24)
    let (rest, decoder) ← unpackLostNruSnRangeList decoder n
    pure (⟨⟨.ofNat nruSnStart, .ofNat nruSnEnd⟩ :: rest.val, by simp [rest.property]⟩, decoder)

/-- The lost NR-U SN ranges, when the flag is set: their number, at most
`nru_max_nof_lost_nru_sn_ranges`, then the ranges. -/
def unpackLostNruSnRanges (decoder : BitReader) (lostPacketReport : Bool) :
    Except NruError (Option NruLostNruSnRanges × BitReader) :=
  if lostPacketReport then do
    let (nofLostSnRanges, decoder) ← verifyRead (BitDecoder.unpack decoder 8 8)
    if h : nofLostSnRanges > nruMaxNofLostNruSnRanges then throw .tooManyLostNruSnRanges else do
    let (ranges, decoder) ← unpackLostNruSnRangeList decoder nofLostSnRanges
    pure (some ⟨ranges.val, by rw [ranges.property]; omega⟩, decoder)
  else pure (none, decoder)

/-- `nru_packing::unpack` for the DL data delivery status, into `status`. -/
def unpackDlDataDeliveryStatus (status : NruDlDataDeliveryStatus) (container : List UInt8) :
    Except NruError NruDlDataDeliveryStatus :=
  if container.isEmpty then throw .emptyPdu else
  if (container.length + 2) % 4 ≠ 0 then throw .lengthNotNTimes4Minus2 else do
  let decoder := BitReader.ofBuffer container
  let (pduType, decoder) ← verifyRead (BitDecoder.unpack decoder 8 4)
  if UInt8.ofNat pduType ≠ NruPduType.dlDataDeliveryStatus then throw .invalidPduType else do
  let (highestTransmittedPdcpSnIndication, decoder) ← verifyRead (BitDecoder.unpack decoder 8 1)
  let (highestDeliveredPdcpSnIndication, decoder) ← verifyRead (BitDecoder.unpack decoder 8 1)
  let (finalFrameInd, decoder) ← verifyRead (BitDecoder.unpack decoder 8 1)
  let (lostPacketReport, decoder) ← verifyRead (BitDecoder.unpack decoder 8 1)
  let (spare, decoder) ← verifyRead (BitDecoder.unpack decoder 8 4)
  if spare ≠ 0 then throw .spareBitsSet else do
  let (dataRateIndication, decoder) ← verifyRead (BitDecoder.unpack decoder 8 1)
  let (highestRetransmittedPdcpSnIndication, decoder) ← verifyRead (BitDecoder.unpack decoder 8 1)
  let (highestDeliveredRetransmittedPdcpSnIndication, decoder) ←
    verifyRead (BitDecoder.unpack decoder 8 1)
  let (causeReport, decoder) ← verifyRead (BitDecoder.unpack decoder 8 1)
  let (desiredBufferSizeForDrb, decoder) ← verifyRead (BitDecoder.unpack decoder 32 32)
  let (desiredDataRate, decoder) ← unpackIfPresent decoder (dataRateIndication != 0) 32 32
  let (lostNruSnRanges, decoder) ← unpackLostNruSnRanges decoder (lostPacketReport != 0)
  let (highestDeliveredPdcpSn, decoder) ←
    unpackIfPresent decoder (highestDeliveredPdcpSnIndication != 0) 32 24
  let (highestTransmittedPdcpSn, decoder) ←
    unpackIfPresent decoder (highestTransmittedPdcpSnIndication != 0) 32 24
  let (causeValue, decoder) ← unpackIfPresent decoder (causeReport != 0) 32 8
  let (highestDeliveredRetransmittedPdcpSn, decoder) ←
    unpackIfPresent decoder (highestDeliveredRetransmittedPdcpSnIndication != 0) 32 24
  let (highestRetransmittedPdcpSn, _) ←
    unpackIfPresent decoder (highestRetransmittedPdcpSnIndication != 0) 32 24
  pure
    { status with
      finalFrameInd := finalFrameInd != 0
      desiredBufferSizeForDrb := .ofNat desiredBufferSizeForDrb
      desiredDataRate := (desiredDataRate.map UInt32.ofNat).or status.desiredDataRate
      lostNruSnRanges := lostNruSnRanges.or status.lostNruSnRanges
      highestDeliveredPdcpSn := (highestDeliveredPdcpSn.map UInt32.ofNat).or status.highestDeliveredPdcpSn
      highestTransmittedPdcpSn :=
        (highestTransmittedPdcpSn.map UInt32.ofNat).or status.highestTransmittedPdcpSn
      causeValue := (causeValue.map UInt8.ofNat).or status.causeValue
      highestDeliveredRetransmittedPdcpSn :=
        (highestDeliveredRetransmittedPdcpSn.map UInt32.ofNat).or status.highestDeliveredRetransmittedPdcpSn
      highestRetransmittedPdcpSn :=
        (highestRetransmittedPdcpSn.map UInt32.ofNat).or status.highestRetransmittedPdcpSn }

end SrsRan.Nru
