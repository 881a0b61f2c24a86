import SrsRan.Support.BitEncoding

/-!
The GTP-U header coding of `gtpu_pdu.cpp` (TS 29.281 section 5).
`gtpu_write_header` builds the header with a `bit_encoder` and prepends it to
the T-PDU; `gtpu_dissect_pdu` reads it back with a `bit_decoder`, ignoring
the flag of every `unpack`, and walks the chain of extension headers by their
next-type octets; `gtpu_extract_msg` drops the header.

A `byte_buffer` is the list of its octets and never fails to grow; an
extension's container, a `byte_buffer_view`, is the list of octets it shows.
Logging is left out.
-/

namespace SrsRan.Gtpu

open BitString

def gtpuBaseHeaderLen : Nat := 8
def gtpuExtendedHeaderLen : Nat := 12
def gtpuFlagsVersionV1 : UInt8 := 0x01
def gtpuFlagsGtpProtocol : UInt8 := 0x01
def gtpuMsgEchoRequest : UInt8 := 1
def gtpuMsgEchoResponse : UInt8 := 2
def gtpuMsgErrorIndication : UInt8 := 26
def gtpuMsgEndMarker : UInt8 := 254
def gtpuMsgDataPdu : UInt8 := 255
def gtpuMaxNumHeaderExtensions : Nat := 10

/-! ## `gtpu_extension_header_type`

An enumeration over `uint8_t`: the decoder casts any octet to it, so it is
the octet, with the values the code names. -/

namespace GtpuExtensionHeaderType

def noMoreExtensionHeaders : UInt8 := 0b00000000
def reserved0 : UInt8 := 0b00000001
def reserved1 : UInt8 := 0b00000010
def longPdcpPduNumber0 : UInt8 := 0b00000011
def serviceClassIndicator : UInt8 := 0b00100000
def udpPort : UInt8 := 0b01000000
def ranContainer : UInt8 := 0b10000001
def longPdcpPduNumber1 : UInt8 := 0b10000010
def xwRanContainer : UInt8 := 0b10000011
def nrRanContainer : UInt8 := 0b10000100
def pduSessionContainer : UInt8 := 0b10000101
def pdcpPduNumber : UInt8 := 0b11000000
def reserved2 : UInt8 := 0b11000001
def reserved3 : UInt8 := 0b11000010

end GtpuExtensionHeaderType

open GtpuExtensionHeaderType

/-- `gtpu_comprehension`: the two high bits of an extension type, of which
these two require the endpoint to comprehend it. -/
def requiredAtEndpointNotIntermediateNode : UInt8 := 0b00000010
def requiredAtEndpointAndIntermediateNode : UInt8 := 0b00000011

structure GtpuExtensionHeader where
  extensionHeaderType : UInt8 := noMoreExtensionHeaders
  container : List UInt8 := []
  deriving DecidableEq, Repr

structure GtpuFlags where
  version : UInt8 := 1
  protocolType : UInt8 := 0
  extHdr : Bool := false
  seqNumber : Bool := false
  nPdu : Bool := false
  deriving DecidableEq, Repr

/-- `gtpu_header`. Its `ext_list` is a `static_vector` of capacity
`GTPU_MAX_NUM_HEADER_EXTENSIONS`, which the field `extList_length_le` keeps. -/
structure GtpuHeader where
  flags : GtpuFlags := {}
  messageType : UInt8 := 0
  length : UInt16 := 0
  teid : UInt32 := 0
  seqNumber : UInt16 := 0
  nPdu : UInt8 := 0
  nextExtHdrType : UInt8 := noMoreExtensionHeaders
  extList : List GtpuExtensionHeader := []
  extList_length_le : extList.length ≤ gtpuMaxNumHeaderExtensions := by decide
  deriving DecidableEq

/-- `gtpu_dissected_pdu`: the received buffer, its header, and where the
T-PDU starts. -/
structure GtpuDissectedPdu where
  buf : List UInt8
  hdr : GtpuHeader
  hdrLen : Nat
  deriving DecidableEq

/-- Why `gtpu_write_header` or `gtpu_dissect_pdu` gives up: it logs one of
these and returns `false`, or an assertion aborts. -/
inductive GtpuError
  | unhandledFlags
  | unhandledMessageType
  | pduTooSmall
  | lengthMismatch
  | extendedPduTooSmall
  | extensionNotComprehended
  | noFurtherExtensions
  | tooManyExtensions
  | invalidExtensionSize
  | coder (e : BitCoderError)
  deriving DecidableEq, Repr

instance : MonadLift (Except BitCoderError) (Except GtpuError) where
  monadLift e := e.mapError .coder

@[simp] theorem lift_ok {α : Type} (a : α) :
    (monadLift (Except.ok a : Except BitCoderError α) : Except GtpuError α) = .ok a := rfl

@[simp] theorem throw_eq_error {α : Type} (e : GtpuError) : (throw e : Except GtpuError α) = .error e :=
  rfl

/-! ## Checks -/

/-- `gtpu_supported_flags_check`. -/
def gtpuSupportedFlagsCheck (header : GtpuHeader) : Bool :=
  if header.flags.version ≠ gtpuFlagsVersionV1 then false
  else if header.flags.protocolType ≠ gtpuFlagsGtpProtocol then false
  else if header.flags.nPdu then false
  else true

/-- `gtpu_supported_msg_type_check`. -/
def gtpuSupportedMsgTypeCheck (header : GtpuHeader) : Bool :=
  !(header.messageType ≠ gtpuMsgDataPdu && header.messageType ≠ gtpuMsgEchoRequest &&
    header.messageType ≠ gtpuMsgEchoResponse && header.messageType ≠ gtpuMsgErrorIndication &&
    header.messageType ≠ gtpuMsgEndMarker)

/-- `gtpu_extension_header_comprehension_check`: the types the code handles,
the reserved ones, and for every other type the comprehension bits. -/
def gtpuExtensionHeaderComprehensionCheck (type : UInt8) : Bool :=
  if type = noMoreExtensionHeaders then true
  else if type = nrRanContainer ∨ type = pduSessionContainer then true
  else if type = pdcpPduNumber then true
  else if type = reserved0 ∨ type = reserved1 ∨ type = reserved2 ∨ type = reserved3 then false
  else
    -- service class indicator, UDP port, (XW) RAN container, long PDCP PDU
    -- number and unknown types fall through to the comprehension bits
    let comp := type >>> 6
    !(comp = requiredAtEndpointNotIntermediateNode ∨ comp = requiredAtEndpointAndIntermediateNode)

/-! ## Writing -/

/-- `gtpu_get_length`: the octets after the mandatory part, in `uint16_t`. -/
def gtpuGetLength (header : GtpuHeader) (sdu : List UInt8) : UInt16 :=
  let len := UInt16.ofNat sdu.length
  let len := if !header.extList.isEmpty || header.flags.seqNumber || header.flags.nPdu then len + 4
    else len
  header.extList.foldl (fun len ext => len + 2 + UInt16.ofNat ext.container.length) len

/-- `gtpu_write_ext_header`: the length in 4-octet units, computed in
`uint8_t`, the container and the next type. -/
def gtpuWriteExtHeader (encoder : BitWriter) (ext : GtpuExtensionHeader)
    (nextExtensionHeaderType : UInt8) : Except GtpuError BitWriter :=
  let payload : UInt8 := 1 + UInt8.ofNat ext.container.length + 1
  if payload % 4 ≠ 0 then throw .invalidExtensionSize else do
  let length := payload / 4
  let encoder ← BitEncoder.pack encoder length.toUInt64 8
  let encoder ← BitEncoder.packBytes encoder ext.container
  BitEncoder.pack encoder nextExtensionHeaderType.toUInt64 8

/-- The loop of `gtpu_write_header` over `ext_list`: each extension is
followed by the type of the next one, the last by
`no_more_extension_headers`. -/
def gtpuWriteExtHeaders (encoder : BitWriter) : List GtpuExtensionHeader → Except GtpuError BitWriter
  | [] => pure encoder
  | [ext] => gtpuWriteExtHeader encoder ext noMoreExtensionHeaders
  | ext :: next :: rest => do
    let encoder ← gtpuWriteExtHeader encoder ext next.extensionHeaderType
    gtpuWriteExtHeaders encoder (next :: rest)

/-- Whether the optional 4-octet part of the header is present. -/
def GtpuHeader.hasOptionalFields (header : GtpuHeader) : Bool :=
  !header.extList.isEmpty || header.flags.seqNumber || header.flags.nPdu

/-- The sequence number, N-PDU number and next extension type, written when
the header has extensions or its S or PN flag is set. -/
def gtpuWriteOptionalFields (encoder : BitWriter) (header : GtpuHeader) :
    Except GtpuError BitWriter :=
  if header.hasOptionalFields then do
    let encoder ← BitEncoder.pack encoder header.seqNumber.toUInt64 16
    let encoder ← BitEncoder.pack encoder header.nPdu.toUInt64 8
    match header.extList with
    | [] => BitEncoder.pack encoder noMoreExtensionHeaders.toUInt64 8
    | ext :: _ => BitEncoder.pack encoder ext.extensionHeaderType.toUInt64 8
  else pure encoder

/-- `gtpu_write_header`: the PDU with the header prepended. The E flag is
set from `ext_list`, not from `flags.ext_hdr`, and the length is computed. -/
def gtpuWriteHeader (pdu : List UInt8) (header : GtpuHeader) : Except GtpuError (List UInt8) :=
  if !gtpuSupportedFlagsCheck header then throw .unhandledFlags
  else if !gtpuSupportedMsgTypeCheck header then throw .unhandledMessageType else do
  let encoder : BitWriter := ⟨[], 0⟩
  let encoder ← BitEncoder.pack encoder header.flags.version.toUInt64 3
  let encoder ← BitEncoder.pack encoder header.flags.protocolType.toUInt64 1
  let encoder ← BitEncoder.pack encoder 0 1
  let encoder ← BitEncoder.pack encoder (if header.extList.isEmpty then 0 else 1) 1
  let encoder ← BitEncoder.pack encoder (if header.flags.seqNumber then 1 else 0) 1
  let encoder ← BitEncoder.pack encoder (if header.flags.nPdu then 1 else 0) 1
  let encoder ← BitEncoder.pack encoder header.messageType.toUInt64 8
  let encoder ← BitEncoder.pack encoder (gtpuGetLength header pdu).toUInt64 16
  let encoder ← BitEncoder.pack encoder header.teid.toUInt64 32
  let encoder ← gtpuWriteOptionalFields encoder header
  let encoder ← gtpuWriteExtHeaders encoder header.extList
  return encoder.bytes ++ pdu

/-! ## Reading -/

/-- `gtpu_unpack_ext_header_type`. -/
def gtpuUnpackExtHeaderType (decoder : BitReader) : Except GtpuError (UInt8 × BitReader) := do
  let (tmp, decoder) ← BitDecoder.unpackUnchecked decoder 8 8
  return (UInt8.ofNat tmp, decoder)

/-- `gtpu_read_ext_header`: the length octet `L`, a view of `L * 4 - 2`
octets (in `uint16_t`, so `L = 0` asks for 65534), and the next type. It
returns `true` whatever the decoder did. -/
def gtpuReadExtHeader (decoder : BitReader) : Except GtpuError (List UInt8 × UInt8 × BitReader) := do
  let (length, decoder) ← BitDecoder.unpackUnchecked decoder 8 8
  let payload : UInt16 := UInt16.ofNat length * 4 - 2
  let (container, decoder) ← BitDecoder.unpackAlignedBytes decoder payload.toNat
  let (next, decoder) ← gtpuUnpackExtHeaderType decoder
  return (container, next, decoder)

/-- The `do … while` loop of `gtpu_dissect_pdu` over the extension headers,
from the extension of type `type`. `room` is what `ext_list` has left of its
capacity: a turn that finds it full fails, so the recursion is on `room`. -/
def gtpuReadExtHeaders (decoder : BitReader) (type : UInt8) :
    (room : Nat) → Except GtpuError ({l : List GtpuExtensionHeader // l.length ≤ room} × BitReader)
  | 0 =>
    if !gtpuExtensionHeaderComprehensionCheck type then throw .extensionNotComprehended else do
    let _ ← gtpuReadExtHeader decoder
    throw .tooManyExtensions
  | room + 1 =>
    if !gtpuExtensionHeaderComprehensionCheck type then throw .extensionNotComprehended else do
    let (container, next, decoder) ← gtpuReadExtHeader decoder
    let ext : GtpuExtensionHeader := ⟨type, container⟩
    if next = noMoreExtensionHeaders then return (⟨[ext], by simp⟩, decoder) else do
    let (exts, decoder) ← gtpuReadExtHeaders decoder next room
    return (⟨ext :: exts.1, by simpa using exts.2⟩, decoder)

/-- The sequence number, N-PDU number and next extension type of
`gtpu_dissect_pdu`, read when one of the flags E, S, PN is set, after
checking that the PDU has 12 octets. -/
def gtpuReadOptionalFields (decoder : BitReader) (hdr : GtpuHeader) :
    Except GtpuError (GtpuHeader × BitReader) :=
  if !(hdr.flags.extHdr || hdr.flags.seqNumber || hdr.flags.nPdu) then pure (hdr, decoder)
  else if decoder.buffer.length < gtpuExtendedHeaderLen then throw .extendedPduTooSmall else do
  let (seqNumber, decoder) ← BitDecoder.unpackUnchecked decoder 16 16
  let (nPdu, decoder) ← BitDecoder.unpackUnchecked decoder 8 8
  let (next, decoder) ← gtpuUnpackExtHeaderType decoder
  if !gtpuExtensionHeaderComprehensionCheck next then throw .extensionNotComprehended
  else return ({ hdr with seqNumber := .ofNat seqNumber, nPdu := .ofNat nPdu, nextExtHdrType := next },
    decoder)

/-- The extension headers of `gtpu_dissect_pdu`, read when the E flag is set. -/
def gtpuReadExtensions (decoder : BitReader) (hdr : GtpuHeader) :
    Except GtpuError (GtpuHeader × BitReader) :=
  if !hdr.flags.extHdr then pure (hdr, decoder)
  else if hdr.nextExtHdrType = noMoreExtensionHeaders then throw .noFurtherExtensions else do
  let (exts, decoder) ← gtpuReadExtHeaders decoder hdr.nextExtHdrType gtpuMaxNumHeaderExtensions
  return ({ hdr with extList := exts.1, extList_length_le := exts.2 }, decoder)

/-- The flags octet and the rest of the mandatory part, as `gtpu_dissect_pdu`
reads them into a fresh header. -/
def gtpuReadMandatoryFields (decoder : BitReader) : Except GtpuError (GtpuHeader × BitReader) := do
  let (version, decoder) ← BitDecoder.unpackUnchecked decoder 8 3
  let (protocolType, decoder) ← BitDecoder.unpackUnchecked decoder 8 1
  let (_spare, decoder) ← BitDecoder.unpackUnchecked decoder 8 1
  let (extHdr, decoder) ← BitDecoder.unpackUnchecked decoder 1 1
  let (seqNumber, decoder) ← BitDecoder.unpackUnchecked decoder 1 1
  let (nPdu, decoder) ← BitDecoder.unpackUnchecked decoder 1 1
  let flags : GtpuFlags := { version := .ofNat version, protocolType := .ofNat protocolType,
                             extHdr := extHdr != 0, seqNumber := seqNumber != 0, nPdu := nPdu != 0 }
  if !gtpuSupportedFlagsCheck { flags } then throw .unhandledFlags else do
  let (messageType, decoder) ← BitDecoder.unpackUnchecked decoder 8 8
  let (length, decoder) ← BitDecoder.unpackUnchecked decoder 16 16
  let (teid, decoder) ← BitDecoder.unpackUnchecked decoder 32 32
  return ({ flags, messageType := .ofNat messageType, length := .ofNat length, teid := .ofNat teid },
    decoder)

/-- `gtpu_dissect_pdu`. The length field must equal the buffer's length
less 8, in `uint16_t`; the header length is `nof_bytes()` of the decoder. -/
def gtpuDissectPdu (rawPdu : List UInt8) : Except GtpuError GtpuDissectedPdu :=
  if rawPdu.length < gtpuBaseHeaderLen then throw .pduTooSmall else do
  let (hdr, decoder) ← gtpuReadMandatoryFields (BitReader.ofBuffer rawPdu)
  let expectedLength : UInt16 := UInt16.ofNat (rawPdu.length - gtpuBaseHeaderLen)
  if hdr.length ≠ expectedLength then throw .lengthMismatch else do
  let (hdr, decoder) ← gtpuReadOptionalFields decoder hdr
  let (hdr, decoder) ← gtpuReadExtensions decoder hdr
  return { buf := rawPdu, hdr, hdrLen := decoder.nofBytes }

/-- `gtpu_extract_msg`: the buffer with the header trimmed from its head. -/
def gtpuExtractMsg (dissectedPdu : GtpuDissectedPdu) : List UInt8 :=
  dissectedPdu.buf.drop dissectedPdu.hdrLen

end SrsRan.Gtpu
