import SrsRan.Support.ByteBuffer

/-!
The MAC DL-SCH PDU assembler (`dl_sch_pdu_assembler.cpp`, TS 38.321 6.1.2):
`dl_sch_pdu`, which writes subPDUs in place into the first `tb_size` octets of
a HARQ buffer, its `mac_sdu_encoder`, which reserves a subheader from an
estimate before the RLC writes the SDU and shifts the SDU left by one octet
when the SDU turns out shorter than 256 octets, and `assemble_newtx_pdu` with
its per-LCID loop `assemble_sdus` and the CE writer `assemble_ce`.

The UE repository is what the assembler reads of the UE: its contention
resolution identity and its RLC bearers, which are any state machine that,
offered a buffer of `n` octets, writes an SDU into it. The logger and the
PDU log builder are left out. A failed `srsran_assert` (also those of
`span::operator[]` and `span::subspan`) or `report_fatal_error` is an
`error`, and so is a raw `std::copy` or `std::fill` past the buffer, where the
source has undefined behaviour. Sizes are `unsigned` in the source; they are
`Nat` here, where no subtraction below zero is reached from the states the
assembler runs in.
-/

namespace SrsRan.Mac

/-! ## `mac_pdu_format.h` -/

def fixedSizedMacCeSubheaderSize : Nat := 1
def macSduSubheaderLengthThres : Nat := 256
def minMacSduSubheaderSize : Nat := 2
def maxMacSduSubheaderSize : Nat := 3

/-- `get_mac_sdu_subheader_size`: the subheader of a MAC SDU (TS 38.321 6.1.2)
has an 8-bit L field below 256 octets and a 16-bit one from there. -/
def getMacSduSubheaderSize (payload : Nat) : Nat :=
  if payload = 0 then 0
  else if payload ≥ macSduSubheaderLengthThres then maxMacSduSubheaderSize
  else minMacSduSubheaderSize

/-- `get_mac_sdu_required_bytes`: subheader and SDU. -/
def getMacSduRequiredBytes (payload : Nat) : Nat := payload + getMacSduSubheaderSize payload

/-- `get_mac_sdu_payload_size`: the SDU that fits `macSduSize` octets with its
subheader. No SDU takes 258 octets with its subheader; 258 gives 255. -/
def getMacSduPayloadSize (macSduSize : Nat) : Nat :=
  if macSduSize ≤ macSduSubheaderLengthThres + minMacSduSubheaderSize - 1 then
    macSduSize - minMacSduSubheaderSize
  else macSduSize - maxMacSduSubheaderSize

/-! ## LCIDs of the DL-SCH -/

/-- `lcid_dl_sch_t`: a value of TS 38.321 Table 6.2.1-1. Its constructor
asserts that the value is at most `PADDING`. -/
structure LcidDlSch where
  value : Nat
  le_padding : value ≤ 0b111111
  deriving Repr

/-- LCIDs compare by their values. -/
instance : DecidableEq LcidDlSch := fun a b =>
  decidable_of_iff (a.value = b.value) ⟨fun h => by cases a; cases b; cases h; rfl, fun h => h ▸ rfl⟩

namespace LcidDlSch

def ccch : LcidDlSch := ⟨0b000000, Nat.le_of_ble_eq_true rfl⟩
def scellActiv4Octet : LcidDlSch := ⟨0b111001, Nat.le_of_ble_eq_true rfl⟩
def scellActiv1Octet : LcidDlSch := ⟨0b111010, Nat.le_of_ble_eq_true rfl⟩
def longDrxCmd : LcidDlSch := ⟨0b111011, Nat.le_of_ble_eq_true rfl⟩
def drxCmd : LcidDlSch := ⟨0b111100, Nat.le_of_ble_eq_true rfl⟩
def taCmd : LcidDlSch := ⟨0b111101, Nat.le_of_ble_eq_true rfl⟩
def ueConResId : LcidDlSch := ⟨0b111110, Nat.le_of_ble_eq_true rfl⟩
def padding : LcidDlSch := ⟨0b111111, Nat.le_of_ble_eq_true rfl⟩

/-- `is_sdu`: the LCID of a logical channel, `CCCH` to `LCID32`. -/
def isSdu (l : LcidDlSch) : Bool := l.value ≤ 32

/-- `sizeof_ce`: the payload of the fixed-size CEs (TS 38.321 6.1.3). -/
def sizeofCe (l : LcidDlSch) : Nat :=
  match l.value with
  | 0b111001 => 4
  | 0b111010 => 1
  | 0b111011 => 0
  | 0b111100 => 0
  | 0b111101 => 1
  | 0b111110 => 6
  | _ => 0

end LcidDlSch

/-- `LCID_SRB0`. -/
def lcidSrb0 : Nat := 0

/-! ## The scheduler's view of a transport block -/

def ueConResIdLen : Nat := 6

/-- `ue_con_res_id_t`. -/
abbrev UeConResId := Vector UInt8 ueConResIdLen

/-- `ta_cmd_ce_payload`. -/
structure TaCmdCePayload where
  tagId : UInt8
  taCmd : Nat
  deriving DecidableEq, Repr

/-- The payload variant of `dl_msg_lc_info`: a Timing Advance Command or none. -/
inductive CePayload where
  | taCmd (p : TaCmdCePayload)
  | dummy
  deriving DecidableEq, Repr

/-- `dl_msg_lc_info`: one logical channel or CE the scheduler put in the
transport block, with the octets it scheduled for it. -/
structure DlMsgLcInfo where
  lcid : LcidDlSch
  schedBytes : Nat
  cePayload : CePayload
  deriving DecidableEq, Repr

/-- `MAX_DL_PDU_LENGTH`: a codeword of 156 REs per RB over 275 RBs, 4 layers
and 8 bits per RE, in octets. -/
def maxDlPduLength : Nat := 156 * 275 * 4 * 8 / 8

/-! ## `dl_sch_pdu` -/

/-- The ways a write of the assembler can fail. -/
inductive DlSchFault where
  /-- `span::operator[]`: "Index out of bounds!" -/
  | indexOutOfBounds
  /-- `span::subspan`: "Offset is out of bounds!" -/
  | offsetOutOfBounds
  /-- `span::subspan`: "Offset plus size is out of bounds!" -/
  | offsetPlusSizeOutOfBounds
  /-- `span::first`: "Count is out of range" -/
  | countOutOfRange
  /-- A `std::copy` or `std::fill` through `data()` past the end of the PDU. -/
  | rawAccessOutOfBounds
  /-- `encode_subheader`: "Unsupported header length ({})". -/
  | unsupportedHeaderLength (headerLen : Nat)
  /-- `add_sdu`: "Trying to add an empty SDU". -/
  | emptySdu
  /-- `assemble_sdus`: "Too many bytes were packed in MAC SDU". -/
  | tooManyBytesPacked
  /-- `assemble_ce`: "Invalid MAC CE payload for lcid={}". -/
  | invalidCePayload (lcid : Nat)
  /-- `assemble_ce`: "Invalid MAC CE lcid={}". -/
  | invalidCeLcid (lcid : Nat)
  deriving DecidableEq, Repr

/-- `dl_sch_pdu`: the span of the transport block and the octets encoded so far. -/
structure DlSchPdu where
  pdu : List UInt8
  byteOffset : Nat
  deriving DecidableEq, Repr

namespace DlSchPdu

def create (pduBuffer : List UInt8) : DlSchPdu := ⟨pduBuffer, 0⟩

/-- `nof_bytes`. -/
def nofBytes (p : DlSchPdu) : Nat := p.byteOffset

/-- `nof_empty_bytes`. -/
def nofEmptyBytes (p : DlSchPdu) : Nat := p.pdu.length - p.byteOffset

/-- `get`: the encoded octets, `pdu.first(byte_offset)`. -/
def get (p : DlSchPdu) : Except DlSchFault (List UInt8) :=
  if p.byteOffset ≤ p.pdu.length then .ok (p.pdu.take p.byteOffset) else .error .countOutOfRange

/-- `pdu[byte_offset++] = v`. -/
def pushByte (p : DlSchPdu) (v : UInt8) : Except DlSchFault DlSchPdu :=
  if p.byteOffset < p.pdu.length then .ok ⟨p.pdu.set p.byteOffset v, p.byteOffset + 1⟩
  else .error .indexOutOfBounds

/-- A `std::copy` of `bytes` to `pdu.data() + off`. -/
def writeRaw (p : DlSchPdu) (off : Nat) (bytes : List UInt8) : Except DlSchFault DlSchPdu :=
  if off + bytes.length ≤ p.pdu.length then .ok { p with pdu := writeAt p.pdu off bytes }
  else .error .rawAccessOutOfBounds

/-- A `std::copy` of the `n` octets at `src` to `dst`, within the PDU. -/
def copyRaw (p : DlSchPdu) (src n dst : Nat) : Except DlSchFault DlSchPdu :=
  if src + n ≤ p.pdu.length then p.writeRaw dst ((p.pdu.drop src).take n)
  else .error .rawAccessOutOfBounds

/-- `encode_subheader`: the R/F/LCID octet, then an L field of one or two
octets for a header of two or three. -/
def encodeSubheader (p : DlSchPdu) (fBit : Bool) (lcid : LcidDlSch) (headerLen payloadLen : Nat) :
    Except DlSchFault DlSchPdu := do
  let p ← p.pushByte (UInt8.ofNat (((if fBit then 1 else 0) <<< 6) ||| (lcid.value &&& 0x3f)))
  if headerLen = 3 then
    let p ← p.pushByte (UInt8.ofNat ((payloadLen &&& 0xff00) >>> 8))
    p.pushByte (UInt8.ofNat (payloadLen &&& 0xff))
  else if headerLen = 2 then
    p.pushByte (UInt8.ofNat (payloadLen &&& 0xff))
  else if headerLen = 1 then
    pure p
  else
    throw (.unsupportedHeaderLength headerLen)

/-- `add_ue_con_res_id`: a one-octet subheader and the six octets of the identity. -/
def addUeConResId (p : DlSchPdu) (conResPayload : UeConResId) : Except DlSchFault DlSchPdu := do
  let lcid := LcidDlSch.ueConResId
  let p ← p.encodeSubheader false lcid 1 lcid.sizeofCe
  let p ← p.writeRaw p.byteOffset conResPayload.toList
  pure { p with byteOffset := p.byteOffset + conResPayload.toList.length }

/-- `add_tag_cmd`: a one-octet subheader and the TAG ID and command octet. -/
def addTagCmd (p : DlSchPdu) (cePayload : TaCmdCePayload) : Except DlSchFault DlSchPdu := do
  let lcid := LcidDlSch.taCmd
  let p ← p.encodeSubheader false lcid 1 lcid.sizeofCe
  p.pushByte (UInt8.ofNat ((cePayload.tagId.toNat &&& 0xc0) ||| (cePayload.taCmd &&& 0x3f)))

/-- `add_padding`: a one-octet subheader and `len - 1` zero octets. -/
def addPadding (p : DlSchPdu) (len : Nat) : Except DlSchFault DlSchPdu := do
  let sduLen := len - 1
  let p ← p.encodeSubheader false LcidDlSch.padding 1 sduLen
  let p ← p.writeRaw p.byteOffset (List.replicate sduLen 0)
  pure { p with byteOffset := p.byteOffset + sduLen }

end DlSchPdu

/-! ## `mac_sdu_encoder` -/

/-- A valid `mac_sdu_encoder`; an invalid one is `none` where one is returned. -/
structure MacSduEncoder where
  lcid : LcidDlSch
  subhrLen : Nat
  maxSduSize : Nat
  deriving DecidableEq, Repr

namespace MacSduEncoder

/-- The constructor predicts the subheader from the opportunity. -/
def create (lcid : LcidDlSch) (maxSduSize : Nat) : MacSduEncoder :=
  ⟨lcid, getMacSduSubheaderSize maxSduSize, maxSduSize⟩

/-- `sdu_buffer`: the `max_sdu_size` octets after the reserved subheader, as
an offset and a length. -/
def sduBuffer (e : MacSduEncoder) (p : DlSchPdu) : Except DlSchFault (Nat × Nat) :=
  let sduOffset := p.byteOffset + e.subhrLen
  if sduOffset > p.pdu.length then .error .offsetOutOfBounds
  else if e.maxSduSize > p.pdu.length - sduOffset then .error .offsetPlusSizeOutOfBounds
  else .ok (sduOffset, e.maxSduSize)

/-- `encode_sdu`: the subheader for the SDU of `sduBytesWritten` octets the
RLC wrote into `sdu_buffer`, and the octets of subheader and SDU. -/
def encodeSdu (e : MacSduEncoder) (p : DlSchPdu) (sduBytesWritten : Nat) :
    Except DlSchFault (Nat × DlSchPdu) := do
  if sduBytesWritten = 0 ∨ sduBytesWritten > e.maxSduSize then return (0, p)
  let (subhrLen, p) ← if getMacSduSubheaderSize sduBytesWritten ≠ e.subhrLen then do
      -- the SDU is shorter than 256 octets after a 3-octet reservation
      let newStart := p.byteOffset + minMacSduSubheaderSize
      let p ← p.copyRaw (newStart + 1) sduBytesWritten newStart
      pure (minMacSduSubheaderSize, p)
    else pure (e.subhrLen, p)
  let fBit := decide (subhrLen > minMacSduSubheaderSize)
  let p ← p.encodeSubheader fBit e.lcid subhrLen sduBytesWritten
  return (subhrLen + sduBytesWritten, { p with byteOffset := p.byteOffset + sduBytesWritten })

end MacSduEncoder

def rlcHeaderSizeEstim : Nat := 2

/-- `min_mac_subhdr_and_sdu_space_required`: subheader, one octet, and an RLC
header unless on SRB0. -/
def minMacSubhdrAndSduSpaceRequired (lcid : LcidDlSch) : Nat :=
  minMacSduSubheaderSize + 1 + (if lcid.value ≠ lcidSrb0 then rlcHeaderSizeEstim else 0)

namespace DlSchPdu

/-- `get_sdu_encoder`: an encoder for an SDU of about `sduPayloadLenEstimate`
octets, cut to the room left in the PDU. -/
def getSduEncoder (p : DlSchPdu) (lcid : LcidDlSch) (sduPayloadLenEstimate : Nat) : Option MacSduEncoder :=
  if sduPayloadLenEstimate = 0 then none
  else
    let remGrantSpace := p.pdu.length - p.byteOffset
    if remGrantSpace < minMacSubhdrAndSduSpaceRequired lcid then none
    else
      let spaceEstim := min remGrantSpace (getMacSduRequiredBytes sduPayloadLenEstimate)
      some (MacSduEncoder.create lcid (getMacSduPayloadSize spaceEstim))

/-- `add_sdu` of a span: the SDU is copied into the encoder's buffer. -/
def addSdu (p : DlSchPdu) (lcid : LcidDlSch) (sdu : List UInt8) : Except DlSchFault (Nat × DlSchPdu) := do
  if sdu.isEmpty then throw .emptySdu
  match p.getSduEncoder lcid sdu.length with
  | none => return (0, p)
  | some enc =>
    let (sduOffset, _) ← enc.sduBuffer p
    let p ← p.writeRaw sduOffset sdu
    enc.encodeSdu p sdu.length

end DlSchPdu

/-! ## `dl_sch_pdu_assembler` -/

/-- What the assembler reads of a UE in `mac_dl_ue_repository`: the
contention resolution identity, and the bearers (`mac_sdu_tx_builder`) as a
state machine over `σ`. Offered a buffer of `n` octets on an LCID,
`on_new_tx_sdu` writes an SDU at its start and returns its length. -/
structure DlUeContext (σ : Type) where
  conResId : UeConResId
  onNewTxSdu : σ → LcidDlSch → Nat → σ × List UInt8

variable {σ : Type}

/-- The `while` loop of `assemble_sdus`: one SDU of the LCID per round while
`rem_bytes` leaves room for `MIN_MAC_SDU_SIZE`. Returns the PDU, the bearers
and the octets left. -/
def assembleSdusLoop (ue : DlUeContext σ) (lcid : LcidDlSch) (minMacSduSize : Nat) (p : DlSchPdu)
    (st : σ) (remBytes : Nat) : Except DlSchFault (DlSchPdu × σ × Nat) :=
  if remBytes < minMacSduSize then .ok (p, st, remBytes)
  else
    match p.getSduEncoder lcid (getMacSduPayloadSize remBytes) with
    | none => .ok (p, st, remBytes)
    | some sduEnc => do
      let (sduOffset, sduSize) ← sduEnc.sduBuffer p
      -- the RLC writes the SDU in place
      let (st, sdu) := ue.onNewTxSdu st lcid sduSize
      let p ← p.writeRaw sduOffset sdu
      if sdu.length = 0 then return (p, st, remBytes)
      let (subhAndSduSize, p) ← sduEnc.encodeSdu p sdu.length
      if subhAndSduSize = 0 then return (p, st, remBytes)
      else if remBytes < subhAndSduSize then throw .tooManyBytesPacked
      else assembleSdusLoop ue lcid minMacSduSize p st (remBytes - subhAndSduSize)
termination_by remBytes
decreasing_by omega

/-- `assemble_sdus`. Its `static const MIN_MAC_SDU_SIZE` is set by the first
call in the process, from that call's LCID, and kept by every later call:
`minMacSduSize` is its value, `none` before that first call. -/
def assembleSdus (ue : DlUeContext σ) (minMacSduSize : Option Nat) (p : DlSchPdu) (st : σ)
    (lcGrantInfo : DlMsgLcInfo) : Except DlSchFault (DlSchPdu × Option Nat × σ) := do
  let minSize := minMacSduSize.getD (minMacSubhdrAndSduSpaceRequired lcGrantInfo.lcid)
  let totalSpace := min (getMacSduRequiredBytes lcGrantInfo.schedBytes) p.nofEmptyBytes
  let (p, st, _) ← assembleSdusLoop ue lcGrantInfo.lcid minSize p st totalSpace
  return (p, some minSize, st)

/-- `assemble_ce`: the two CEs the scheduler allocates. -/
def assembleCe (ue : DlUeContext σ) (p : DlSchPdu) (subpdu : DlMsgLcInfo) : Except DlSchFault DlSchPdu :=
  if subpdu.lcid = LcidDlSch.ueConResId then p.addUeConResId ue.conResId
  else if subpdu.lcid = LcidDlSch.taCmd then
    match subpdu.cePayload with
    | .taCmd cePayload => p.addTagCmd cePayload
    | .dummy => .error (.invalidCePayload subpdu.lcid.value)
  else .error (.invalidCeLcid subpdu.lcid.value)

/-- The loop of `assemble_newtx_pdu` over the scheduled LCIDs and CEs. -/
def assembleSubPdus (ue : DlUeContext σ) :
    List DlMsgLcInfo → DlSchPdu → Option Nat → σ → Except DlSchFault (DlSchPdu × Option Nat × σ)
  | [], p, minMacSduSize, st => .ok (p, minMacSduSize, st)
  | schedLch :: rest, p, minMacSduSize, st => do
    let (p, minMacSduSize, st) ←
      if schedLch.lcid.isSdu then assembleSdus ue minMacSduSize p st schedLch
      else do
        let p ← assembleCe ue p schedLch
        pure (p, minMacSduSize, st)
    assembleSubPdus ue rest p minMacSduSize st

/-- `zero_buffer.first(tb_size_bytes)`, returned when the PDU cannot be built. -/
def zeroBufferFirst (tbSizeBytes : Nat) : Except DlSchFault (List UInt8) :=
  if tbSizeBytes ≤ maxDlPduLength then .ok (List.replicate tbSizeBytes 0) else .error .countOutOfRange

/-- `assemble_newtx_pdu`: the UE is `none` when the RNTI has no UE; `buffer`
is its HARQ buffer. Returns the PDU octets, the `static` of `assemble_sdus`
and the bearers. -/
def assembleNewtxPdu (ue : Option (DlUeContext σ)) (minMacSduSize : Option Nat) (st : σ)
    (tbInfo : List DlMsgLcInfo) (buffer : List UInt8) (tbSizeBytes : Nat) :
    Except DlSchFault (List UInt8 × Option Nat × σ) := do
  match ue with
  | none => return (← zeroBufferFirst tbSizeBytes, minMacSduSize, st)
  | some ue =>
    if buffer.length < tbSizeBytes then return (← zeroBufferFirst tbSizeBytes, minMacSduSize, st)
    let uePdu := DlSchPdu.create (buffer.take tbSizeBytes)
    let (uePdu, minMacSduSize, st) ← assembleSubPdus ue tbInfo uePdu minMacSduSize st
    let currentSize := uePdu.nofBytes
    if currentSize < tbSizeBytes then
      let uePdu ← uePdu.addPadding (tbSizeBytes - currentSize)
      return (← uePdu.get, minMacSduSize, st)
    else if currentSize > tbSizeBytes then
      return (← zeroBufferFirst tbSizeBytes, minMacSduSize, st)
    return (← uePdu.get, minMacSduSize, st)

end SrsRan.Mac
