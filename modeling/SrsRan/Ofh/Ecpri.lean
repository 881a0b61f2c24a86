import Mathlib

/-!
The first stages of Open Fronthaul uplink reception: the Ethernet frame
decoder (`vlan_frame_decoder_impl`), the eCPRI packet decoder
(`packet_decoder_impl` with its two `decode_payload` variants) and
`message_receiver_impl::process_new_frame` up to the eCPRI filter.

A `span` is the list of its bytes. `span::subspan` and `span::last` assert
their bounds; `network_order_binary_deserializer` checks none, so a read past
its buffer is undefined behaviour, an error of the model. `units::bytes` is
an `unsigned`, and its subtraction wraps modulo `2 ^ 32`.
-/

namespace SrsRan.Ofh

/-- How a reception step fails. -/
inductive RxFault
  /-- `span::subspan`: "Offset is out of bounds!" -/
  | offsetOutOfBounds
  /-- `span::subspan`: "Offset plus size is out of bounds!" -/
  | countOutOfBounds
  /-- `span::last`: "Count is out of range" -/
  | lastOutOfRange
  /-- Not an assertion: the deserializer reads past its buffer. -/
  | readOutOfBounds
  deriving DecidableEq, Repr

/-! ## Spans and the deserializer -/

/-- `span::subspan(offset, count)`. -/
def subspan (s : List UInt8) (offset count : Nat) : Except RxFault (List UInt8) :=
  if offset > s.length then .error .offsetOutOfBounds
  else if count > s.length - offset then .error .countOutOfBounds
  else .ok ((s.drop offset).take count)

/-- `span::last(count)`. -/
def last (s : List UInt8) (count : Nat) : Except RxFault (List UInt8) :=
  if count > s.length then .error .lastOutOfRange else subspan s (s.length - count) count

/-- `network_order_binary_deserializer`: the buffer and the offset read so
far. -/
structure Deserializer where
  buffer : List UInt8
  offset : Nat := 0

namespace Deserializer

/-- `read(span<uint8_t>)` of `n` octets. -/
def readBytes (d : Deserializer) (n : Nat) : Except RxFault (List UInt8 × Deserializer) :=
  if d.offset + n > d.buffer.length then .error .readOutOfBounds
  else .ok ((d.buffer.drop d.offset).take n, { d with offset := d.offset + n })

/-- `read<uint8_t>()`. -/
def readU8 (d : Deserializer) : Except RxFault (UInt8 × Deserializer) :=
  match d.readBytes 1 with
  | .ok ([b], d) => .ok (b, d)
  | .ok _ => .error .readOutOfBounds
  | .error e => .error e

/-- `read<uint16_t>()`: two octets in network order. -/
def readU16 (d : Deserializer) : Except RxFault (UInt16 × Deserializer) :=
  match d.readBytes 2 with
  | .ok ([b0, b1], d) => .ok (b0.toUInt16 <<< 8 ||| b1.toUInt16, d)
  | .ok _ => .error .readOutOfBounds
  | .error e => .error e

/-- `remaining_bytes()`: `size - offset` in `unsigned`. -/
def remainingBytes (d : Deserializer) : Nat := (d.buffer.length + 2 ^ 32 - d.offset) % 2 ^ 32

end Deserializer

/-! ## Ethernet -/

/-- `MIN_ETH_LEN`. -/
def minEthLen : Nat := 64

/-- `vlan_frame_params`, less the TCI that nothing reads. -/
structure VlanFrameParams where
  macDstAddress : List UInt8 := []
  macSrcAddress : List UInt8 := []
  ethType : UInt16 := 0
  deriving DecidableEq, Repr

/-- `vlan_frame_decoder_impl::decode`: the addresses and the Ethernet type,
and the rest of the frame; nothing below `MIN_ETH_LEN` octets. -/
def vlanDecode (frame : List UInt8) : Except RxFault (List UInt8 × VlanFrameParams) :=
  if frame.length < minEthLen then .ok ([], {})
  else
    let d : Deserializer := { buffer := frame }
    match d.readBytes 6 with
    | .error e => .error e
    | .ok (dst, d) =>
      match d.readBytes 6 with
      | .error e => .error e
      | .ok (src, d) =>
        match d.readU16 with
        | .error e => .error e
        | .ok (ethType, d) =>
          match last frame (frame.length - d.offset) with
          | .error e => .error e
          | .ok pdu => .ok (pdu, { macDstAddress := dst, macSrcAddress := src, ethType := ethType })

/-- `should_ethernet_frame_be_filtered`: addresses and type must be those
configured. -/
def shouldEthernetFrameBeFiltered (config ethParams : VlanFrameParams) : Bool :=
  ethParams.macSrcAddress != config.macSrcAddress || ethParams.macDstAddress != config.macDstAddress ||
    ethParams.ethType != config.ethType

/-! ## eCPRI -/

/-- `ECPRI_PROTOCOL_REVISION`. -/
def ecpriProtocolRevision : Nat := 1

/-- `ECPRI_COMMON_HEADER_SIZE`. -/
def ecpriCommonHeaderSize : Nat := 4

/-- `ECPRI_IQ_DATA_PACKET_FIELDS_SIZE`. -/
def ecpriIqDataPacketFieldsSize : Nat := 4

/-- `ECPRI_REALTIME_CONTROL_PACKET_FIELDS_SIZE`. -/
def ecpriRealtimeControlPacketFieldsSize : Nat := 4

/-- `message_type::iq_data`; the type is read from the wire, any octet. -/
def iqData : UInt8 := 0x00

/-- `message_type::rt_control_data`. -/
def rtControlData : UInt8 := 0x02

/-- `common_header`. -/
structure CommonHeader where
  revision : Nat := 0
  isLastPacket : Bool := false
  msgType : UInt8 := 0
  payloadSize : Nat := 0
  deriving DecidableEq, Repr

/-- The `type_params` variant of `packet_parameters`: the two identifiers of
`iq_data_parameters` or of `realtime_control_parameters`. -/
inductive TypeParams
  | iqData (pcId seqId : UInt16)
  | rtControl (rtcId seqId : UInt16)
  deriving DecidableEq, Repr

/-- `packet_parameters`; a default variant holds `iq_data_parameters{}`. -/
structure PacketParameters where
  header : CommonHeader := {}
  typeParams : TypeParams := .iqData 0 0
  deriving DecidableEq, Repr

/-- `deserialize_header`. -/
def deserializeHeader (d : Deserializer) : Except RxFault (CommonHeader × Deserializer) :=
  match d.readU8 with
  | .error e => .error e
  | .ok (value, d) =>
    match d.readU8 with
    | .error e => .error e
    | .ok (msgType, d) =>
      match d.readU16 with
      | .error e => .error e
      | .ok (payloadSize, d) =>
        .ok ({ revision := (value >>> 4).toNat, isLastPacket := value &&& 1 == 0, msgType := msgType,
               payloadSize := payloadSize.toNat }, d)

/-- `is_header_valid`: revision 1 and no concatenation. -/
def isHeaderValid (header : CommonHeader) : Bool :=
  header.revision == ecpriProtocolRevision && header.isLastPacket

/-- `packet_decoder_impl::decode_header`: the header, and the span after it. -/
def decodeHeader (packet : List UInt8) : Except RxFault (List UInt8 × CommonHeader) :=
  if packet.length < ecpriCommonHeaderSize then .ok ([], {})
  else
    match deserializeHeader { buffer := packet } with
    | .error e => .error e
    | .ok (header, d) =>
      if !isHeaderValid header then .ok ([], header)
      else (subspan packet d.offset d.remainingBytes).map (·, header)

/-- The two identifiers of the IQ data or real-time control fields. -/
def deserializeTypeParams (d : Deserializer) : Except RxFault (UInt16 × UInt16 × Deserializer) :=
  match d.readU16 with
  | .error e => .error e
  | .ok (id, d) =>
    match d.readU16 with
    | .error e => .error e
    | .ok (seqId, d) => .ok (id, seqId, d)

/-- The `decode_payload` of both variants: the type fields, then the span
after them of `payloadCount` octets, given the deserializer after them. -/
def decodePayloadWith (payloadCount : Deserializer → Nat) (packet : List UInt8) (header : CommonHeader) :
    Except RxFault (List UInt8 × PacketParameters) :=
  if header.msgType = iqData ∨ header.msgType = rtControlData then
    match deserializeTypeParams { buffer := packet } with
    | .error e => .error e
    | .ok (id, seqId, d) =>
      let typeParams := if header.msgType = iqData then TypeParams.iqData id seqId else .rtControl id seqId
      (subspan packet d.offset (payloadCount d)).map (·, { header := header, typeParams := typeParams })
  else .ok ([], { header := header })

/-- `packet_decoder_use_header_payload_size::decode_payload`: the payload
size of the header, less the 4 octets of the type fields in `unsigned`. -/
def decodePayloadUseHeaderPayloadSize (packet : List UInt8) (header : CommonHeader) :
    Except RxFault (List UInt8 × PacketParameters) :=
  if header.payloadSize > packet.length then .ok ([], { header := header })
  else
    let fieldsSize :=
      if header.msgType = iqData then ecpriIqDataPacketFieldsSize else ecpriRealtimeControlPacketFieldsSize
    decodePayloadWith (fun _ => (header.payloadSize + 2 ^ 32 - fieldsSize) % 2 ^ 32) packet header

/-- `packet_decoder_ignore_header_payload_size::decode_payload`: what
remains of the packet. -/
def decodePayloadIgnoreHeaderPayloadSize (packet : List UInt8) (header : CommonHeader) :
    Except RxFault (List UInt8 × PacketParameters) :=
  decodePayloadWith Deserializer.remainingBytes packet header

/-- The two eCPRI decoders. -/
inductive EcpriDecoderKind
  | useHeaderPayloadSize
  | ignoreHeaderPayloadSize
  deriving DecidableEq, Repr

/-- `packet_decoder_impl::decode`: the header, then the payload of the
variant. -/
def ecpriDecode (kind : EcpriDecoderKind) (packet : List UInt8) : Except RxFault (List UInt8 × PacketParameters) :=
  match decodeHeader packet with
  | .error e => .error e
  | .ok (payload, header) =>
    if payload.isEmpty then .ok ([], { header := header })
    else
      match kind with
      | .useHeaderPayloadSize => decodePayloadUseHeaderPayloadSize payload header
      | .ignoreHeaderPayloadSize => decodePayloadIgnoreHeaderPayloadSize payload header

/-! ## `process_new_frame` -/

/-- Where `process_new_frame` leaves a frame after the eCPRI stage. -/
inductive FrameOutcome
  /-- Dropped by the Ethernet or the eCPRI stage. -/
  | dropped
  /-- Handed on: the eAxC and sequence identifier and the Open Fronthaul
  PDU. -/
  | accepted (pcId seqId : UInt16) (ofhPdu : List UInt8)
  deriving DecidableEq, Repr

/-- `should_ecpri_packet_be_filtered`: IQ data of a configured eAxC only. -/
def shouldEcpriPacketBeFiltered (ulEaxc : List UInt16) (params : PacketParameters) : Bool :=
  if params.header.msgType != iqData then true
  else
    match params.typeParams with
    | .iqData pcId _ => !ulEaxc.contains pcId
    | .rtControl _ _ => true

/-- `message_receiver_impl::process_new_frame` up to the eCPRI filter, for a
receiver with the Ethernet parameters `config` and the uplink and PRACH
eAxCs `ulEaxc`. -/
def processNewFrame (kind : EcpriDecoderKind) (config : VlanFrameParams) (ulEaxc : List UInt16)
    (frame : List UInt8) : Except RxFault FrameOutcome :=
  match vlanDecode frame with
  | .error e => .error e
  | .ok (ecpriPdu, ethParams) =>
    if ecpriPdu.isEmpty || shouldEthernetFrameBeFiltered config ethParams then .ok .dropped
    else
      match ecpriDecode kind ecpriPdu with
      | .error e => .error e
      | .ok (ofhPdu, params) =>
        if ofhPdu.isEmpty || shouldEcpriPacketBeFiltered ulEaxc params then .ok .dropped
        else
          match params.typeParams with
          | .iqData pcId seqId => .ok (.accepted pcId seqId ofhPdu)
          | .rtControl _ _ => .ok .dropped

end SrsRan.Ofh
