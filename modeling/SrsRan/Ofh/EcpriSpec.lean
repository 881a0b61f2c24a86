import SrsRan.Ofh.Ecpri

/-!
What the Ethernet and eCPRI stages of reception do with a frame. Every read
of the deserializer is at a fixed offset from the start of its span, so each
decoder is stated once as a function of the octets it reads (`u16At`,
`ethParamsAt`, `headerAt`), and `process_new_frame` is assembled from those.

With `packet_decoder_use_header_payload_size`, a payload size field below
the 4 octets of the IQ or real-time control fields passes the size check,
and `payload_size - 4` wraps in `unsigned`: `span::subspan` asserts.
-/

namespace SrsRan.Ofh

/-! ## Reading at a fixed offset -/

/-- The `uint16_t` in network order at offset `o`. -/
def u16At (l : List UInt8) (o : Nat) : UInt16 := (l.getD o 0).toUInt16 <<< 8 ||| (l.getD (o + 1) 0).toUInt16

namespace Deserializer

variable {d : Deserializer}

theorem readBytes_ok {n : Nat} (h : d.offset + n ≤ d.buffer.length) :
    d.readBytes n = .ok ((d.buffer.drop d.offset).take n, { d with offset := d.offset + n }) := by
  simp [readBytes, Nat.not_lt.mpr h]

theorem readU8_ok (h : d.offset < d.buffer.length) :
    d.readU8 = .ok (d.buffer.getD d.offset 0, { d with offset := d.offset + 1 }) := by
  have hbyte : (d.buffer.drop d.offset).take 1 = [d.buffer.getD d.offset 0] := by
    rw [List.drop_eq_getElem_cons h, List.getD_eq_getElem _ _ h]
    rfl
  unfold readU8
  rw [readBytes_ok h, hbyte]

theorem readU16_ok (h : d.offset + 2 ≤ d.buffer.length) :
    d.readU16 = .ok (u16At d.buffer d.offset, { d with offset := d.offset + 2 }) := by
  have h1 : d.offset + 1 < d.buffer.length := by omega
  have hbytes : (d.buffer.drop d.offset).take 2 = [d.buffer.getD d.offset 0, d.buffer.getD (d.offset + 1) 0] := by
    rw [List.drop_eq_getElem_cons (by omega), List.drop_eq_getElem_cons h1, List.getD_eq_getElem _ _ (by omega),
      List.getD_eq_getElem _ _ h1]
    rfl
  unfold readU16
  rw [readBytes_ok h, hbytes]
  rfl

end Deserializer

open Deserializer

theorem subspan_ok {s : List UInt8} {offset count : Nat} (h : offset + count ≤ s.length) :
    subspan s offset count = .ok ((s.drop offset).take count) := by
  simp [subspan, show ¬ offset > s.length by omega, show ¬ count > s.length - offset by omega]

theorem subspan_count_error {s : List UInt8} {offset count : Nat} (ho : offset ≤ s.length)
    (hc : s.length - offset < count) : subspan s offset count = .error .countOutOfBounds := by
  simp [subspan, show ¬ offset > s.length by omega, hc]

/-- What follows the first `n` octets of a longer span is not empty, so no
stage stops on an empty span there. -/
theorem isEmpty_drop_of_lt {s : List UInt8} {n : Nat} (h : n < s.length) : (s.drop n).isEmpty = false := by
  simp
  omega

/-! ## The Ethernet stage -/

/-- What the Ethernet decoder reads of a frame. -/
def ethParamsAt (frame : List UInt8) : VlanFrameParams :=
  { macDstAddress := frame.take 6, macSrcAddress := (frame.drop 6).take 6, ethType := u16At frame 12 }

/-- A frame of at least `MIN_ETH_LEN` octets: its fields, and the rest after
the 14 octets of the header. -/
theorem vlanDecode_eq {frame : List UInt8} (h : minEthLen ≤ frame.length) :
    vlanDecode frame = .ok (frame.drop 14, ethParamsAt frame) := by
  simp only [minEthLen] at h
  unfold vlanDecode
  simp only [minEthLen, show ¬ frame.length < 64 by omega, ↓reduceIte]
  rw [readBytes_ok (by simp; omega)]
  simp only
  rw [readBytes_ok (by simp; omega)]
  simp only
  rw [readU16_ok (by simp; omega)]
  simp only [last, show ¬ frame.length - (0 + 6 + 6 + 2) > frame.length by omega, ↓reduceIte]
  rw [subspan_ok (by omega)]
  simp [ethParamsAt, List.take_of_length_le, show frame.length - (frame.length - 14) = 14 by omega]

theorem vlanDecode_short {frame : List UInt8} (h : frame.length < minEthLen) : vlanDecode frame = .ok ([], {}) := by
  simp [vlanDecode, h]

/-! ## The eCPRI stage -/

/-- The eCPRI common header at the start of a packet. -/
def headerAt (packet : List UInt8) : CommonHeader :=
  { revision := (packet.getD 0 0 >>> 4).toNat
    isLastPacket := packet.getD 0 0 &&& 1 == 0
    msgType := packet.getD 1 0
    payloadSize := (u16At packet 2).toNat }

/-- `decode_header` on a packet of at least 4 octets: its header, and what
follows when the header is valid. -/
theorem decodeHeader_eq {packet : List UInt8} (h : ecpriCommonHeaderSize ≤ packet.length)
    (hsmall : packet.length < 2 ^ 32) :
    decodeHeader packet = .ok (if isHeaderValid (headerAt packet) then packet.drop 4 else [], headerAt packet) := by
  simp only [ecpriCommonHeaderSize] at h
  have hhdr : deserializeHeader { buffer := packet } = .ok (headerAt packet, { buffer := packet, offset := 4 }) := by
    unfold deserializeHeader
    rw [readU8_ok (by simp; omega)]
    simp only
    rw [readU8_ok (by simp; omega)]
    simp only
    rw [readU16_ok (by simp; omega)]
    rfl
  unfold decodeHeader
  rw [if_neg (by simp only [ecpriCommonHeaderSize]; omega)]
  simp only [hhdr]
  by_cases hv : isHeaderValid (headerAt packet) = true
  · simp only [hv, Bool.not_true, Bool.false_eq_true, ↓reduceIte, remainingBytes,
      show (packet.length + 2 ^ 32 - 4) % 2 ^ 32 = packet.length - 4 by omega]
    rw [subspan_ok (by omega), List.take_of_length_le (by simp)]
    rfl
  · simp [hv]

/-- The identifiers of the type fields at the start of a payload. -/
def typeParamsAt (msgType : UInt8) (packet : List UInt8) : TypeParams :=
  if msgType = iqData then .iqData (u16At packet 0) (u16At packet 2) else .rtControl (u16At packet 0) (u16At packet 2)

/-- The payload of an IQ data or real-time control packet of at least 4
octets: its type fields, and the span of `payloadCount` octets after them. -/
theorem decodePayloadWith_eq {payloadCount : Deserializer → Nat} {packet : List UInt8} {header : CommonHeader}
    (h : 4 ≤ packet.length) (ht : header.msgType = iqData ∨ header.msgType = rtControlData) :
    decodePayloadWith payloadCount packet header =
      (subspan packet 4 (payloadCount { buffer := packet, offset := 4 })).map
        (·, { header := header, typeParams := typeParamsAt header.msgType packet }) := by
  unfold decodePayloadWith deserializeTypeParams
  rw [if_pos ht, readU16_ok (by simp; omega)]
  simp only
  rw [readU16_ok (by simp; omega)]
  rfl

/-- Whether a header opens a packet both decoders take apart: valid, of IQ
data or real-time control. -/
def HeaderTaken (header : CommonHeader) : Prop :=
  isHeaderValid header = true ∧ (header.msgType = iqData ∨ header.msgType = rtControlData)

instance (header : CommonHeader) : Decidable (HeaderTaken header) := inferInstanceAs (Decidable (_ ∧ _))

section Decode

variable {packet : List UInt8}

/-- A packet whose header is not taken yields no payload, with either
decoder. -/
theorem ecpriDecode_not_taken (kind : EcpriDecoderKind) (h : 8 ≤ packet.length) (hsmall : packet.length < 2 ^ 32)
    (hnot : ¬ HeaderTaken (headerAt packet)) : ∃ params, ecpriDecode kind packet = .ok ([], params) := by
  unfold ecpriDecode
  rw [decodeHeader_eq (by simp only [ecpriCommonHeaderSize]; omega) hsmall]
  by_cases hv : isHeaderValid (headerAt packet) = true
  · have htype : ¬ ((headerAt packet).msgType = iqData ∨ (headerAt packet).msgType = rtControlData) :=
      fun ht => hnot ⟨hv, ht⟩
    have hne : (packet.drop 4).isEmpty = false := isEmpty_drop_of_lt (by omega)
    cases kind with
    | useHeaderPayloadSize =>
      simp only [hv, ↓reduceIte, hne, Bool.false_eq_true, decodePayloadUseHeaderPayloadSize, decodePayloadWith,
        htype]
      split <;> exact ⟨_, rfl⟩
    | ignoreHeaderPayloadSize =>
      simp only [hv, ↓reduceIte, hne, Bool.false_eq_true, decodePayloadIgnoreHeaderPayloadSize, decodePayloadWith,
        htype]
      exact ⟨_, rfl⟩
  · simp only [hv, Bool.false_eq_true, ↓reduceIte, List.isEmpty_nil]
    exact ⟨_, rfl⟩

/-- `packet_decoder_ignore_header_payload_size` on a taken header: the
packet after the 8 octets of header and type fields. -/
theorem ecpriDecode_ignore_taken (h : 8 ≤ packet.length) (hsmall : packet.length < 2 ^ 32)
    (ht : HeaderTaken (headerAt packet)) :
    ecpriDecode .ignoreHeaderPayloadSize packet =
      .ok (packet.drop 8, { header := headerAt packet, typeParams := typeParamsAt (headerAt packet).msgType (packet.drop 4) }) := by
  have hne : (packet.drop 4).isEmpty = false := isEmpty_drop_of_lt (by omega)
  unfold ecpriDecode
  rw [decodeHeader_eq (by simp only [ecpriCommonHeaderSize]; omega) hsmall]
  simp only [ht.1, ↓reduceIte, hne, Bool.false_eq_true, decodePayloadIgnoreHeaderPayloadSize]
  rw [decodePayloadWith_eq (by simp; omega) ht.2, remainingBytes]
  simp only [List.length_drop, show (packet.length - 4 + 2 ^ 32 - 4) % 2 ^ 32 = packet.length - 4 - 4 by omega]
  rw [subspan_ok (by simp; omega), List.take_of_length_le (by simp; omega), List.drop_drop]
  rfl

/-- `packet_decoder_use_header_payload_size` on a taken header whose payload
size fits the packet: the payload size less the 4 octets of type fields, and
an assertion of `span::subspan` when that wraps. -/
theorem ecpriDecode_useHeader_taken (h : 8 ≤ packet.length) (hsmall : packet.length < 2 ^ 32)
    (ht : HeaderTaken (headerAt packet)) (hfit : (headerAt packet).payloadSize ≤ packet.length - 4) :
    ecpriDecode .useHeaderPayloadSize packet =
      if (headerAt packet).payloadSize < 4 then .error .countOutOfBounds
      else .ok ((packet.drop 8).take ((headerAt packet).payloadSize - 4),
        { header := headerAt packet, typeParams := typeParamsAt (headerAt packet).msgType (packet.drop 4) }) := by
  have hne : (packet.drop 4).isEmpty = false := isEmpty_drop_of_lt (by omega)
  have hfields : (if (headerAt packet).msgType = iqData then ecpriIqDataPacketFieldsSize
      else ecpriRealtimeControlPacketFieldsSize) = 4 := by split <;> rfl
  unfold ecpriDecode
  rw [decodeHeader_eq (by simp only [ecpriCommonHeaderSize]; omega) hsmall]
  simp only [ht.1, ↓reduceIte, hne, Bool.false_eq_true, decodePayloadUseHeaderPayloadSize, List.length_drop,
    show ¬ (headerAt packet).payloadSize > packet.length - 4 by omega]
  rw [decodePayloadWith_eq (by simp; omega) ht.2, hfields]
  split
  · -- `payload_size - 4` wraps to at least `2 ^ 32 - 4`
    rename_i hsmallsize
    rw [subspan_count_error (by simp; omega) (by simp; omega)]
    rfl
  · rename_i hbig
    rw [show ((headerAt packet).payloadSize + 2 ^ 32 - 4) % 2 ^ 32 = (headerAt packet).payloadSize - 4 by omega,
      subspan_ok (by simp; omega), List.drop_drop]
    rfl

end Decode

/-! ## `process_new_frame` -/

section Receive

variable {kind : EcpriDecoderKind} {config : VlanFrameParams} {ulEaxc : List UInt16} {frame : List UInt8}

/-- What the eCPRI filter and the hand-over make of a decoded packet. -/
def afterEcpri (ulEaxc : List UInt16) : Except RxFault (List UInt8 × PacketParameters) → Except RxFault FrameOutcome
  | .error e => .error e
  | .ok (ofhPdu, params) =>
    if ofhPdu.isEmpty || shouldEcpriPacketBeFiltered ulEaxc params then .ok .dropped
    else
      match params.typeParams with
      | .iqData pcId seqId => .ok (.accepted pcId seqId ofhPdu)
      | .rtControl _ _ => .ok .dropped

theorem processNewFrame_short (h : frame.length < minEthLen) :
    processNewFrame kind config ulEaxc frame = .ok .dropped := by
  simp [processNewFrame, vlanDecode_short h]

theorem processNewFrame_of_long (h : minEthLen ≤ frame.length) :
    processNewFrame kind config ulEaxc frame =
      if shouldEthernetFrameBeFiltered config (ethParamsAt frame) then .ok .dropped
      else afterEcpri ulEaxc (ecpriDecode kind (frame.drop 14)) := by
  have hne : (frame.drop 14).isEmpty = false := isEmpty_drop_of_lt (by simp only [minEthLen] at h; omega)
  unfold processNewFrame
  rw [vlanDecode_eq h]
  simp only [hne, Bool.false_or]
  split
  · rfl
  · cases ecpriDecode kind (frame.drop 14) <;> rfl

theorem afterEcpri_nil (params : PacketParameters) : afterEcpri ulEaxc (.ok ([], params)) = .ok .dropped := rfl

/-- An accepted PDU is the one the eCPRI stage handed on. -/
theorem afterEcpri_accepted {pdu ofhPdu : List UInt8} {params : PacketParameters} {pcId seqId : UInt16}
    (h : afterEcpri ulEaxc (.ok (pdu, params)) = .ok (.accepted pcId seqId ofhPdu)) : ofhPdu = pdu := by
  simp only [afterEcpri] at h
  cases hp : params.typeParams with
  | iqData a b =>
    rw [hp] at h
    split at h
    · cases h
    · cases h
      rfl
  | rtControl a b =>
    rw [hp] at h
    split at h <;> cases h

/-- The eCPRI filter and hand-over never fail on a decoded packet, and hand
on the PDU decoded. -/
theorem afterEcpri_ok (x : List UInt8 × PacketParameters) {P : List UInt8 → Prop} (hP : P x.1) :
    ∃ out, afterEcpri ulEaxc (.ok x) = .ok out ∧ ∀ pcId seqId ofhPdu, out = .accepted pcId seqId ofhPdu → P ofhPdu := by
  obtain ⟨pdu, params⟩ := x
  have hne : ∀ e, afterEcpri ulEaxc (.ok (pdu, params)) ≠ .error e := by
    intro e
    simp only [afterEcpri]
    split
    · simp
    · split <;> simp
  cases hres : afterEcpri ulEaxc (.ok (pdu, params)) with
  | error e => exact absurd hres (hne e)
  | ok out =>
    refine ⟨out, rfl, fun pcId seqId ofhPdu hout => ?_⟩
    subst hout
    rw [afterEcpri_accepted hres]
    exact hP

theorem length_drop_fourteen (h : minEthLen ≤ frame.length) : 8 ≤ (frame.drop 14).length := by
  simp only [minEthLen] at h
  simp only [List.length_drop]
  omega

/-- With `packet_decoder_use_header_payload_size`, every frame the Ethernet
filter passes whose eCPRI header is valid, of IQ data or real-time control,
with a payload size below the 4 octets of the type fields, makes
`process_new_frame` assert in `span::subspan`. -/
theorem processNewFrame_payloadSize_wraps (hlen : minEthLen ≤ frame.length) (hsmall : frame.length < 2 ^ 32)
    (heth : shouldEthernetFrameBeFiltered config (ethParamsAt frame) = false)
    (ht : HeaderTaken (headerAt (frame.drop 14))) (hsize : (headerAt (frame.drop 14)).payloadSize < 4) :
    processNewFrame .useHeaderPayloadSize config ulEaxc frame = .error .countOutOfBounds := by
  have h8 := length_drop_fourteen hlen
  rw [processNewFrame_of_long hlen, heth, ecpriDecode_useHeader_taken h8 (by simp; omega) ht (by omega),
    if_pos hsize]
  rfl

/-- A frame for the IQ data of eAxC 0: the configured addresses and type,
revision 1, payload size 0, and 46 octets of zeros. -/
theorem processNewFrame_payloadSize_wraps_zero :
    processNewFrame .useHeaderPayloadSize
        { macDstAddress := List.replicate 6 1, macSrcAddress := List.replicate 6 2, ethType := 0xAEFE } [0]
        (List.replicate 6 1 ++ List.replicate 6 2 ++ [0xAE, 0xFE] ++ [0x10, 0x00, 0x00, 0x00] ++ List.replicate 46 0) =
      .error .countOutOfBounds :=
  processNewFrame_payloadSize_wraps (by decide) (by decide) (by decide) (by decide) (by decide)

/-- With `packet_decoder_ignore_header_payload_size`, the Ethernet and eCPRI
stages drop or hand on every frame without an assertion or a read past the
frame, and a PDU handed on is the frame from its octet 22 on. -/
theorem processNewFrame_ignore_never_faults (config : VlanFrameParams) (ulEaxc : List UInt16) {frame : List UInt8}
    (hsmall : frame.length < 2 ^ 32) :
    ∃ out, processNewFrame .ignoreHeaderPayloadSize config ulEaxc frame = .ok out ∧
      ∀ pcId seqId ofhPdu, out = .accepted pcId seqId ofhPdu → ofhPdu = frame.drop 22 := by
  by_cases hlen : minEthLen ≤ frame.length
  · have h8 := length_drop_fourteen hlen
    rw [processNewFrame_of_long hlen]
    split
    · exact ⟨_, rfl, fun _ _ _ hout => by cases hout⟩
    · by_cases ht : HeaderTaken (headerAt (frame.drop 14))
      · -- the payload after the type fields is the frame from octet 22 on
        rw [ecpriDecode_ignore_taken h8 (by simp; omega) ht]
        exact afterEcpri_ok _ (List.drop_drop ..)
      · obtain ⟨params, hdec⟩ := ecpriDecode_not_taken .ignoreHeaderPayloadSize h8 (by simp; omega) ht
        rw [hdec, afterEcpri_nil]
        exact ⟨_, rfl, fun _ _ _ hout => by cases hout⟩
  · rw [processNewFrame_short (Nat.lt_of_not_le hlen)]
    exact ⟨_, rfl, fun _ _ _ hout => by cases hout⟩

/-- The frame of 46 octets after the header, its payload size ignored. -/
theorem processNewFrame_ignore_never_faults_full :
    ∃ out, processNewFrame .ignoreHeaderPayloadSize
        { macDstAddress := List.replicate 6 1, macSrcAddress := List.replicate 6 2, ethType := 0xAEFE } [0]
        (List.replicate 6 (1 : UInt8) ++ List.replicate 6 2 ++ [0xAE, 0xFE] ++ [0x10, 0x00, 0x00, 46] ++ List.replicate 46 0) = .ok out ∧
      ∀ pcId seqId ofhPdu, out = .accepted pcId seqId ofhPdu →
        ofhPdu = (List.replicate 6 (1 : UInt8) ++ List.replicate 6 2 ++ [0xAE, 0xFE] ++ [0x10, 0x00, 0x00, 46] ++ List.replicate 46 0).drop 22 :=
  processNewFrame_ignore_never_faults _ _ (by decide)

/-- The frames on which `packet_decoder_use_header_payload_size` makes
reception assert: long enough, passed by the Ethernet filter, with a taken
eCPRI header whose payload size is below 4. -/
def PayloadSizeWraps (config : VlanFrameParams) (frame : List UInt8) : Prop :=
  minEthLen ≤ frame.length ∧ shouldEthernetFrameBeFiltered config (ethParamsAt frame) = false ∧
    HeaderTaken (headerAt (frame.drop 14)) ∧ (headerAt (frame.drop 14)).payloadSize < 4

instance (config : VlanFrameParams) (frame : List UInt8) : Decidable (PayloadSizeWraps config frame) :=
  inferInstanceAs (Decidable (_ ∧ _))

/-- With `packet_decoder_use_header_payload_size`, every other frame is
dropped or handed on without an assertion or a read past the frame, and a
PDU handed on is the `payload_size - 4` octets from octet 22, inside the
frame. -/
theorem processNewFrame_useHeader_other_frames (config : VlanFrameParams) (ulEaxc : List UInt16)
    {frame : List UInt8} (hsmall : frame.length < 2 ^ 32) (hnot : ¬ PayloadSizeWraps config frame) :
    ∃ out, processNewFrame .useHeaderPayloadSize config ulEaxc frame = .ok out ∧
      ∀ pcId seqId ofhPdu, out = .accepted pcId seqId ofhPdu →
        ofhPdu = (frame.drop 22).take ((headerAt (frame.drop 14)).payloadSize - 4) ∧
          22 + ofhPdu.length ≤ frame.length := by
  by_cases hlen : minEthLen ≤ frame.length
  · have h8 := length_drop_fourteen hlen
    rw [processNewFrame_of_long hlen]
    split
    · exact ⟨_, rfl, fun _ _ _ hout => by cases hout⟩
    · rename_i heth
      by_cases ht : HeaderTaken (headerAt (frame.drop 14))
      · by_cases hfit : (headerAt (frame.drop 14)).payloadSize ≤ (frame.drop 14).length - 4
        · have hsize : ¬ (headerAt (frame.drop 14)).payloadSize < 4 :=
            fun hs => hnot ⟨hlen, by simpa using heth, ht, hs⟩
          rw [ecpriDecode_useHeader_taken h8 (by simp; omega) ht hfit, if_neg hsize]
          refine afterEcpri_ok _ ⟨by rw [List.drop_drop], ?_⟩
          simp only [List.length_take, List.length_drop] at hfit ⊢
          omega
        · -- a payload size beyond the packet: dropped before the type fields
          have hne : ((frame.drop 14).drop 4).isEmpty = false := isEmpty_drop_of_lt (by omega)
          unfold ecpriDecode
          rw [decodeHeader_eq (by simp only [ecpriCommonHeaderSize]; omega) (by simp; omega)]
          have hbeyond : (headerAt (frame.drop 14)).payloadSize > frame.length - 14 - 4 := by
            rw [List.length_drop] at hfit
            omega
          simp only [ht.1, ↓reduceIte, hne, Bool.false_eq_true, decodePayloadUseHeaderPayloadSize,
            List.length_drop, hbeyond]
          exact ⟨_, rfl, fun _ _ _ hout => by cases hout⟩
      · obtain ⟨params, hdec⟩ := ecpriDecode_not_taken .useHeaderPayloadSize h8 (by simp; omega) ht
        rw [hdec, afterEcpri_nil]
        exact ⟨_, rfl, fun _ _ _ hout => by cases hout⟩
  · rw [processNewFrame_short (Nat.lt_of_not_le hlen)]
    exact ⟨_, rfl, fun _ _ _ hout => by cases hout⟩

/-- A frame whose payload size announces its 46 octets after the header. -/
theorem processNewFrame_useHeader_other_frames_full :
    ∃ out, processNewFrame .useHeaderPayloadSize
        { macDstAddress := List.replicate 6 1, macSrcAddress := List.replicate 6 2, ethType := 0xAEFE } [0]
        (List.replicate 6 (1 : UInt8) ++ List.replicate 6 2 ++ [0xAE, 0xFE] ++ [0x10, 0x00, 0x00, 46] ++ List.replicate 46 0) = .ok out ∧
      ∀ pcId seqId ofhPdu, out = .accepted pcId seqId ofhPdu →
        ofhPdu = ((List.replicate 6 (1 : UInt8) ++ List.replicate 6 2 ++ [0xAE, 0xFE] ++ [0x10, 0x00, 0x00, 46] ++ List.replicate 46 0).drop 22).take ((headerAt ((List.replicate 6 (1 : UInt8) ++ List.replicate 6 2 ++ [0xAE, 0xFE] ++ [0x10, 0x00, 0x00, 46] ++ List.replicate 46 0).drop 14)).payloadSize - 4) ∧
        22 + ofhPdu.length ≤ (List.replicate 6 (1 : UInt8) ++ List.replicate 6 2 ++ [0xAE, 0xFE] ++ [0x10, 0x00, 0x00, 46] ++ List.replicate 46 0).length :=
  processNewFrame_useHeader_other_frames _ _ (by decide) (by decide)

end Receive

end SrsRan.Ofh
