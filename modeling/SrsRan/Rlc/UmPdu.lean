import SrsRan.Rlc.AmPdu

/-!
UM data PDUs (`rlc_um_pdu.h`): the header, its reader, its packed length
and its writer. A full SDU has a one-octet header without SN; a segment
carries a 6- or 12-bit SN and, when it is a middle or last segment, the
two SO octets. The SN (`uint16_t`, never above 12 bits) is a `Nat`.
-/

namespace SrsRan.Rlc

/-- `rlc_um_pdu_header`. -/
structure RlcUmPduHeader where
  si : RlcSiField
  snSize : RlcUmSnSize
  sn : Nat
  so : UInt16
  deriving DecidableEq, Repr

/-- `rlc_um_read_data_pdu_header`; `none` is the `false` return. The header
starts zeroed, so fields the PDU does not carry read as 0. -/
def rlcUmReadDataPduHeader (pdu : List UInt8) (snSize : RlcUmSnSize) : Option RlcUmPduHeader :=
  match pdu with
  | [] => none
  | b0 :: rest =>
    let si := RlcSiField.ofNumber ((b0.toNat >>> 6) &&& 0x03)
    match snSize with
    | .size6bits =>
      let sn := b0.toNat &&& 0x3f
      if si = .fullSdu ∧ sn ≠ 0 then none
      else (readSo si rest).map fun so => ⟨si, snSize, sn, so⟩
    | .size12bits =>
      let snHigh := (b0.toNat &&& 0x0f) <<< 8
      if si = .fullSdu ∧ snHigh ≠ 0 then none
      -- the reserved bits are checked for first segments only
      else if si = .firstSegment ∧ (b0.toNat >>> 4) &&& 0x03 ≠ 0 then none
      else if si = .fullSdu then (readSo si rest).map fun so => ⟨si, snSize, snHigh, so⟩
      else
        match rest with
        | [] => none
        | b1 :: rest =>
          (readSo si rest).map fun so => ⟨si, snSize, snHigh ||| (b1.toNat &&& 0xff), so⟩

/-- `rlc_um_nr_packed_length`: the SO octets are counted when `so` is
non-zero, not from the SI. -/
def rlcUmNrPackedLength (h : RlcUmPduHeader) : Nat :=
  if h.si = .fullSdu then 1
  else
    let snLen := match h.snSize with
      | .size6bits => 1
      | .size12bits => 2
    snLen + if h.so ≠ 0 then 2 else 0

/-- `rlc_um_write_data_pdu_header`: the octets written. -/
def rlcUmWriteDataPduHeader (h : RlcUmPduHeader) : List UInt8 :=
  let fixed := (h.si.toNumber &&& 0x03) <<< 6
  if h.si = .fullSdu then [UInt8.ofNat fixed]
  else
    let snPart : List UInt8 := match h.snSize with
      | .size6bits => [UInt8.ofNat (fixed ||| (h.sn &&& 0x3f))]
      | .size12bits => [UInt8.ofNat (fixed ||| ((h.sn >>> 8) &&& 0xf)), UInt8.ofNat (h.sn &&& 0xff)]
    snPart ++ (if h.so ≠ 0 then [(h.so >>> 8).toUInt8, (h.so &&& 0xff).toUInt8] else [])

end SrsRan.Rlc
