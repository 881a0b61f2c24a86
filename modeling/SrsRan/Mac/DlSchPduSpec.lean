import SrsRan.Mac.DlSchPdu
import SrsRan.Mac.DlSchSubPdu
import SrsRan.Lib.Octet
import SrsRan.Lib.BitString
import SrsRan.Lib.Fallible

/-!
What each write of `dl_sch_pdu` does to the transport block. A PDU `Holds`
the octets `pre` before `byte_offset` and `r` from there; each operation
appends the octets of one subPDU to `pre` and leaves the rest of `r`, and
`macOctets` names those octets. They are `encode`'s layout except that an
SDU's L field is its length modulo 2^16 (`macOctets_sdu_eq_encode`).

`encodeSdu_holds` is the encoder's step: whether or not the SDU is moved one
octet to the left, the subheader and the SDU end up side by side.
-/

namespace SrsRan.Mac

/-! ## Writes into a list -/

theorem writeAt_append_length (pre r bytes : List UInt8) (k : Nat) :
    writeAt (pre ++ r) (pre.length + k) bytes = pre ++ writeAt r k bytes := by
  simp only [writeAt, List.take_append, List.drop_append]
  simp [Nat.add_assoc, List.take_of_length_le, List.drop_eq_nil_of_le]

/-- After a write at `k`, the list from `k` on is the octets written and what
followed them. -/
theorem drop_writeAt_self (l bytes : List UInt8) {k : Nat} (h : k ≤ l.length) :
    (writeAt l k bytes).drop k = bytes ++ l.drop (k + bytes.length) := by
  rw [writeAt, List.append_assoc, List.drop_left' (by simp; omega)]

theorem writeAt_nil (l : List UInt8) (k : Nat) : writeAt l k [] = l := by
  simp [writeAt]

/-! ## The octets of a subPDU as the assembler writes them -/

/-- The octets `encode_subheader` writes. -/
def subheaderOctets (fBit : Bool) (lcid headerLen payloadLen : Nat) : List UInt8 :=
  UInt8.ofNat (((if fBit then 1 else 0) <<< 6) ||| (lcid &&& 0x3f)) ::
    if headerLen = 3 then [UInt8.ofNat ((payloadLen &&& 0xff00) >>> 8), UInt8.ofNat (payloadLen &&& 0xff)]
    else if headerLen = 2 then [UInt8.ofNat (payloadLen &&& 0xff)]
    else []

/-- The octets the assembler writes for a subPDU: an SDU gets the subheader
of `get_mac_sdu_subheader_size`, every other subPDU is `encode`d. -/
def macOctets : DlSchSubPdu → List UInt8
  | .sdu lcid payload =>
    subheaderOctets (decide (getMacSduSubheaderSize payload.length > minMacSduSubheaderSize)) lcid
      (getMacSduSubheaderSize payload.length) payload.length ++ payload
  | s => s.encode

theorem length_subheaderOctets (fBit : Bool) (lcid payloadLen : Nat) {headerLen : Nat}
    (h : headerLen = 1 ∨ headerLen = 2 ∨ headerLen = 3) :
    (subheaderOctets fBit lcid headerLen payloadLen).length = headerLen := by
  rcases h with rfl | rfl | rfl <;> simp [subheaderOctets]

theorem getMacSduSubheaderSize_of_pos {n : Nat} (h : 0 < n) :
    getMacSduSubheaderSize n = 2 ∨ getMacSduSubheaderSize n = 3 := by
  unfold getMacSduSubheaderSize macSduSubheaderLengthThres maxMacSduSubheaderSize minMacSduSubheaderSize
  split_ifs <;> simp_all

theorem length_macOctets_sdu (lcid : Nat) {payload : List UInt8} (h : payload ≠ []) :
    (macOctets (.sdu lcid payload)).length = getMacSduRequiredBytes payload.length := by
  have hsize := getMacSduSubheaderSize_of_pos (List.length_pos_iff.mpr h)
  rw [macOctets, List.length_append, length_subheaderOctets _ _ _ (by omega), getMacSduRequiredBytes,
    Nat.add_comm]

/-- The R/F/LCID octet of an LCID of a logical channel. -/
theorem fLcidOctet_eq {lcid : Nat} (hl : lcid < 64) (fBit : Bool) :
    ((if fBit then 1 else 0) <<< 6) ||| (lcid &&& 0x3f) = (if fBit then 0x40 else 0) + lcid := by
  rw [Octet.and_0x3f, Nat.mod_eq_of_lt hl]
  cases fBit with
  | false => simp
  | true => simpa using Octet.shiftLeft_or_eq_add 1 lcid 6 hl

theorem ofNat_mod_256 (n : Nat) : UInt8.ofNat (n % 256) = UInt8.ofNat n := by
  apply UInt8.toNat_inj.mp
  simp

/-- The 2-octet subheader of an SDU of a logical channel. -/
theorem subheaderOctets_two {lcid : Nat} (hl : lcid < 64) (n : Nat) :
    subheaderOctets false lcid 2 n = [UInt8.ofNat lcid, UInt8.ofNat n] := by
  rw [subheaderOctets, fLcidOctet_eq hl]
  simp [Octet.and_0xff, ofNat_mod_256]

/-- The 3-octet subheader: the L field is the length modulo 2^16. -/
theorem subheaderOctets_three {lcid : Nat} (hl : lcid < 64) (n : Nat) :
    subheaderOctets true lcid 3 n =
      [UInt8.ofNat (0x40 + lcid), UInt8.ofNat (n % 2 ^ 16 / 256), UInt8.ofNat n] := by
  have hhi : (n &&& 0xff00) >>> 8 = n % 2 ^ 16 / 256 :=
    BitString.and_two_pow_sub_two_pow_shiftRight n (show 8 ≤ 16 by omega)
  rw [subheaderOctets, fLcidOctet_eq hl, hhi]
  simp [Octet.and_0xff, ofNat_mod_256]

/-- The subheader the assembler picks for an SDU: two octets below 256, three from there. -/
theorem macOctets_sdu_of_lt {lcid : Nat} {payload : List UInt8} (hl : lcid < 64) (hne : payload ≠ [])
    (hs : payload.length < 256) :
    macOctets (.sdu lcid payload) = UInt8.ofNat lcid :: UInt8.ofNat payload.length :: payload := by
  have hsize : getMacSduSubheaderSize payload.length = 2 := by
    simp [getMacSduSubheaderSize, macSduSubheaderLengthThres, minMacSduSubheaderSize, hs,
      (List.length_pos_iff.mpr hne).ne']
  rw [macOctets, hsize, show decide (2 > minMacSduSubheaderSize) = false from rfl, subheaderOctets_two hl]
  rfl

theorem macOctets_sdu_of_ge {lcid : Nat} {payload : List UInt8} (hl : lcid < 64) (hs : 256 ≤ payload.length) :
    macOctets (.sdu lcid payload) =
      UInt8.ofNat (0x40 + lcid) :: UInt8.ofNat (payload.length % 2 ^ 16 / 256) :: UInt8.ofNat payload.length ::
        payload := by
  have hsize : getMacSduSubheaderSize payload.length = 3 := by
    simp [getMacSduSubheaderSize, macSduSubheaderLengthThres, maxMacSduSubheaderSize, hs,
      List.ne_nil_of_length_pos (show 0 < payload.length by omega)]
  rw [macOctets, hsize, show decide (3 > minMacSduSubheaderSize) = true from rfl, subheaderOctets_three hl]
  rfl

/-- Below 2^16 octets, the assembler lays out an SDU as TS 38.321 does. -/
theorem macOctets_sdu_eq_encode {lcid : Nat} {payload : List UInt8} (hl : lcid ≤ 32) (hne : payload ≠ [])
    (hlt : payload.length < 2 ^ 16) : macOctets (.sdu lcid payload) = (DlSchSubPdu.sdu lcid payload).encode := by
  rw [DlSchSubPdu.encode]
  split_ifs with hs
  · exact macOctets_sdu_of_lt (by omega) hne hs
  · rw [macOctets_sdu_of_ge (by omega) (by omega), Nat.mod_eq_of_lt hlt]

/-! ## The size arithmetic of `mac_pdu_format.h` -/

theorem getMacSduSubheaderSize_of_lt {n : Nat} (h0 : 0 < n) (h : n < 256) : getMacSduSubheaderSize n = 2 := by
  simp [getMacSduSubheaderSize, macSduSubheaderLengthThres, minMacSduSubheaderSize, h0.ne', h]

theorem getMacSduSubheaderSize_of_ge {n : Nat} (h : 256 ≤ n) : getMacSduSubheaderSize n = 3 := by
  simp [getMacSduSubheaderSize, macSduSubheaderLengthThres, maxMacSduSubheaderSize, h]
  omega

theorem getMacSduPayloadSize_of_le {s : Nat} (h : s ≤ 257) : getMacSduPayloadSize s = s - 2 :=
  if_pos h

theorem getMacSduPayloadSize_of_gt {s : Nat} (h : 257 < s) : getMacSduPayloadSize s = s - 3 :=
  if_neg (by simp only [macSduSubheaderLengthThres, minMacSduSubheaderSize]; omega)

theorem getMacSduSubheaderSize_le_of_le {a b : Nat} (ha : 0 < a) (hab : a ≤ b) :
    getMacSduSubheaderSize a ≤ getMacSduSubheaderSize b := by
  rcases Nat.lt_or_ge a 256 with h | h
  · rw [getMacSduSubheaderSize_of_lt ha h]
    rcases Nat.lt_or_ge b 256 with h' | h'
    · rw [getMacSduSubheaderSize_of_lt (by omega) h']
    · rw [getMacSduSubheaderSize_of_ge h']
      omega
  · rw [getMacSduSubheaderSize_of_ge h, getMacSduSubheaderSize_of_ge (by omega)]

/-- Three octets or more hold a subheader and an SDU of at least one octet,
and `get_mac_sdu_payload_size` gives an SDU that fits with its subheader. -/
theorem getMacSduPayloadSize_fits {s : Nat} (h : 3 ≤ s) :
    0 < getMacSduPayloadSize s ∧ getMacSduRequiredBytes (getMacSduPayloadSize s) ≤ s := by
  unfold getMacSduRequiredBytes
  rcases Nat.lt_or_ge s 258 with hs | hs
  · -- 258 octets would need a 3-octet subheader for 255 octets: the estimate stays below
    rw [getMacSduPayloadSize_of_le (by omega), getMacSduSubheaderSize_of_lt (by omega) (by omega)]
    omega
  · rw [getMacSduPayloadSize_of_gt (by omega)]
    rcases Nat.lt_or_ge (s - 3) 256 with h' | h'
    · rw [getMacSduSubheaderSize_of_lt (by omega) h']
      omega
    · rw [getMacSduSubheaderSize_of_ge h']
      omega

theorem three_le_getMacSduRequiredBytes {n : Nat} (h : 0 < n) : 3 ≤ getMacSduRequiredBytes n := by
  have := getMacSduSubheaderSize_of_pos h
  unfold getMacSduRequiredBytes
  omega

theorem three_le_minMacSubhdrAndSduSpaceRequired (lcid : LcidDlSch) : 3 ≤ minMacSubhdrAndSduSpaceRequired lcid := by
  unfold minMacSubhdrAndSduSpaceRequired minMacSduSubheaderSize
  omega

/-! ## The transport block as the octets written and the rest -/

namespace DlSchPdu

/-- `p` holds the octets `pre` before `byte_offset` and `r` from there on. -/
structure Holds (p : DlSchPdu) (pre r : List UInt8) : Prop where
  pdu_eq : p.pdu = pre ++ r
  offset_eq : p.byteOffset = pre.length

variable {p : DlSchPdu} {pre r : List UInt8}

theorem holds_create (buf : List UInt8) : (create buf).Holds [] buf := ⟨rfl, rfl⟩

theorem Holds.nofEmptyBytes (h : p.Holds pre r) : p.nofEmptyBytes = r.length := by
  simp [DlSchPdu.nofEmptyBytes, h.pdu_eq, h.offset_eq]

theorem Holds.nofBytes (h : p.Holds pre r) : p.nofBytes = pre.length := h.offset_eq

theorem Holds.get (h : p.Holds pre r) : p.get = .ok pre := by
  simp [DlSchPdu.get, h.pdu_eq, h.offset_eq, List.take_left']

/-- `byte_offset += n` over octets already in place. -/
theorem Holds.advance {a : List UInt8} (h : p.Holds pre (a ++ r)) :
    ({ p with byteOffset := p.byteOffset + a.length } : DlSchPdu).Holds (pre ++ a) r :=
  ⟨by simp [h.pdu_eq], by simp [h.offset_eq]⟩

theorem pushByte_holds {x : UInt8} (h : p.Holds pre (x :: r)) (v : UInt8) :
    ∃ p', p.pushByte v = .ok p' ∧ p'.Holds (pre ++ [v]) r := by
  refine ⟨_, if_pos (by simp [h.pdu_eq, h.offset_eq]), ?_, by simp [h.offset_eq]⟩
  rw [h.pdu_eq, h.offset_eq, List.set_append_right _ _ (Nat.le_refl _), Nat.sub_self, List.set_cons_zero]
  simp

theorem writeRaw_holds (h : p.Holds pre r) (k : Nat) (bytes : List UInt8) (hk : k + bytes.length ≤ r.length) :
    ∃ p', p.writeRaw (pre.length + k) bytes = .ok p' ∧ p'.Holds pre (writeAt r k bytes) := by
  refine ⟨_, if_pos (by simp [h.pdu_eq]; omega), ?_, h.offset_eq⟩
  simp only [h.pdu_eq, writeAt_append_length]

theorem copyRaw_holds (h : p.Holds pre r) (src n dst : Nat) (hs : src + n ≤ r.length) (hd : dst + n ≤ r.length) :
    ∃ p', p.copyRaw (pre.length + src) n (pre.length + dst) = .ok p' ∧
      p'.Holds pre (writeAt r dst ((r.drop src).take n)) := by
  have hread : (p.pdu.drop (pre.length + src)).take n = (r.drop src).take n := by
    rw [h.pdu_eq, ← List.drop_drop, List.drop_left' rfl]
  have hlen : ((r.drop src).take n).length = n := by simp; omega
  obtain ⟨p', hw, hp'⟩ := writeRaw_holds h dst ((r.drop src).take n) (by omega)
  refine ⟨p', ?_, hp'⟩
  rw [copyRaw, if_pos (by simp [h.pdu_eq]; omega), hread, hw]

/-- `encode_subheader` writes `subheaderOctets` over the first octets of the rest. -/
theorem encodeSubheader_holds (h : p.Holds pre r) (fBit : Bool) (lcid : LcidDlSch) (headerLen payloadLen : Nat)
    (hl : headerLen = 1 ∨ headerLen = 2 ∨ headerLen = 3) (hr : headerLen ≤ r.length) :
    ∃ p', p.encodeSubheader fBit lcid headerLen payloadLen = .ok p' ∧
      p'.Holds (pre ++ subheaderOctets fBit lcid.value headerLen payloadLen) (r.drop headerLen) := by
  obtain ⟨x, r1, rfl⟩ := List.exists_cons_of_length_pos (show 0 < r.length by omega)
  obtain ⟨p1, h1, hp1⟩ := pushByte_holds h (UInt8.ofNat (((if fBit then 1 else 0) <<< 6) ||| (lcid.value &&& 0x3f)))
  rcases hl with rfl | rfl | rfl
  · -- the R/LCID subheader of a CE or padding
    refine ⟨p1, ?_, by simpa [subheaderOctets] using hp1⟩
    rw [encodeSubheader, h1, Fallible.ok_bind, if_neg (by decide), if_neg (by decide), if_pos rfl]
    rfl
  · -- an 8-bit L field
    obtain ⟨y, r2, rfl⟩ := List.exists_cons_of_length_pos (show 0 < r1.length by simp at hr; omega)
    obtain ⟨p2, h2, hp2⟩ := pushByte_holds hp1 (UInt8.ofNat (payloadLen &&& 0xff))
    refine ⟨p2, ?_, by simpa [subheaderOctets] using hp2⟩
    rw [encodeSubheader, h1, Fallible.ok_bind, if_neg (by decide), if_pos rfl, h2]
  · -- a 16-bit L field
    obtain ⟨y, z, r3, rfl⟩ : ∃ y z r3, r1 = y :: z :: r3 := by
      match r1, hr with
      | y :: z :: r3, _ => exact ⟨y, z, r3, rfl⟩
    obtain ⟨p2, h2, hp2⟩ := pushByte_holds hp1 (UInt8.ofNat ((payloadLen &&& 0xff00) >>> 8))
    obtain ⟨p3, h3, hp3⟩ := pushByte_holds hp2 (UInt8.ofNat (payloadLen &&& 0xff))
    refine ⟨p3, ?_, by simpa [subheaderOctets] using hp3⟩
    rw [encodeSubheader, h1, Fallible.ok_bind, if_pos rfl, h2, Fallible.ok_bind, h3]

/-- A raw write of `bytes` at `byte_offset`. -/
theorem Holds.writeRaw_self (h : p.Holds pre r) (bytes : List UInt8) (hk : bytes.length ≤ r.length) :
    ∃ p', p.writeRaw p.byteOffset bytes = .ok p' ∧ p'.Holds pre (bytes ++ r.drop bytes.length) := by
  obtain ⟨p', hw, hp'⟩ := writeRaw_holds h 0 bytes (by omega)
  rw [h.offset_eq]
  refine ⟨p', hw, ?_⟩
  simpa [writeAt] using hp'

/-! ## The CEs and padding -/

theorem addUeConResId_holds (h : p.Holds pre r) (hr : 7 ≤ r.length) (conRes : UeConResId) :
    ∃ p', p.addUeConResId conRes = .ok p' ∧ p'.Holds (pre ++ macOctets (.ueConResId conRes.toList)) (r.drop 7) := by
  obtain ⟨p1, h1, hp1⟩ := encodeSubheader_holds h false LcidDlSch.ueConResId 1 LcidDlSch.ueConResId.sizeofCe
    (Or.inl rfl) (by omega)
  have hlen : conRes.toList.length = 6 := Vector.length_toList
  obtain ⟨p2, h2, hp2⟩ := hp1.writeRaw_self conRes.toList (by rw [hlen]; simp; omega)
  refine ⟨{ p2 with byteOffset := p2.byteOffset + conRes.toList.length }, ?_, ?_⟩
  · rw [addUeConResId, h1, Fallible.ok_bind, h2, Fallible.ok_bind, Fallible.pure_eq_ok]
  · have hd : (r.drop 1).drop conRes.toList.length = r.drop 7 := by rw [List.drop_drop, hlen]
    have hsub : subheaderOctets false LcidDlSch.ueConResId.value 1 LcidDlSch.ueConResId.sizeofCe = [0x3e] := by
      decide
    have hoct : macOctets (.ueConResId conRes.toList) = [0x3e] ++ conRes.toList := rfl
    have := hp2.advance
    rwa [hd, hsub, List.append_assoc, ← hoct] at this

theorem addTagCmd_holds (h : p.Holds pre r) (hr : 2 ≤ r.length) (cePayload : TaCmdCePayload) :
    ∃ p', p.addTagCmd cePayload = .ok p' ∧
      p'.Holds (pre ++ macOctets (.taCmd (UInt8.ofNat ((cePayload.tagId.toNat &&& 0xc0) ||| (cePayload.taCmd &&& 0x3f)))))
        (r.drop 2) := by
  obtain ⟨p1, h1, hp1⟩ := encodeSubheader_holds h false LcidDlSch.taCmd 1 LcidDlSch.taCmd.sizeofCe
    (Or.inl rfl) (by omega)
  obtain ⟨x, r2, hr2⟩ := List.exists_cons_of_length_pos (show 0 < (r.drop 1).length by simp; omega)
  rw [hr2] at hp1
  obtain ⟨p2, h2, hp2⟩ := pushByte_holds hp1
    (UInt8.ofNat ((cePayload.tagId.toNat &&& 0xc0) ||| (cePayload.taCmd &&& 0x3f)))
  refine ⟨p2, by rw [addTagCmd, h1, Fallible.ok_bind, h2], ?_⟩
  have hr2' : r.drop 2 = r2 := by rw [show (2 : Nat) = 1 + 1 from rfl, ← List.drop_drop, hr2]; rfl
  rw [hr2']
  simpa [macOctets, DlSchSubPdu.encode, subheaderOctets, LcidDlSch.taCmd] using hp2

/-- `add_padding` of the whole rest: the subheader and zeros to the end. -/
theorem addPadding_holds (h : p.Holds pre r) (hpos : 0 < r.length) :
    ∃ p', p.addPadding r.length = .ok p' ∧ p'.Holds (pre ++ macOctets (.padding (r.length - 1))) [] := by
  obtain ⟨p1, h1, hp1⟩ := encodeSubheader_holds h false LcidDlSch.padding 1 (r.length - 1) (Or.inl rfl) hpos
  obtain ⟨p2, h2, hp2⟩ := hp1.writeRaw_self (List.replicate (r.length - 1) 0) (by simp)
  refine ⟨{ p2 with byteOffset := p2.byteOffset + (r.length - 1) }, ?_, ?_⟩
  · rw [addPadding, h1, Fallible.ok_bind, h2, Fallible.ok_bind, Fallible.pure_eq_ok]
  · have hd : (r.drop 1).drop (List.replicate (r.length - 1) (0 : UInt8)).length = [] :=
      List.drop_eq_nil_of_le (by simp)
    have hsub : subheaderOctets false LcidDlSch.padding.value 1 (r.length - 1) = [0x3f] := by
      simp [subheaderOctets, LcidDlSch.padding]
    have hoct : macOctets (.padding (r.length - 1)) = [0x3f] ++ List.replicate (r.length - 1) 0 := rfl
    have := hp2.advance
    rwa [hd, hsub, List.append_assoc, ← hoct, List.length_replicate] at this

/-! ## The SDU encoder -/

/-- `get_sdu_encoder` reserves, for an SDU of at least one octet, a subheader
and a buffer that together fit both the rest of the PDU and the estimate. -/
theorem getSduEncoder_spec (h : p.Holds pre r) {lcid : LcidDlSch} {est : Nat} {enc : MacSduEncoder}
    (henc : p.getSduEncoder lcid est = some enc) :
    enc.lcid = lcid ∧ enc.subhrLen = getMacSduSubheaderSize enc.maxSduSize ∧ 0 < enc.maxSduSize ∧
      getMacSduRequiredBytes enc.maxSduSize ≤ r.length ∧
      getMacSduRequiredBytes enc.maxSduSize ≤ getMacSduRequiredBytes est := by
  have hrem : p.pdu.length - p.byteOffset = r.length := h.nofEmptyBytes
  by_cases hest : est = 0
  · simp [getSduEncoder, hest] at henc
  by_cases hroom : r.length < minMacSubhdrAndSduSpaceRequired lcid
  · simp [getSduEncoder, hest, hrem, hroom] at henc
  simp only [getSduEncoder, hest, hrem, hroom, if_false, Option.some.injEq] at henc
  subst henc
  have hreq := three_le_getMacSduRequiredBytes (Nat.pos_of_ne_zero hest)
  have h3 := three_le_minMacSubhdrAndSduSpaceRequired lcid
  obtain ⟨hpos, hfit⟩ := getMacSduPayloadSize_fits (s := min r.length (getMacSduRequiredBytes est)) (by omega)
  refine ⟨rfl, rfl, hpos, ?_, ?_⟩
  · exact hfit.trans (Nat.min_le_left _ _)
  · exact hfit.trans (Nat.min_le_right _ _)

theorem sduBuffer_holds (h : p.Holds pre r) {e : MacSduEncoder} (hfit : e.subhrLen + e.maxSduSize ≤ r.length) :
    e.sduBuffer p = .ok (pre.length + e.subhrLen, e.maxSduSize) := by
  have hlen : p.pdu.length = pre.length + r.length := by simp [h.pdu_eq]
  simp only [MacSduEncoder.sduBuffer, h.offset_eq, hlen]
  rw [if_neg (by omega), if_neg (by omega)]

/-- `encode_sdu` after the RLC wrote `sdu` at the start of the encoder's
buffer: the subheader goes before the SDU, which moves one octet to the left
when it is shorter than the three-octet subheader reserved for it. -/
theorem encodeSdu_holds {e : MacSduEncoder} {sdu : List UInt8} (h : p.Holds pre (writeAt r e.subhrLen sdu))
    (he : e.subhrLen = getMacSduSubheaderSize e.maxSduSize) (hfit : e.subhrLen + e.maxSduSize ≤ r.length)
    (hne : sdu ≠ []) (hle : sdu.length ≤ e.maxSduSize) :
    ∃ p' r', e.encodeSdu p sdu.length = .ok ((macOctets (.sdu e.lcid.value sdu)).length, p') ∧
      p'.Holds (pre ++ macOctets (.sdu e.lcid.value sdu)) r' ∧
      r'.length = r.length - (macOctets (.sdu e.lcid.value sdu)).length := by
  have hn := List.length_pos_iff.mpr hne
  have hW : (writeAt r e.subhrLen sdu).length = r.length := length_writeAt (by omega)
  have hmono := getMacSduSubheaderSize_le_of_le hn hle
  have hsz := getMacSduSubheaderSize_of_pos hn
  have hszmax := getMacSduSubheaderSize_of_pos (show 0 < e.maxSduSize by omega)
  have hoct := length_macOctets_sdu e.lcid.value hne
  have hcond : ¬ (sdu.length = 0 ∨ sdu.length > e.maxSduSize) := by omega
  unfold getMacSduRequiredBytes at hoct
  by_cases hshift : getMacSduSubheaderSize sdu.length = e.subhrLen
  · -- the subheader reserved is the one the SDU needs
    obtain ⟨p1, h1, hp1⟩ := encodeSubheader_holds h (decide (e.subhrLen > minMacSduSubheaderSize)) e.lcid
      e.subhrLen sdu.length (by omega) (by omega)
    rw [drop_writeAt_self r sdu (by omega)] at hp1
    refine ⟨{ p1 with byteOffset := p1.byteOffset + sdu.length }, r.drop (e.subhrLen + sdu.length), ?_,
      by rw [macOctets, hshift, ← List.append_assoc]; exact hp1.advance, ?_⟩
    · rw [MacSduEncoder.encodeSdu, if_neg hcond, if_neg (not_not.mpr hshift)]
      simp only [Fallible.pure_eq_ok, Fallible.ok_bind, h1, hoct, hshift, Nat.add_comm]
    · rw [hoct, hshift, List.length_drop]
      omega
  · -- a 3-octet subheader was reserved for an SDU below 256 octets
    have h3 : e.subhrLen = 3 ∧ getMacSduSubheaderSize sdu.length = 2 := by omega
    rw [h3.1] at h hfit hW
    have hdst : p.byteOffset + minMacSduSubheaderSize = pre.length + 2 := by rw [h.offset_eq]; rfl
    obtain ⟨p1, h1, hp1⟩ := copyRaw_holds h 3 sdu.length 2 (by omega) (by omega)
    have hread : ((writeAt r 3 sdu).drop 3).take sdu.length = sdu := by
      rw [drop_writeAt_self r sdu (by omega), List.take_left' rfl]
    rw [hread] at hp1
    obtain ⟨p2, h2, hp2⟩ := encodeSubheader_holds hp1 false e.lcid 2 sdu.length (by omega)
      (by rw [length_writeAt (by omega)]; omega)
    rw [drop_writeAt_self _ sdu (by omega)] at hp2
    refine ⟨{ p2 with byteOffset := p2.byteOffset + sdu.length }, (writeAt r 3 sdu).drop (2 + sdu.length), ?_, ?_,
      ?_⟩
    · rw [MacSduEncoder.encodeSdu, if_neg hcond, if_pos hshift]
      simp only [hdst, h1, Fallible.pure_eq_ok, Fallible.ok_bind]
      rw [show decide (minMacSduSubheaderSize > minMacSduSubheaderSize) = false from rfl]
      simp only [show minMacSduSubheaderSize = 2 from rfl, h2, Fallible.ok_bind, hoct, h3.2, Nat.add_comm]
    · have := hp2.advance
      rwa [macOctets, h3.2, show decide (2 > minMacSduSubheaderSize) = false from rfl, ← List.append_assoc]
    · simp
      omega

end DlSchPdu

end SrsRan.Mac
