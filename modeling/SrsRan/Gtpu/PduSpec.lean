import SrsRan.Gtpu.Pdu

/-!
What the GTP-U coder of `gtpu_pdu.cpp` computes, octet by octet.

The reader: `gtpu_dissect_pdu` reads every field at face value, an octet
past the end as 0 (`octetAt`), and walks the extension headers by their
next-type octets (`ExtChain`); whatever it accepts, its header length and
every container lie inside the buffer (`gtpuDissectPdu_sound`).

The writer: `gtpu_write_header` writes the header as TS 29.281 figure 5.1-1
lays it out (`headerFieldOctets`, `extListOctets`) as long as every
container has `4 k + 2` octets below 254 (`gtpuWriteHeader_eq`), and then
the dissector gives the header back and `gtpu_extract_msg` the T-PDU.
-/

namespace SrsRan.Gtpu

open BitString GtpuExtensionHeaderType

/-! ## Reading at face value -/

/-- The octet at `pos`, 0 past the end: what an unchecked `unpack` of eight
bits gives. -/
def octetAt (raw : List UInt8) (pos : Nat) : UInt8 := raw[pos]?.getD 0

theorem unpackUnchecked_octetAt (raw : List UInt8) (pos : Nat) (hpos : pos ≤ raw.length) :
    BitDecoder.unpackUnchecked ⟨raw, pos, 0⟩ 8 8 =
      .ok ((octetAt raw pos).toNat, ⟨raw, min (pos + 1) raw.length, 0⟩) := by
  by_cases hlt : pos < raw.length
  · have h := BitDecoder.unpackUnchecked_octets (k := 1) (t := 8) (show pos + 1 ≤ raw.length by omega)
      le_rfl
    rw [h, List.take_one_drop_eq_of_lt_length hlt]
    simp [octetAt, hlt, ofMsbBits_octet]
  · rw [BitDecoder.unpackUnchecked_of_end (by omega) (by decide) le_rfl]
    simp [octetAt, List.getElem?_eq_none (show raw.length ≤ pos by omega),
      show min (pos + 1) raw.length = pos by omega]

theorem gtpuUnpackExtHeaderType_at (raw : List UInt8) (pos : Nat) (hpos : pos ≤ raw.length) :
    gtpuUnpackExtHeaderType ⟨raw, pos, 0⟩ =
      .ok (octetAt raw pos, ⟨raw, min (pos + 1) raw.length, 0⟩) := by
  simp [gtpuUnpackExtHeaderType, unpackUnchecked_octetAt raw pos hpos]

/-- `L * 4 - 2` in `uint16_t`. -/
theorem extPayload_toNat (length : Nat) :
    (UInt16.ofNat length * 4 - 2).toNat = (length * 4 + 65534) % 65536 := by
  have h2 : (2 : UInt16).toNat = 2 := rfl
  have h4 : (4 : UInt16).toNat = 4 := rfl
  simp only [UInt16.toNat_sub, UInt16.toNat_mul, UInt16.toNat_ofNat', h2, h4]
  omega

/-- `gtpu_read_ext_header` at octet `pos`, at face value: the container (the
`L * 4 - 2` octets after the length octet `L`, in `uint16_t`, or none when
they run past the end), the next type, and where the reader stops. -/
def extFieldsAt (raw : List UInt8) (pos : Nat) : List UInt8 × UInt8 × Nat :=
  let p₁ := min (pos + 1) raw.length
  let n := ((octetAt raw pos).toNat * 4 + 65534) % 65536
  let p₂ := if n ≤ raw.length - p₁ then p₁ + n else p₁
  (if n ≤ raw.length - p₁ then (raw.drop p₁).take n else [], octetAt raw p₂, min (p₂ + 1) raw.length)

theorem gtpuReadExtHeader_at {raw : List UInt8} {pos : Nat} (hpos : pos ≤ raw.length) :
    gtpuReadExtHeader ⟨raw, pos, 0⟩ =
      .ok ((extFieldsAt raw pos).1, (extFieldsAt raw pos).2.1, ⟨raw, (extFieldsAt raw pos).2.2, 0⟩) := by
  simp only [gtpuReadExtHeader, unpackUnchecked_octetAt raw pos hpos, lift_ok, Fallible.ok_bind,
    extPayload_toNat, BitDecoder.unpackAlignedBytes_at, extFieldsAt]
  by_cases hn : ((octetAt raw pos).toNat * 4 + 65534) % 65536 ≤ raw.length - min (pos + 1) raw.length
  · simp only [if_pos hn, lift_ok, Fallible.ok_bind, gtpuUnpackExtHeaderType_at raw _ (show
      min (pos + 1) raw.length + ((octetAt raw pos).toNat * 4 + 65534) % 65536 ≤ raw.length by omega)]
    rfl
  · simp only [if_neg hn, lift_ok, Fallible.ok_bind, gtpuUnpackExtHeaderType_at raw _ (show
      min (pos + 1) raw.length ≤ raw.length by omega)]
    rfl

/-- The six fields of the flags octet: version, protocol type, spare, E, S
and PN. -/
theorem msbBits_flags (c : Nat) :
    msbBits 8 c = msbBits 3 (c / 32) ++ (msbBits 1 (c / 16) ++ (msbBits 1 (c / 8) ++
      (msbBits 1 (c / 4) ++ (msbBits 1 (c / 2) ++ msbBits 1 c)))) := by
  have h8 : msbBits 8 c = msbBits 3 (c / 32) ++ msbBits 5 c := msbBits_add 3 5 c
  have h5 : msbBits 5 c = msbBits 1 (c / 16) ++ msbBits 4 c := msbBits_add 1 4 c
  have h4 : msbBits 4 c = msbBits 1 (c / 8) ++ msbBits 3 c := msbBits_add 1 3 c
  have h3 : msbBits 3 c = msbBits 1 (c / 4) ++ msbBits 2 c := msbBits_add 1 2 c
  have h2 : msbBits 2 c = msbBits 1 (c / 2) ++ msbBits 1 c := msbBits_add 1 1 c
  rw [h8, h5, h4, h3, h2]

/-- The flags as `gtpu_dissect_pdu` unpacks them from the flags octet. -/
def flagsOfOctet (c : UInt8) : GtpuFlags :=
  { version := .ofNat (c.toNat / 32 % 8), protocolType := .ofNat (c.toNat / 16 % 2),
    extHdr := c.toNat / 4 % 2 != 0, seqNumber := c.toNat / 2 % 2 != 0, nPdu := c.toNat % 2 != 0 }

/-- The mandatory part at face value: the flags octet, the message type, and
the length and TEID, most significant octet first. -/
def mandatoryHeaderAt (raw : List UInt8) : GtpuHeader :=
  { flags := flagsOfOctet (octetAt raw 0), messageType := octetAt raw 1,
    length := .ofNat (ofMsbBits (octetBits ((raw.drop 2).take 2))),
    teid := .ofNat (ofMsbBits (octetBits ((raw.drop 4).take 4))), extList_length_le := Nat.zero_le _ }

theorem gtpuReadMandatoryFields_at {raw : List UInt8} (h8 : gtpuBaseHeaderLen ≤ raw.length) :
    gtpuReadMandatoryFields (BitReader.ofBuffer raw) =
      if gtpuSupportedFlagsCheck { flags := flagsOfOctet (octetAt raw 0) } then
        .ok (mandatoryHeaderAt raw, ⟨raw, 8, 0⟩)
      else .error .unhandledFlags := by
  unfold gtpuBaseHeaderLen at h8
  obtain ⟨c, tl, rfl⟩ : ∃ c tl, raw = c :: tl := by
    cases raw with
    | nil => simp at h8
    | cons c tl => exact ⟨c, tl, rfl⟩
  have h0 := BitReader.reads_ofBuffer (c :: tl)
  rw [octetBits_cons, msbBits_flags, List.append_assoc] at h0
  obtain ⟨r₁, e₁, b₁, h₁⟩ := BitDecoder.unpackUnchecked_reads h0 (show 3 ≤ 8 by decide)
  rw [List.append_assoc] at h₁
  obtain ⟨r₂, e₂, b₂, h₂⟩ := BitDecoder.unpackUnchecked_reads h₁ (show 1 ≤ 8 by decide)
  rw [List.append_assoc] at h₂
  obtain ⟨r₃, e₃, b₃, h₃⟩ := BitDecoder.unpackUnchecked_reads h₂ (show 1 ≤ 8 by decide)
  rw [List.append_assoc] at h₃
  obtain ⟨r₄, e₄, b₄, h₄⟩ := BitDecoder.unpackUnchecked_reads h₃ (show 1 ≤ 1 by decide)
  rw [List.append_assoc] at h₄
  obtain ⟨r₅, e₅, b₅, h₅⟩ := BitDecoder.unpackUnchecked_reads h₄ (show 1 ≤ 1 by decide)
  obtain ⟨r₆, e₆, b₆, h₆⟩ := BitDecoder.unpackUnchecked_reads h₅ (show 1 ≤ 1 by decide)
  have hbuf : r₆.buffer = c :: tl := by rw [b₆, b₅, b₄, b₃, b₂, b₁]; rfl
  have hr₆ : r₆ = ⟨c :: tl, 1, 0⟩ := by
    have h : r₆.Reads (octetBits (r₆.buffer.drop 1)) := by rw [hbuf]; exact h₆
    rw [h.eq_at (by rw [hbuf]; simp), hbuf]
  subst hr₆
  have e₇ := unpackUnchecked_octetAt (c :: tl) 1 (by simp)
  have e₈ : BitDecoder.unpackUnchecked ⟨c :: tl, 2, 0⟩ 16 16 = _ :=
    BitDecoder.unpackUnchecked_octets (k := 2) (t := 16) (by simp at h8 ⊢; omega) le_rfl
  have e₉ : BitDecoder.unpackUnchecked ⟨c :: tl, 4, 0⟩ 32 32 = _ :=
    BitDecoder.unpackUnchecked_octets (k := 4) (t := 32) (by simp at h8 ⊢; omega) le_rfl
  rw [show min (1 + 1) (c :: tl).length = 2 by simp at h8 ⊢; omega] at e₇
  simp only [gtpuReadMandatoryFields, e₁, e₂, e₃, e₄, e₅, e₆, e₇, e₈, e₉, lift_ok, Fallible.ok_bind,
    UInt8.ofNat_toNat, Nat.reducePow, Nat.reduceAdd]
  have hflags : flagsOfOctet (octetAt (c :: tl) 0) =
      { version := UInt8.ofNat (c.toNat / 32 % 8), protocolType := UInt8.ofNat (c.toNat / 16 % 2),
        extHdr := c.toNat / 4 % 2 != 0, seqNumber := c.toNat / 2 % 2 != 0, nPdu := c.toNat % 2 != 0 } :=
    rfl
  rw [hflags]
  generalize gtpuSupportedFlagsCheck _ = b
  cases b
  · rfl
  · rfl

/-- The optional part at face value: the sequence number in octets 8 and 9,
the N-PDU number in octet 10 and the next type in octet 11. -/
theorem gtpuReadOptionalFields_at {raw : List UInt8} {hdr : GtpuHeader}
    (hopt : (hdr.flags.extHdr || hdr.flags.seqNumber || hdr.flags.nPdu) = true) :
    gtpuReadOptionalFields ⟨raw, 8, 0⟩ hdr =
      if raw.length < gtpuExtendedHeaderLen then .error .extendedPduTooSmall
      else if gtpuExtensionHeaderComprehensionCheck (octetAt raw 11) then
        .ok ({ hdr with seqNumber := .ofNat (ofMsbBits (octetBits ((raw.drop 8).take 2))),
                        nPdu := octetAt raw 10, nextExtHdrType := octetAt raw 11 }, ⟨raw, 12, 0⟩)
      else .error .extensionNotComprehended := by
  unfold gtpuReadOptionalFields gtpuExtendedHeaderLen
  simp only [hopt, Bool.not_true, Bool.false_eq_true, if_false]
  by_cases h12 : raw.length < 12
  · simp only [h12, if_true]
    rfl
  · have e₁ : BitDecoder.unpackUnchecked ⟨raw, 8, 0⟩ 16 16 = _ :=
      BitDecoder.unpackUnchecked_octets (k := 2) (t := 16) (by omega) le_rfl
    have e₂ := unpackUnchecked_octetAt raw 10 (by omega)
    have e₃ := gtpuUnpackExtHeaderType_at raw 11 (by omega)
    rw [show min (10 + 1) raw.length = 11 by omega] at e₂
    rw [show min (11 + 1) raw.length = 12 by omega] at e₃
    simp only [h12, if_false, e₁, e₂, e₃, lift_ok, Fallible.ok_bind, UInt8.ofNat_toNat]
    generalize gtpuExtensionHeaderComprehensionCheck (octetAt raw 11) = b
    cases b
    · rfl
    · rfl

/-- An extension read at face value ends inside the buffer, after where it
started. -/
theorem extFieldsAt_stop {raw : List UInt8} {pos : Nat} (hpos : pos ≤ raw.length) :
    pos ≤ (extFieldsAt raw pos).2.2 ∧ (extFieldsAt raw pos).2.2 ≤ raw.length := by
  unfold extFieldsAt
  dsimp only
  split_ifs <;> omega

/-- The extension headers `exts`, the first of type `type` read from octet
`pos`, end at octet `stop`: each is read at face value and passes the
comprehension check, and it is followed by the type of the next one, the
last by `no_more_extension_headers`. -/
inductive ExtChain (raw : List UInt8) : Nat → UInt8 → List GtpuExtensionHeader → Nat → Prop
  | last {pos : Nat} {type : UInt8} :
      gtpuExtensionHeaderComprehensionCheck type = true →
      (extFieldsAt raw pos).2.1 = noMoreExtensionHeaders →
      ExtChain raw pos type [⟨type, (extFieldsAt raw pos).1⟩] (extFieldsAt raw pos).2.2
  | cons {pos stop : Nat} {type : UInt8} {exts : List GtpuExtensionHeader} :
      gtpuExtensionHeaderComprehensionCheck type = true →
      (extFieldsAt raw pos).2.1 ≠ noMoreExtensionHeaders →
      ExtChain raw (extFieldsAt raw pos).2.2 (extFieldsAt raw pos).2.1 exts stop →
      ExtChain raw pos type (⟨type, (extFieldsAt raw pos).1⟩ :: exts) stop

theorem ExtChain.stop_le {raw : List UInt8} {pos stop : Nat} {type : UInt8}
    {exts : List GtpuExtensionHeader} (h : ExtChain raw pos type exts stop) (hpos : pos ≤ raw.length) :
    pos ≤ stop ∧ stop ≤ raw.length := by
  induction h with
  | last _ _ => exact extFieldsAt_stop hpos
  | cons _ _ _ ih =>
    have h₁ := extFieldsAt_stop hpos
    have h₂ := ih h₁.2
    omega

/-- What the extension loop of `gtpu_dissect_pdu` returns is a chain read at
face value, and the decoder stops at its end. -/
theorem gtpuReadExtHeaders_chain {raw : List UInt8} {pos room : Nat} {type : UInt8}
    {exts : {l : List GtpuExtensionHeader // l.length ≤ room}} {r : BitReader} (hpos : pos ≤ raw.length)
    (h : gtpuReadExtHeaders ⟨raw, pos, 0⟩ type room = .ok (exts, r)) :
    ExtChain raw pos type exts.1 r.it ∧ r = ⟨raw, r.it, 0⟩ := by
  induction room generalizing pos type r with
  | zero =>
    cases hc : gtpuExtensionHeaderComprehensionCheck type <;>
      simp [gtpuReadExtHeaders, hc, gtpuReadExtHeader_at hpos] at h
  | succ room ih =>
    cases hc : gtpuExtensionHeaderComprehensionCheck type
    · simp [gtpuReadExtHeaders, hc] at h
    simp only [gtpuReadExtHeaders, hc, gtpuReadExtHeader_at hpos, Fallible.ok_bind,
      Bool.not_true, Bool.false_eq_true, if_false] at h
    by_cases hnext : (extFieldsAt raw pos).2.1 = noMoreExtensionHeaders
    · simp only [hnext, if_true, Fallible.pure_eq_ok, Except.ok.injEq, Prod.mk.injEq] at h
      obtain ⟨rfl, rfl⟩ := h
      exact ⟨.last hc hnext, rfl⟩
    · simp only [hnext, if_false] at h
      have hstop := extFieldsAt_stop hpos
      cases hrec : gtpuReadExtHeaders ⟨raw, (extFieldsAt raw pos).2.2, 0⟩ (extFieldsAt raw pos).2.1 room with
      | error e => simp [hrec] at h
      | ok res =>
        obtain ⟨exts', r'⟩ := res
        simp only [hrec, Fallible.ok_bind, Fallible.pure_eq_ok, Except.ok.injEq, Prod.mk.injEq] at h
        obtain ⟨rfl, rfl⟩ := h
        have hih := ih hstop.2 hrec
        exact ⟨.cons hc hnext hih.1, hih.2⟩

/-- The optional part leaves the flags and extensions alone and stops at
octet 12, or is skipped. -/
theorem gtpuReadOptionalFields_stop {raw : List UInt8} {hdr hdr' : GtpuHeader} {r : BitReader}
    (h : gtpuReadOptionalFields ⟨raw, 8, 0⟩ hdr = .ok (hdr', r)) :
    hdr'.flags = hdr.flags ∧ hdr'.extList = hdr.extList ∧
      r = ⟨raw, if (hdr.flags.extHdr || hdr.flags.seqNumber || hdr.flags.nPdu) then 12 else 8, 0⟩ ∧
      ((hdr.flags.extHdr || hdr.flags.seqNumber || hdr.flags.nPdu) = true → 12 ≤ raw.length) := by
  cases hopt : (hdr.flags.extHdr || hdr.flags.seqNumber || hdr.flags.nPdu)
  · simp only [gtpuReadOptionalFields, hopt, Bool.not_false, if_true, Fallible.pure_eq_ok,
      Except.ok.injEq, Prod.mk.injEq] at h
    obtain ⟨rfl, rfl⟩ := h
    simp
  · rw [gtpuReadOptionalFields_at hopt] at h
    unfold gtpuExtendedHeaderLen at h
    split_ifs at h with h12 hc
    simp only [Except.ok.injEq, Prod.mk.injEq] at h
    obtain ⟨rfl, rfl⟩ := h
    exact ⟨rfl, rfl, rfl, fun _ => by omega⟩

/-- The extension part, when the E flag is set, is a chain read at face
value from where the decoder stands; otherwise it is skipped. -/
theorem gtpuReadExtensions_chain {raw : List UInt8} {pos : Nat} {hdr hdr' : GtpuHeader}
    {r : BitReader} (hpos : pos ≤ raw.length) (h : gtpuReadExtensions ⟨raw, pos, 0⟩ hdr = .ok (hdr', r)) :
    hdr'.flags = hdr.flags ∧ hdr'.nextExtHdrType = hdr.nextExtHdrType ∧ r = ⟨raw, r.it, 0⟩ ∧
      (hdr.flags.extHdr = true → ExtChain raw pos hdr.nextExtHdrType hdr'.extList r.it) ∧
      (hdr.flags.extHdr = false → r.it = pos) := by
  cases hext : hdr.flags.extHdr
  · simp only [gtpuReadExtensions, hext, Bool.not_false, if_true, Fallible.pure_eq_ok,
      Except.ok.injEq, Prod.mk.injEq] at h
    obtain ⟨rfl, rfl⟩ := h
    simp
  · simp only [gtpuReadExtensions, hext, Bool.not_true, Bool.false_eq_true, if_false] at h
    by_cases hno : hdr.nextExtHdrType = noMoreExtensionHeaders
    · simp [hno] at h
    simp only [hno, if_false] at h
    cases hrec : gtpuReadExtHeaders ⟨raw, pos, 0⟩ hdr.nextExtHdrType gtpuMaxNumHeaderExtensions with
    | error e => simp [hrec] at h
    | ok res =>
      obtain ⟨exts, r'⟩ := res
      simp only [hrec, Fallible.ok_bind, Fallible.pure_eq_ok, Except.ok.injEq, Prod.mk.injEq] at h
      obtain ⟨rfl, rfl⟩ := h
      have hchain := gtpuReadExtHeaders_chain hpos hrec
      exact ⟨rfl, rfl, hchain.2, fun _ => hchain.1, fun h => by cases h⟩

theorem gtpuDissectPdu_sound {raw : List UInt8} {d : GtpuDissectedPdu}
    (h : gtpuDissectPdu raw = .ok d) :
    d.buf = raw ∧ d.hdrLen ≤ raw.length ∧
      (d.hdr.flags.extHdr = true →
        ExtChain raw gtpuExtendedHeaderLen d.hdr.nextExtHdrType d.hdr.extList d.hdrLen) := by
  unfold gtpuDissectPdu at h
  by_cases h8 : raw.length < gtpuBaseHeaderLen
  · simp [h8] at h
  simp only [h8, if_false, gtpuReadMandatoryFields_at (Nat.le_of_not_lt h8)] at h
  cases hf : gtpuSupportedFlagsCheck { flags := flagsOfOctet (octetAt raw 0) }
  · simp [hf] at h
  simp only [hf, if_true, Fallible.ok_bind] at h
  by_cases hl : (mandatoryHeaderAt raw).length ≠ UInt16.ofNat (raw.length - gtpuBaseHeaderLen)
  · simp [hl] at h
  simp only [hl, if_false] at h
  cases hopt : gtpuReadOptionalFields ⟨raw, 8, 0⟩ (mandatoryHeaderAt raw) with
  | error e => simp [hopt] at h
  | ok res₁ =>
    obtain ⟨hdr₁, r₁⟩ := res₁
    obtain ⟨hf₁, -, rfl, h12⟩ := gtpuReadOptionalFields_stop hopt
    simp only [hopt, Fallible.ok_bind] at h
    -- the extension part starts at octet 12 or 8, inside the buffer
    have hpos : (if ((mandatoryHeaderAt raw).flags.extHdr || (mandatoryHeaderAt raw).flags.seqNumber ||
        (mandatoryHeaderAt raw).flags.nPdu) = true then 12 else 8) ≤ raw.length := by
      split_ifs with ho
      · exact h12 ho
      · unfold gtpuBaseHeaderLen at h8
        omega
    generalize hp : (if ((mandatoryHeaderAt raw).flags.extHdr || (mandatoryHeaderAt raw).flags.seqNumber ||
        (mandatoryHeaderAt raw).flags.nPdu) = true then 12 else 8) = p at h hpos
    cases hexts : gtpuReadExtensions ⟨raw, p, 0⟩ hdr₁ with
    | error e => simp only [hexts, Fallible.error_bind, reduceCtorEq] at h
    | ok res₂ =>
      obtain ⟨hdr₂, r₂⟩ := res₂
      simp only [hexts, Fallible.ok_bind, Fallible.pure_eq_ok, Except.ok.injEq] at h
      subst h
      obtain ⟨hf₂, hn₂, hr₂, hchain, hskip⟩ := gtpuReadExtensions_chain hpos hexts
      have hlen : r₂.nofBytes = r₂.it := by rw [hr₂]; rfl
      refine ⟨rfl, ?_, ?_⟩
      · rw [hlen]
        cases hE : hdr₁.flags.extHdr
        · rw [hskip hE]
          exact hpos
        · exact ((hchain hE).stop_le hpos).2
      · intro hE
        simp only at hE ⊢
        rw [hf₂] at hE
        have ho : ((mandatoryHeaderAt raw).flags.extHdr || (mandatoryHeaderAt raw).flags.seqNumber ||
            (mandatoryHeaderAt raw).flags.nPdu) = true := by
          rw [← hf₁, hE, Bool.true_or, Bool.true_or]
        rw [hlen, hn₂]
        have hc := hchain hE
        rw [← hp, if_pos ho] at hc
        exact hc

/-! ## The header as TS 29.281 lays it out -/

/-- The flags octet: version, protocol type, a zero spare bit, E, S, PN. -/
def flagsOctet (version protocolType e s pn : Nat) : UInt8 :=
  UInt8.ofNat (version % 8 * 32 + protocolType % 2 * 16 + e % 2 * 4 + s % 2 * 2 + pn % 2)

/-- One extension header: its length in 4-octet units, its content, and
the type of the one after it. -/
def extOctets (ext : GtpuExtensionHeader) (next : UInt8) : List UInt8 :=
  UInt8.ofNat ((ext.container.length + 2) / 4) :: ext.container ++ [next]

/-- The chain of extension headers, the last followed by
`no_more_extension_headers`. -/
def extListOctets : List GtpuExtensionHeader → List UInt8
  | [] => []
  | [ext] => extOctets ext noMoreExtensionHeaders
  | ext :: next :: rest => extOctets ext next.extensionHeaderType ++ extListOctets (next :: rest)

/-- The type of the first extension header, or `no_more_extension_headers`. -/
def GtpuHeader.firstExtType (header : GtpuHeader) : UInt8 :=
  (header.extList.head?.map (·.extensionHeaderType)).getD noMoreExtensionHeaders

/-- The flags octet of a header: E set when it has extensions. -/
def GtpuHeader.flagsByte (header : GtpuHeader) : UInt8 :=
  flagsOctet header.flags.version.toNat header.flags.protocolType.toNat
    (if header.extList.isEmpty then 0 else 1) (if header.flags.seqNumber then 1 else 0)
    (if header.flags.nPdu then 1 else 0)

/-- The mandatory part of the header, with length field `len`. -/
def mandatoryOctets (header : GtpuHeader) (len : UInt16) : List UInt8 :=
  [header.flagsByte, header.messageType] ++ msbOctets 2 len.toNat ++ msbOctets 4 header.teid.toNat

/-- The optional part: sequence number, N-PDU number and the type of the
first extension, when present. -/
def optionalOctets (header : GtpuHeader) : List UInt8 :=
  if header.hasOptionalFields then msbOctets 2 header.seqNumber.toNat ++ [header.nPdu, header.firstExtType]
  else []

/-- The mandatory part and, when present, the optional part of the header
with length field `len`. -/
def headerFieldOctets (header : GtpuHeader) (len : UInt16) : List UInt8 :=
  mandatoryOctets header len ++ optionalOctets header

theorem msbBits_flagsOctet (version protocolType e s pn : Nat) :
    msbBits 8 (flagsOctet version protocolType e s pn).toNat =
      msbBits 3 version ++ (msbBits 1 protocolType ++ (msbBits 1 0 ++ (msbBits 1 e ++
        (msbBits 1 s ++ msbBits 1 pn)))) := by
  have hN : version % 8 * 32 + protocolType % 2 * 16 + e % 2 * 4 + s % 2 * 2 + pn % 2 < 256 := by omega
  rw [flagsOctet, UInt8.toNat_ofNat', Nat.mod_eq_of_lt hN, msbBits_flags]
  refine congrArg₂ (· ++ ·) (msbBits_congr ?_) (congrArg₂ (· ++ ·) (msbBits_congr ?_)
    (congrArg₂ (· ++ ·) (msbBits_congr ?_) (congrArg₂ (· ++ ·) (msbBits_congr ?_)
    (congrArg₂ (· ++ ·) (msbBits_congr ?_) (msbBits_congr ?_))))) <;> omega

/-! ## What `bit_encoder` writes -/

/-- `gtpu_write_ext_header` on a container of `4 k + 2` octets: its length
octet is `1 + length + 1` in `uint8_t`, over 4. -/
theorem gtpuWriteExtHeader_holds {w : BitWriter} {bits : List Bool} (h : w.Holds bits)
    (ext : GtpuExtensionHeader) (next : UInt8) (hc : ext.container.length % 4 = 2) :
    ∃ w', gtpuWriteExtHeader w ext next = .ok w' ∧
      w'.Holds (bits ++ octetBits (UInt8.ofNat ((ext.container.length + 2) % 256 / 4) ::
        ext.container ++ [next])) := by
  have hpayload : (1 + UInt8.ofNat ext.container.length + 1).toNat = (ext.container.length + 2) % 256 := by
    simp only [UInt8.toNat_add, UInt8.toNat_ofNat']
    have : (1 : UInt8).toNat = 1 := rfl
    omega
  have hmod : ¬ (1 + UInt8.ofNat ext.container.length + 1) % 4 ≠ 0 := by
    rw [not_not, ← UInt8.toNat_inj, UInt8.toNat_mod, hpayload]
    have : (4 : UInt8).toNat = 4 := rfl
    simp only [this, UInt8.toNat_zero]
    omega
  have hlen : ((1 + UInt8.ofNat ext.container.length + 1) / 4).toUInt64.toNat =
      (ext.container.length + 2) % 256 / 4 := by
    rw [UInt8.toNat_toUInt64, UInt8.toNat_div, hpayload]
    rfl
  obtain ⟨e₁, h₁⟩ := pack_holds h ((1 + UInt8.ofNat ext.container.length + 1) / 4).toUInt64
    (show 8 ≤ 64 by decide)
  obtain ⟨w₂, e₂, h₂⟩ := packBytes_holds h₁ ext.container
  obtain ⟨e₃, h₃⟩ := pack_holds h₂ next.toUInt64 (show 8 ≤ 64 by decide)
  have hbits : bits ++ msbBits 8 ((1 + UInt8.ofNat ext.container.length + 1) / 4).toUInt64.toNat ++
      octetBits ext.container ++ msbBits 8 next.toUInt64.toNat =
      bits ++ octetBits (UInt8.ofNat ((ext.container.length + 2) % 256 / 4) :: ext.container ++ [next]) := by
    rw [hlen, UInt8.toNat_toUInt64]
    simp only [octetBits_append, octetBits_cons, octetBits_nil, List.append_nil, UInt8.toNat_ofNat',
      msbBits_mod, List.append_assoc]
  rw [hbits] at h₃
  refine ⟨_, ?_, h₃⟩
  simp only [gtpuWriteExtHeader, hmod, if_false, e₁, e₂, e₃, lift_ok, Fallible.ok_bind]

/-- The extension headers of TS 29.281 5.2.1, with containers of
`4 k + 2` octets below 254, the length octet in `uint8_t` not wrapping. -/
def ExtensionsWellFormed (exts : List GtpuExtensionHeader) : Prop :=
  ∀ ext ∈ exts, ext.container.length % 4 = 2 ∧ ext.container.length < 254

theorem gtpuWriteExtHeader_holds_of_lt {w : BitWriter} {bits : List Bool} (h : w.Holds bits)
    {ext : GtpuExtensionHeader} (next : UInt8) (hc : ext.container.length % 4 = 2 ∧ ext.container.length < 254) :
    ∃ w', gtpuWriteExtHeader w ext next = .ok w' ∧ w'.Holds (bits ++ octetBits (extOctets ext next)) := by
  have e := gtpuWriteExtHeader_holds h ext next hc.1
  rwa [Nat.mod_eq_of_lt (show ext.container.length + 2 < 256 by omega)] at e

/-- The loop over `ext_list` writes the chain of extension headers. -/
theorem gtpuWriteExtHeaders_holds {w : BitWriter} {bits : List Bool} (h : w.Holds bits) :
    ∀ {exts : List GtpuExtensionHeader}, ExtensionsWellFormed exts →
      ∃ w', gtpuWriteExtHeaders w exts = .ok w' ∧ w'.Holds (bits ++ octetBits (extListOctets exts))
  | [], _ => ⟨w, rfl, by simpa [extListOctets] using h⟩
  | [ext], hwf => gtpuWriteExtHeader_holds_of_lt h _ (hwf ext List.mem_cons_self)
  | ext :: next :: rest, hwf => by
    obtain ⟨w₁, e₁, h₁⟩ := gtpuWriteExtHeader_holds_of_lt h next.extensionHeaderType
      (hwf ext List.mem_cons_self)
    obtain ⟨w₂, e₂, h₂⟩ := gtpuWriteExtHeaders_holds h₁
      (show ExtensionsWellFormed (next :: rest) from fun e he => hwf e (List.mem_cons_of_mem _ he))
    refine ⟨w₂, ?_, ?_⟩
    · simp only [gtpuWriteExtHeaders, e₁, Fallible.ok_bind, e₂]
    · simpa [extListOctets] using h₂

/-- The optional part, when present: sequence number, N-PDU number and the
type of the first extension. -/
theorem gtpuWriteOptionalFields_holds {w : BitWriter} {bits : List Bool} (h : w.Holds bits)
    (header : GtpuHeader) :
    ∃ w', gtpuWriteOptionalFields w header = .ok w' ∧
      w'.Holds (bits ++ octetBits (if header.hasOptionalFields then
        msbOctets 2 header.seqNumber.toNat ++ [header.nPdu, header.firstExtType] else [])) := by
  by_cases hopt : header.hasOptionalFields = true
  · obtain ⟨e₁, h₁⟩ := pack_holds h header.seqNumber.toUInt64 (show 16 ≤ 64 by decide)
    obtain ⟨e₂, h₂⟩ := pack_holds h₁ header.nPdu.toUInt64 (show 8 ≤ 64 by decide)
    obtain ⟨e₃, h₃⟩ := pack_holds h₂ header.firstExtType.toUInt64 (show 8 ≤ 64 by decide)
    have hbits : bits ++ msbBits 16 header.seqNumber.toUInt64.toNat ++
        msbBits 8 header.nPdu.toUInt64.toNat ++ msbBits 8 header.firstExtType.toUInt64.toNat =
        bits ++ octetBits (msbOctets 2 header.seqNumber.toNat ++ [header.nPdu, header.firstExtType]) := by
      simp [octetBits_msbOctets, UInt16.toNat_toUInt64, UInt8.toNat_toUInt64]
    rw [hbits] at h₃
    rw [if_pos hopt]
    refine ⟨_, ?_, h₃⟩
    simp only [gtpuWriteOptionalFields, hopt, if_true, e₁, e₂, lift_ok, Fallible.ok_bind]
    cases hl : header.extList with
    | nil =>
      have hfirst : header.firstExtType = noMoreExtensionHeaders := by
        simp [GtpuHeader.firstExtType, hl]
      rw [hfirst] at e₃ ⊢
      simp only [e₃, lift_ok]
    | cons ext rest =>
      have hfirst : header.firstExtType = ext.extensionHeaderType := by
        simp [GtpuHeader.firstExtType, hl]
      rw [hfirst] at e₃ ⊢
      simp only [e₃, lift_ok]
  · rw [if_neg hopt]
    exact ⟨w, by simp [gtpuWriteOptionalFields, hopt], by simpa using h⟩

/-- `gtpu_write_header` puts the mandatory and optional parts before
whatever its loop writes for the extensions, and that before the PDU. -/
theorem gtpuWriteHeader_eq_of_exts {pdu : List UInt8} {header : GtpuHeader}
    (hflags : gtpuSupportedFlagsCheck header = true) (hmsg : gtpuSupportedMsgTypeCheck header = true)
    {exts : List UInt8}
    (hexts : ∀ {w : BitWriter} {bits : List Bool}, w.Holds bits →
      ∃ w', gtpuWriteExtHeaders w header.extList = .ok w' ∧ w'.Holds (bits ++ octetBits exts)) :
    gtpuWriteHeader pdu header = .ok (headerFieldOctets header (gtpuGetLength header pdu) ++ exts ++ pdu) := by
  have h₀ : BitWriter.Holds ⟨[], 0⟩ [] := BitWriter.holds_aligned []
  obtain ⟨e₁, h₁⟩ := pack_holds h₀ header.flags.version.toUInt64 (show 3 ≤ 64 by decide)
  obtain ⟨e₂, h₂⟩ := pack_holds h₁ header.flags.protocolType.toUInt64 (show 1 ≤ 64 by decide)
  obtain ⟨e₃, h₃⟩ := pack_holds h₂ 0 (show 1 ≤ 64 by decide)
  obtain ⟨e₄, h₄⟩ := pack_holds h₃ (if header.extList.isEmpty then 0 else 1) (show 1 ≤ 64 by decide)
  obtain ⟨e₅, h₅⟩ := pack_holds h₄ (if header.flags.seqNumber then 1 else 0) (show 1 ≤ 64 by decide)
  obtain ⟨e₆, h₆⟩ := pack_holds h₅ (if header.flags.nPdu then 1 else 0) (show 1 ≤ 64 by decide)
  obtain ⟨e₇, h₇⟩ := pack_holds h₆ header.messageType.toUInt64 (show 8 ≤ 64 by decide)
  obtain ⟨e₈, h₈⟩ := pack_holds h₇ (gtpuGetLength header pdu).toUInt64 (show 16 ≤ 64 by decide)
  obtain ⟨e₉, h₉⟩ := pack_holds h₈ header.teid.toUInt64 (show 32 ≤ 64 by decide)
  obtain ⟨w₁₀, e₁₀, h₁₀⟩ := gtpuWriteOptionalFields_holds h₉ header
  obtain ⟨w₁₁, e₁₁, h₁₁⟩ := hexts h₁₀
  have hbits : octetBits (headerFieldOctets header (gtpuGetLength header pdu) ++ exts) =
      [] ++ msbBits 3 header.flags.version.toUInt64.toNat ++
        msbBits 1 header.flags.protocolType.toUInt64.toNat ++ msbBits 1 (0 : UInt64).toNat ++
        msbBits 1 (if header.extList.isEmpty then (0 : UInt64) else 1).toNat ++
        msbBits 1 (if header.flags.seqNumber then (1 : UInt64) else 0).toNat ++
        msbBits 1 (if header.flags.nPdu then (1 : UInt64) else 0).toNat ++
        msbBits 8 header.messageType.toUInt64.toNat ++ msbBits 16 (gtpuGetLength header pdu).toUInt64.toNat ++
        msbBits 32 header.teid.toUInt64.toNat ++
        octetBits (if header.hasOptionalFields then
          msbOctets 2 header.seqNumber.toNat ++ [header.nPdu, header.firstExtType] else []) ++
        octetBits exts := by
    simp only [headerFieldOctets, mandatoryOctets, optionalOctets, GtpuHeader.flagsByte, octetBits_append,
      List.cons_append, List.nil_append, octetBits_cons, msbBits_flagsOctet, octetBits_msbOctets, Nat.reduceMul, apply_ite UInt64.toNat, UInt64.toNat_zero,
      UInt64.toNat_one, UInt8.toNat_toUInt64, UInt16.toNat_toUInt64, UInt32.toNat_toUInt64,
      List.append_assoc]
  rw [← hbits] at h₁₁
  rw [← Holds.bytes_eq h₁₁]
  simp only [gtpuWriteHeader, hflags, hmsg, Bool.not_true, Bool.false_eq_true, if_false, e₁, e₂, e₃, e₄,
    e₅, e₆, e₇, e₈, e₉, e₁₀, e₁₁, lift_ok, Fallible.ok_bind, Fallible.pure_eq_ok]

/-- The writer on extension headers of TS 29.281 5.2.1. -/
theorem gtpuWriteHeader_eq {pdu : List UInt8} {header : GtpuHeader}
    (hflags : gtpuSupportedFlagsCheck header = true) (hmsg : gtpuSupportedMsgTypeCheck header = true)
    (hwf : ExtensionsWellFormed header.extList) :
    gtpuWriteHeader pdu header =
      .ok (headerFieldOctets header (gtpuGetLength header pdu) ++ extListOctets header.extList ++ pdu) :=
  gtpuWriteHeader_eq_of_exts hflags hmsg (fun h => gtpuWriteExtHeaders_holds h hwf)

/-! ## Lengths -/

@[simp] theorem length_mandatoryOctets (header : GtpuHeader) (len : UInt16) :
    (mandatoryOctets header len).length = 8 := by
  simp [mandatoryOctets]

@[simp] theorem length_optionalOctets (header : GtpuHeader) :
    (optionalOctets header).length = if header.hasOptionalFields then 4 else 0 := by
  unfold optionalOctets
  split_ifs <;> simp

theorem length_extListOctets :
    ∀ exts : List GtpuExtensionHeader,
      (extListOctets exts).length = (exts.map (·.container.length + 2)).sum
  | [] => rfl
  | [ext] => by simp [extListOctets, extOctets]
  | ext :: next :: rest => by
    rw [extListOctets, List.length_append, length_extListOctets (next :: rest)]
    simp only [List.map_cons, List.sum_cons, extOctets, List.length_cons, List.length_append,
      List.length_nil]

/-- `gtpu_get_length` adds, in `uint16_t`, the optional part and each
extension's container and its two octets of length and next type. -/
theorem toNat_gtpuGetLength (header : GtpuHeader) (sdu : List UInt8) :
    (gtpuGetLength header sdu).toNat =
      (sdu.length + (if header.hasOptionalFields then 4 else 0) +
        (header.extList.map (·.container.length + 2)).sum) % 2 ^ 16 := by
  have hfold : ∀ (l : List GtpuExtensionHeader) (a : UInt16),
      (l.foldl (fun len ext => len + 2 + UInt16.ofNat ext.container.length) a).toNat =
        (a.toNat + (l.map (·.container.length + 2)).sum) % 2 ^ 16 := by
    intro l
    induction l with
    | nil => intro a; simp
    | cons ext l ih =>
      intro a
      rw [List.foldl_cons, ih]
      have h2 : (2 : UInt16).toNat = 2 := rfl
      simp only [UInt16.toNat_add, UInt16.toNat_ofNat', h2, List.map_cons, List.sum_cons]
      omega
  unfold gtpuGetLength
  rw [hfold]
  unfold GtpuHeader.hasOptionalFields
  have h4 : (4 : UInt16).toNat = 4 := rfl
  split_ifs <;> simp only [UInt16.toNat_add, UInt16.toNat_ofNat', h4] <;> omega

/-! ## Reading back what was written -/

/-- The flags octet reads back as the flags it was packed from. -/
theorem flagsOfOctet_flagsOctet (version protocolType e s pn : Nat) :
    flagsOfOctet (flagsOctet version protocolType e s pn) =
      { version := .ofNat (version % 8), protocolType := .ofNat (protocolType % 2),
        extHdr := e % 2 != 0, seqNumber := s % 2 != 0, nPdu := pn % 2 != 0 } := by
  have hN : version % 8 * 32 + protocolType % 2 * 16 + e % 2 * 4 + s % 2 * 2 + pn % 2 < 256 := by omega
  have h₁ : (version % 8 * 32 + protocolType % 2 * 16 + e % 2 * 4 + s % 2 * 2 + pn % 2) / 32 % 8 =
      version % 8 := by omega
  have h₂ : (version % 8 * 32 + protocolType % 2 * 16 + e % 2 * 4 + s % 2 * 2 + pn % 2) / 16 % 2 =
      protocolType % 2 := by omega
  have h₃ : (version % 8 * 32 + protocolType % 2 * 16 + e % 2 * 4 + s % 2 * 2 + pn % 2) / 4 % 2 =
      e % 2 := by omega
  have h₄ : (version % 8 * 32 + protocolType % 2 * 16 + e % 2 * 4 + s % 2 * 2 + pn % 2) / 2 % 2 =
      s % 2 := by omega
  have h₅ : (version % 8 * 32 + protocolType % 2 * 16 + e % 2 * 4 + s % 2 * 2 + pn % 2) % 2 =
      pn % 2 := by omega
  simp only [flagsOfOctet, flagsOctet, UInt8.toNat_ofNat', Nat.mod_eq_of_lt hN, h₁, h₂, h₃, h₄, h₅]

/-- An extension header of TS 29.281 5.2.1 read at face value gives its
container and the next type, and the reader steps over it. -/
theorem extFieldsAt_extOctets {raw rest : List UInt8} {pos : Nat} {ext : GtpuExtensionHeader}
    {next : UInt8} (hc : ext.container.length % 4 = 2 ∧ ext.container.length < 254)
    (hraw : raw.drop pos = extOctets ext next ++ rest) :
    extFieldsAt raw pos = (ext.container, next, pos + ext.container.length + 2) := by
  have hlen := congrArg List.length hraw
  simp only [List.length_drop, extOctets, List.length_append, List.length_cons] at hlen
  have hoct : ∀ i, octetAt raw (pos + i) = octetAt (extOctets ext next ++ rest) i := by
    intro i
    simp only [octetAt, ← hraw, List.getElem?_drop]
  have hL : (octetAt raw pos).toNat = (ext.container.length + 2) / 4 := by
    rw [← Nat.add_zero pos, hoct 0]
    simp [octetAt, extOctets, UInt8.toNat_ofNat']
    omega
  have hnext : octetAt raw (pos + 1 + ext.container.length) = next := by
    rw [Nat.add_assoc, hoct]
    simp only [octetAt, extOctets, List.cons_append, List.append_assoc]
    rw [show 1 + ext.container.length = ext.container.length + 1 from Nat.add_comm _ _,
      List.getElem?_cons_succ, List.getElem?_append_right le_rfl, Nat.sub_self]
    rfl
  have hcont : (raw.drop (pos + 1)).take ext.container.length = ext.container := by
    rw [← List.drop_drop, hraw]
    simp [extOctets]
  unfold extFieldsAt
  simp only [hL, show min (pos + 1) raw.length = pos + 1 by omega,
    show ((ext.container.length + 2) / 4 * 4 + 65534) % 65536 = ext.container.length by omega,
    show ext.container.length ≤ raw.length - (pos + 1) by omega, if_true, hcont, hnext,
    show min (pos + 1 + ext.container.length + 1) raw.length = pos + ext.container.length + 2 by omega]

/-- A chain of extension headers of TS 29.281 5.2.1 whose types are
comprehended and none `no_more_extension_headers` is read back at face
value, up to its end. -/
theorem extChain_extListOctets {raw rest : List UInt8} :
    ∀ {ext : GtpuExtensionHeader} {more : List GtpuExtensionHeader} {pos : Nat},
      ExtensionsWellFormed (ext :: more) →
      (∀ e ∈ ext :: more, gtpuExtensionHeaderComprehensionCheck e.extensionHeaderType = true ∧
        e.extensionHeaderType ≠ noMoreExtensionHeaders) →
      raw.drop pos = extListOctets (ext :: more) ++ rest →
      ExtChain raw pos ext.extensionHeaderType (ext :: more) (pos + (extListOctets (ext :: more)).length)
  | ext, [], pos, hwf, htypes, hraw => by
    have hf := extFieldsAt_extOctets (hwf ext List.mem_cons_self) hraw
    have hc := @ExtChain.last raw pos ext.extensionHeaderType (htypes ext List.mem_cons_self).1
      (by rw [hf])
    rw [hf] at hc
    simpa [extListOctets, extOctets, Nat.add_assoc] using hc
  | ext, next :: more, pos, hwf, htypes, hraw => by
    rw [extListOctets, List.append_assoc] at hraw
    have hf := extFieldsAt_extOctets (hwf ext List.mem_cons_self) hraw
    have hrest : raw.drop (pos + ext.container.length + 2) = extListOctets (next :: more) ++ rest := by
      rw [show pos + ext.container.length + 2 = pos + (extOctets ext next.extensionHeaderType).length by
        simp [extOctets]; omega, ← List.drop_drop, hraw, List.drop_left]
    have ih := extChain_extListOctets (fun e he => hwf e (List.mem_cons_of_mem _ he))
      (fun e he => htypes e (List.mem_cons_of_mem _ he)) hrest
    have hc := @ExtChain.cons raw pos _ ext.extensionHeaderType _
      (htypes ext List.mem_cons_self).1 (by rw [hf]; exact (htypes next (by simp)).2) (by rw [hf]; exact ih)
    rw [hf] at hc
    have hlen : pos + ext.container.length + 2 + (extListOctets (next :: more)).length =
        pos + (extListOctets (ext :: next :: more)).length := by
      simp only [extListOctets, List.length_append, extOctets, List.length_cons]
      simp
      omega
    rw [hlen] at hc
    exact hc

/-- The extension loop reads back any chain that fits in `ext_list`. -/
theorem gtpuReadExtHeaders_of_chain {raw : List UInt8} {pos stop : Nat} {type : UInt8}
    {exts : List GtpuExtensionHeader} (h : ExtChain raw pos type exts stop) (hpos : pos ≤ raw.length) :
    ∀ {room : Nat} (hroom : exts.length ≤ room),
      gtpuReadExtHeaders ⟨raw, pos, 0⟩ type room = .ok (⟨exts, hroom⟩, ⟨raw, stop, 0⟩) := by
  induction h with
  | last hc hnext =>
    intro room hroom
    obtain ⟨room, rfl⟩ : ∃ k, room = k + 1 := ⟨room - 1, by simp at hroom; omega⟩
    simp [gtpuReadExtHeaders, hc, gtpuReadExtHeader_at hpos, hnext]
  | cons hc hnext _ ih =>
    intro room hroom
    obtain ⟨room, rfl⟩ : ∃ k, room = k + 1 := ⟨room - 1, by simp at hroom; omega⟩
    simp only [List.length_cons, Nat.add_le_add_iff_right] at hroom
    simp [gtpuReadExtHeaders, hc, gtpuReadExtHeader_at hpos, hnext, ih (extFieldsAt_stop hpos).2 hroom]

theorem gtpuReadOptionalFields_of_not {r : BitReader} {hdr : GtpuHeader}
    (h : (hdr.flags.extHdr || hdr.flags.seqNumber || hdr.flags.nPdu) = false) :
    gtpuReadOptionalFields r hdr = .ok (hdr, r) := by
  simp [gtpuReadOptionalFields, h]

theorem gtpuReadExtensions_of_not {r : BitReader} {hdr : GtpuHeader} (h : hdr.flags.extHdr = false) :
    gtpuReadExtensions r hdr = .ok (hdr, r) := by
  simp [gtpuReadExtensions, h]

theorem gtpuReadExtensions_of_chain {raw : List UInt8} {pos stop : Nat} {hdr : GtpuHeader}
    {exts : List GtpuExtensionHeader} (hE : hdr.flags.extHdr = true)
    (hne : hdr.nextExtHdrType ≠ noMoreExtensionHeaders) (h : ExtChain raw pos hdr.nextExtHdrType exts stop)
    (hpos : pos ≤ raw.length) (hroom : exts.length ≤ gtpuMaxNumHeaderExtensions) :
    gtpuReadExtensions ⟨raw, pos, 0⟩ hdr =
      .ok ({ hdr with extList := exts, extList_length_le := hroom }, ⟨raw, stop, 0⟩) := by
  simp [gtpuReadExtensions, hE, hne, gtpuReadExtHeaders_of_chain h hpos hroom]

/-- `gtpu_dissect_pdu` is its stages in turn. -/
theorem gtpuDissectPdu_of_stages {raw : List UInt8} {hdr₁ hdr₂ : GtpuHeader} {r₁ r₂ : BitReader}
    (h8 : gtpuBaseHeaderLen ≤ raw.length)
    (hflags : gtpuSupportedFlagsCheck { flags := flagsOfOctet (octetAt raw 0) } = true)
    (hlen : (mandatoryHeaderAt raw).length = UInt16.ofNat (raw.length - gtpuBaseHeaderLen))
    (hopt : gtpuReadOptionalFields ⟨raw, 8, 0⟩ (mandatoryHeaderAt raw) = .ok (hdr₁, r₁))
    (hexts : gtpuReadExtensions r₁ hdr₁ = .ok (hdr₂, r₂)) :
    gtpuDissectPdu raw = .ok ⟨raw, hdr₂, r₂.nofBytes⟩ := by
  simp [gtpuDissectPdu, Nat.not_lt.mpr h8, gtpuReadMandatoryFields_at h8, hflags, hlen, hopt, hexts]

theorem gtpuSupportedFlagsCheck_iff (header : GtpuHeader) :
    gtpuSupportedFlagsCheck header = true ↔ header.flags.version = gtpuFlagsVersionV1 ∧
      header.flags.protocolType = gtpuFlagsGtpProtocol ∧ header.flags.nPdu = false := by
  unfold gtpuSupportedFlagsCheck
  split_ifs <;> simp_all

/-- The flags a dissector reads from the flags octet `gtpu_write_header`
writes: the header's own, with E set by its extension list. -/
theorem flagsOfOctet_flagsByte {header : GtpuHeader} (hflags : gtpuSupportedFlagsCheck header = true) :
    flagsOfOctet header.flagsByte = { header.flags with extHdr := !header.extList.isEmpty } := by
  obtain ⟨hv, hpt, hpn⟩ := (gtpuSupportedFlagsCheck_iff header).mp hflags
  obtain ⟨⟨version, protocolType, extHdr, s, pn⟩, _, _, _, _, _, _, exts, _⟩ := header
  simp only at hv hpt hpn
  subst hv hpt hpn
  simp only [GtpuHeader.flagsByte, flagsOfOctet_flagsOctet]
  cases exts.isEmpty <;> cases s <;> rfl

/-- The mandatory part at face value, from its octets. -/
theorem mandatoryHeaderAt_octets (c mt : UInt8) (len teid : Nat) (rest : List UInt8) :
    mandatoryHeaderAt ([c, mt] ++ msbOctets 2 len ++ msbOctets 4 teid ++ rest) =
      { flags := flagsOfOctet c, messageType := mt, length := .ofNat (len % 2 ^ 16),
        teid := .ofNat (teid % 2 ^ 32) } := by
  have h₂ : (([c, mt] ++ msbOctets 2 len ++ msbOctets 4 teid ++ rest).drop 2).take 2 = msbOctets 2 len := by
    simp [List.take_left' (length_msbOctets 2 len)]
  have h₄ : (([c, mt] ++ msbOctets 2 len ++ msbOctets 4 teid ++ rest).drop 4).take 4 = msbOctets 4 teid := by
    rw [show 4 = 2 + 2 from rfl, ← List.drop_drop]
    simp [List.drop_left' (length_msbOctets 2 len), List.take_left' (length_msbOctets 4 teid)]
  simp only [mandatoryHeaderAt, h₂, h₄, octetBits_msbOctets, ofMsbBits_msbBits, Nat.reduceMul]
  simp [octetAt]

/-- The mandatory part reads back at face value as what was written. -/
theorem mandatoryHeaderAt_mandatoryOctets (header : GtpuHeader) (len : UInt16) (rest : List UInt8) :
    mandatoryHeaderAt (mandatoryOctets header len ++ rest) =
      { flags := flagsOfOctet header.flagsByte, messageType := header.messageType, length := len,
        teid := header.teid } := by
  rw [mandatoryOctets, mandatoryHeaderAt_octets, Nat.mod_eq_of_lt len.toNat_lt,
    Nat.mod_eq_of_lt header.teid.toNat_lt, UInt16.ofNat_toNat, UInt32.ofNat_toNat]

theorem octetAt_drop (xs : List UInt8) (k i : Nat) : octetAt (xs.drop k) i = octetAt xs (k + i) := by
  simp [octetAt, List.getElem?_drop]

theorem gtpuExtensionHeaderComprehensionCheck_firstExtType {header : GtpuHeader}
    (htypes : ∀ e ∈ header.extList, gtpuExtensionHeaderComprehensionCheck e.extensionHeaderType = true) :
    gtpuExtensionHeaderComprehensionCheck header.firstExtType = true := by
  unfold GtpuHeader.firstExtType
  cases h : header.extList with
  | nil => rfl
  | cons ext _ => exact htypes ext (by simp [h])

/-- The header `gtpu_dissect_pdu` reads back from what `gtpu_write_header`
writes for `header` with length field `len`: E set by the extension list,
and the sequence and N-PDU numbers only where the optional part carries
them. -/
def GtpuHeader.readBack (header : GtpuHeader) (len : UInt16) : GtpuHeader :=
  { header with
    flags := { header.flags with extHdr := !header.extList.isEmpty }
    length := len
    seqNumber := if header.hasOptionalFields then header.seqNumber else 0
    nPdu := if header.hasOptionalFields then header.nPdu else 0
    nextExtHdrType := header.firstExtType }

section ReadBack

variable {header : GtpuHeader} {len : UInt16} {rest : List UInt8}

/-- The optional part reads back as what was written. -/
theorem gtpuReadOptionalFields_written (hflags : gtpuSupportedFlagsCheck header = true)
    (hcomp : gtpuExtensionHeaderComprehensionCheck header.firstExtType = true)
    (hopt : header.hasOptionalFields = true) :
    gtpuReadOptionalFields ⟨headerFieldOctets header len ++ rest, 8, 0⟩
        (mandatoryHeaderAt (headerFieldOctets header len ++ rest)) =
      .ok ({ mandatoryHeaderAt (headerFieldOctets header len ++ rest) with
              seqNumber := header.seqNumber, nPdu := header.nPdu,
              nextExtHdrType := header.firstExtType },
            ⟨headerFieldOctets header len ++ rest, 12, 0⟩) := by
  have hdrop : (headerFieldOctets header len ++ rest).drop 8 =
      msbOctets 2 header.seqNumber.toNat ++ header.nPdu :: header.firstExtType :: rest := by
    simp [headerFieldOctets, optionalOctets, hopt, List.drop_left' (length_mandatoryOctets header len)]
  have hseq : ((headerFieldOctets header len ++ rest).drop 8).take 2 = msbOctets 2 header.seqNumber.toNat := by
    rw [hdrop, List.take_left' (length_msbOctets 2 _)]
  have h10 : octetAt (headerFieldOctets header len ++ rest) 10 = header.nPdu := by
    rw [show 10 = 8 + 2 from rfl, ← octetAt_drop, hdrop]
    simp [octetAt]
  have h11 : octetAt (headerFieldOctets header len ++ rest) 11 = header.firstExtType := by
    rw [show 11 = 8 + 3 from rfl, ← octetAt_drop, hdrop]
    simp [octetAt, List.getElem?_append_right]
  have hE : ((mandatoryHeaderAt (headerFieldOctets header len ++ rest)).flags.extHdr ||
      (mandatoryHeaderAt (headerFieldOctets header len ++ rest)).flags.seqNumber ||
      (mandatoryHeaderAt (headerFieldOctets header len ++ rest)).flags.nPdu) = true := by
    rw [headerFieldOctets, List.append_assoc, mandatoryHeaderAt_mandatoryOctets,
      flagsOfOctet_flagsByte hflags]
    simpa [GtpuHeader.hasOptionalFields] using hopt
  have h12 : ¬ (headerFieldOctets header len ++ rest).length < gtpuExtendedHeaderLen := by
    simp [headerFieldOctets, hopt, gtpuExtendedHeaderLen]
    omega
  rw [gtpuReadOptionalFields_at hE, if_neg h12, h11, if_pos hcomp, hseq, h10, octetBits_msbOctets,
    ofMsbBits_msbBits, Nat.mod_eq_of_lt header.seqNumber.toNat_lt, UInt16.ofNat_toNat]

/-- The length field `gtpu_write_header` writes is the one the dissector
expects, wrapped in `uint16_t` alike on both sides. -/
theorem gtpuGetLength_eq_written (header : GtpuHeader) (pdu : List UInt8) :
    gtpuGetLength header pdu = UInt16.ofNat
      ((headerFieldOctets header (gtpuGetLength header pdu) ++ extListOctets header.extList ++ pdu).length -
        gtpuBaseHeaderLen) := by
  apply UInt16.toNat_inj.mp
  rw [toNat_gtpuGetLength, UInt16.toNat_ofNat']
  simp only [headerFieldOctets, List.length_append, length_mandatoryOctets, length_optionalOctets,
    length_extListOctets, gtpuBaseHeaderLen]
  congr 1
  omega

/-- The mandatory part as `gtpu_write_header` writes it reads back with E
set by the extension list. -/
theorem mandatoryHeaderAt_headerFieldOctets (hflags : gtpuSupportedFlagsCheck header = true) :
    mandatoryHeaderAt (headerFieldOctets header len ++ rest) =
      { flags := { header.flags with extHdr := !header.extList.isEmpty }
        messageType := header.messageType
        length := len
        teid := header.teid } := by
  rw [headerFieldOctets, List.append_assoc, mandatoryHeaderAt_mandatoryOctets, flagsOfOctet_flagsByte hflags]

/-- A header as `gtpu_write_header` writes it passes the dissector's size,
flag and length checks, whatever follows it, once its length field counts
the octets after the mandatory part. -/
theorem gtpuDissectPdu_headerFieldOctets (hflags : gtpuSupportedFlagsCheck header = true)
    (hlen : len = UInt16.ofNat ((headerFieldOctets header len ++ rest).length - gtpuBaseHeaderLen))
    {hdr₁ hdr₂ : GtpuHeader} {r₁ r₂ : BitReader}
    (hopt : gtpuReadOptionalFields ⟨headerFieldOctets header len ++ rest, 8, 0⟩
      (mandatoryHeaderAt (headerFieldOctets header len ++ rest)) = .ok (hdr₁, r₁))
    (hexts : gtpuReadExtensions r₁ hdr₁ = .ok (hdr₂, r₂)) :
    gtpuDissectPdu (headerFieldOctets header len ++ rest) =
      .ok ⟨headerFieldOctets header len ++ rest, hdr₂, r₂.nofBytes⟩ := by
  have hmand : mandatoryHeaderAt (headerFieldOctets header len ++ rest) = _ :=
    mandatoryHeaderAt_headerFieldOctets hflags
  apply gtpuDissectPdu_of_stages _ _ _ hopt hexts
  · simp [headerFieldOctets, gtpuBaseHeaderLen]
  · have h0 : flagsOfOctet (octetAt (headerFieldOctets header len ++ rest) 0) =
        (mandatoryHeaderAt (headerFieldOctets header len ++ rest)).flags := rfl
    rw [h0, hmand, gtpuSupportedFlagsCheck_iff]
    exact (gtpuSupportedFlagsCheck_iff header).mp hflags
  · rw [hmand]
    exact hlen

/-- What `gtpu_write_header` writes for a header whose extensions are well
formed, comprehended and none `no_more_extension_headers`, the dissector
reads back: the header as `readBack` gives it, and the T-PDU after it. -/
theorem gtpuDissectPdu_written (hflags : gtpuSupportedFlagsCheck header = true)
    (hwf : ExtensionsWellFormed header.extList)
    (htypes : ∀ e ∈ header.extList, gtpuExtensionHeaderComprehensionCheck e.extensionHeaderType = true ∧
      e.extensionHeaderType ≠ noMoreExtensionHeaders) (pdu : List UInt8) :
    gtpuDissectPdu (headerFieldOctets header (gtpuGetLength header pdu) ++ extListOctets header.extList ++ pdu) =
      .ok ⟨headerFieldOctets header (gtpuGetLength header pdu) ++ extListOctets header.extList ++ pdu,
        header.readBack (gtpuGetLength header pdu),
        (headerFieldOctets header (gtpuGetLength header pdu) ++ extListOctets header.extList).length⟩ := by
  have hlen := gtpuGetLength_eq_written header pdu
  generalize gtpuGetLength header pdu = len at hlen ⊢
  rw [List.append_assoc] at hlen ⊢
  have hmand : mandatoryHeaderAt (headerFieldOctets header len ++ (extListOctets header.extList ++ pdu)) = _ :=
    mandatoryHeaderAt_headerFieldOctets hflags
  cases hopt : header.hasOptionalFields with
  | false =>
    -- neither extensions nor S nor PN: the mandatory part alone is written
    have hnone : (header.extList = [] ∧ header.flags.seqNumber = false) ∧ header.flags.nPdu = false := by
      simpa [GtpuHeader.hasOptionalFields] using hopt
    rw [gtpuDissectPdu_headerFieldOctets hflags hlen (gtpuReadOptionalFields_of_not (by rw [hmand]; simp [hnone]))
      (gtpuReadExtensions_of_not (by rw [hmand]; simp [hnone])), hmand]
    simp [GtpuHeader.readBack, hopt, GtpuHeader.firstExtType, hnone, BitReader.nofBytes,
      headerFieldOctets, extListOctets]
  | true =>
    have hopt' : gtpuReadOptionalFields ⟨headerFieldOctets header len ++ (extListOctets header.extList ++ pdu), 8, 0⟩
        (mandatoryHeaderAt (headerFieldOctets header len ++ (extListOctets header.extList ++ pdu))) = _ :=
      gtpuReadOptionalFields_written hflags
        (gtpuExtensionHeaderComprehensionCheck_firstExtType (fun e he => (htypes e he).1)) hopt
    have hlen12 : (headerFieldOctets header len).length = 12 := by
      simp [headerFieldOctets, hopt]
    by_cases hext : header.extList = []
    · -- S or PN set and no extension: the optional part ends the header
      rw [gtpuDissectPdu_headerFieldOctets hflags hlen hopt' (gtpuReadExtensions_of_not (by rw [hmand]; simp [hext]))]
      rw [hmand]
      simp [GtpuHeader.readBack, hopt, hext, BitReader.nofBytes, hlen12, extListOctets]
    · obtain ⟨ext, more, hext⟩ := List.exists_cons_of_ne_nil hext
      have hdrop : (headerFieldOctets header len ++ (extListOctets header.extList ++ pdu)).drop 12 =
          extListOctets (ext :: more) ++ pdu := by
        rw [← hlen12, List.drop_left, hext]
      have hfirst : header.firstExtType = ext.extensionHeaderType := by
        simp [GtpuHeader.firstExtType, hext]
      have hchain := extChain_extListOctets (hext ▸ hwf) (hext ▸ htypes) hdrop
      rw [← hfirst] at hchain
      rw [gtpuDissectPdu_headerFieldOctets hflags hlen hopt' (gtpuReadExtensions_of_chain (by rw [hmand]; simp [hext])
        (by rw [hfirst]; exact (htypes ext (by simp [hext])).2) hchain (by simp [hlen12])
        (hext ▸ header.extList_length_le))]
      rw [hmand]
      simp [GtpuHeader.readBack, hopt, hext, BitReader.nofBytes, hlen12]

end ReadBack

/-- The codec round trip: a header that passes the writer's checks, with
extensions of TS 29.281 5.2.1 that are comprehended and none
`no_more_extension_headers`, is written, dissected back as `readBack` gives
it, and the T-PDU extracted is the one written. -/
theorem gtpuDissectPdu_writeHeader {header : GtpuHeader} (hflags : gtpuSupportedFlagsCheck header = true)
    (hmsg : gtpuSupportedMsgTypeCheck header = true) (hwf : ExtensionsWellFormed header.extList)
    (htypes : ∀ e ∈ header.extList, gtpuExtensionHeaderComprehensionCheck e.extensionHeaderType = true ∧
      e.extensionHeaderType ≠ noMoreExtensionHeaders) (pdu : List UInt8) :
    ∃ raw d, gtpuWriteHeader pdu header = .ok raw ∧ gtpuDissectPdu raw = .ok d ∧
      d.hdr = header.readBack (gtpuGetLength header pdu) ∧ gtpuExtractMsg d = pdu :=
  ⟨_, _, gtpuWriteHeader_eq hflags hmsg hwf, gtpuDissectPdu_written hflags hwf htypes pdu, rfl,
    List.drop_left⟩

/-- A T-PDU of three octets behind a PDU session container of two. -/
theorem gtpuDissectPdu_writeHeader_pduSession :
    ∃ raw d, gtpuWriteHeader [1, 2, 3]
        { flags := { protocolType := gtpuFlagsGtpProtocol }
          messageType := gtpuMsgDataPdu
          extList := [⟨pduSessionContainer, [0x00, 0x01]⟩] } = .ok raw ∧
      gtpuDissectPdu raw = .ok d ∧
      d.hdr = GtpuHeader.readBack
        { flags := { protocolType := gtpuFlagsGtpProtocol }
          messageType := gtpuMsgDataPdu
          extList := [⟨pduSessionContainer, [0x00, 0x01]⟩] }
        (gtpuGetLength
          { flags := { protocolType := gtpuFlagsGtpProtocol }
            messageType := gtpuMsgDataPdu
            extList := [⟨pduSessionContainer, [0x00, 0x01]⟩] } [1, 2, 3]) ∧
      gtpuExtractMsg d = [1, 2, 3] :=
  gtpuDissectPdu_writeHeader (by decide) (by decide) (by simp [ExtensionsWellFormed]) (by decide) [1, 2, 3]

/-! ## Length octets the two sides read differently -/

/-- A container of 254 octets, `4 k + 2` with `k = 63`, makes the `uint8_t`
payload `1 + 254 + 1` of `gtpu_write_ext_header` wrap to 0: the writer passes
its check and writes the length octet 0. The dissector reads that as a
container running past the buffer, takes an empty one, and takes the
container's first octet as the next type; when that octet is 0 the header
ends two octets into the extension and the rest of the container is handed
on as T-PDU. -/
theorem gtpuWriteHeader_wraps_ext_length {header : GtpuHeader} {t : UInt8} {c pdu : List UInt8}
    (hflags : gtpuSupportedFlagsCheck header = true) (hmsg : gtpuSupportedMsgTypeCheck header = true)
    (hext : header.extList = [⟨t, noMoreExtensionHeaders :: c⟩]) (hc : c.length = 253)
    (ht : gtpuExtensionHeaderComprehensionCheck t = true) (ht0 : t ≠ noMoreExtensionHeaders)
    (hpdu : pdu.length + 268 < 2 ^ 16) :
    ∃ raw d, gtpuWriteHeader pdu header = .ok raw ∧ gtpuDissectPdu raw = .ok d ∧
      d.hdr.extList = [⟨t, []⟩] ∧ gtpuExtractMsg d = c ++ noMoreExtensionHeaders :: pdu := by
  -- the writer: the length octet is `(254 + 2) % 256 / 4 = 0`
  have hexts : ∀ {w : BitWriter} {bits : List Bool}, w.Holds bits →
      ∃ w', gtpuWriteExtHeaders w header.extList = .ok w' ∧
        w'.Holds (bits ++ octetBits (0 :: (noMoreExtensionHeaders :: c) ++ [noMoreExtensionHeaders])) := by
    intro w bits h
    have e := gtpuWriteExtHeader_holds h ⟨t, noMoreExtensionHeaders :: c⟩ noMoreExtensionHeaders
      (by simp [hc])
    rw [show ((⟨t, noMoreExtensionHeaders :: c⟩ : GtpuExtensionHeader).container.length + 2) % 256 / 4 = 0 by
      simp [hc]] at e
    rw [hext]
    exact e
  have hw : gtpuWriteHeader pdu header = _ := gtpuWriteHeader_eq_of_exts hflags hmsg hexts
  have hopt : header.hasOptionalFields = true := by
    simp [GtpuHeader.hasOptionalFields, hext]
  -- the length field counts the 268 - 8 header octets after the mandatory part
  have hlen : gtpuGetLength header pdu = UInt16.ofNat ((headerFieldOctets header (gtpuGetLength header pdu) ++
      (0 :: noMoreExtensionHeaders :: c ++ [noMoreExtensionHeaders] ++ pdu)).length - gtpuBaseHeaderLen) := by
    apply UInt16.toNat_inj.mp
    rw [toNat_gtpuGetLength, UInt16.toNat_ofNat']
    simp [headerFieldOctets, hext, hopt, hc, gtpuBaseHeaderLen]
    omega
  rw [List.append_assoc] at hw
  generalize gtpuGetLength header pdu = len at hw hlen
  have hlen12 : (headerFieldOctets header len).length = 12 := by
    simp [headerFieldOctets, hopt]
  have hfirst : header.firstExtType = t := by
    simp [GtpuHeader.firstExtType, hext]
  generalize hrest : 0 :: noMoreExtensionHeaders :: c ++ [noMoreExtensionHeaders] ++ pdu = rest at hw hlen
  have hdrop : (headerFieldOctets header len ++ rest).drop 12 = rest := by
    rw [← hlen12, List.drop_left]
  have hrestlen : rest.length = pdu.length + 256 := by
    simp [← hrest, hc]
    omega
  -- the length octet 0 announces `0 * 4 - 2 = 65534` octets in `uint16_t`, past the buffer
  have hfields : extFieldsAt (headerFieldOctets header len ++ rest) 12 = ([], noMoreExtensionHeaders, 14) := by
    have h12 : octetAt (headerFieldOctets header len ++ rest) 12 = 0 := by
      rw [← Nat.add_zero 12, ← octetAt_drop, hdrop, ← hrest]
      rfl
    have h13 : octetAt (headerFieldOctets header len ++ rest) 13 = noMoreExtensionHeaders := by
      rw [show 13 = 12 + 1 from rfl, ← octetAt_drop, hdrop, ← hrest]
      rfl
    have hlen' : (headerFieldOctets header len ++ rest).length = pdu.length + 268 := by
      simp [hlen12, hrestlen]
      omega
    have hn : ¬ (0 * 4 + 65534) % 65536 ≤ (headerFieldOctets header len ++ rest).length - 13 := by omega
    simp only [extFieldsAt, h12, show min (12 + 1) (headerFieldOctets header len ++ rest).length = 13 by omega,
      UInt8.toNat_zero, hn, if_false, h13,
      show min (13 + 1) (headerFieldOctets header len ++ rest).length = 14 by omega]
  have hchain := @ExtChain.last (headerFieldOctets header len ++ rest) 12 t ht (by rw [hfields])
  rw [hfields] at hchain
  have hopt' : gtpuReadOptionalFields ⟨headerFieldOctets header len ++ rest, 8, 0⟩
      (mandatoryHeaderAt (headerFieldOctets header len ++ rest)) =
      .ok ({ mandatoryHeaderAt (headerFieldOctets header len ++ rest) with
              seqNumber := header.seqNumber, nPdu := header.nPdu, nextExtHdrType := t },
            ⟨headerFieldOctets header len ++ rest, 12, 0⟩) := by
    rw [← hfirst]
    exact gtpuReadOptionalFields_written hflags (hfirst ▸ ht) hopt
  have hmand : mandatoryHeaderAt (headerFieldOctets header len ++ rest) = _ :=
    mandatoryHeaderAt_headerFieldOctets hflags
  have hd := gtpuDissectPdu_headerFieldOctets hflags hlen hopt'
    (gtpuReadExtensions_of_chain (by rw [hmand]; simp [hext]) ht0 hchain (by simp [hlen12])
      (by simp [gtpuMaxNumHeaderExtensions]))
  refine ⟨_, _, hw, hd, rfl, ?_⟩
  rw [gtpuExtractMsg, show BitReader.nofBytes ⟨headerFieldOctets header len ++ rest, 14, 0⟩ = 12 + 2 from rfl,
    ← List.drop_drop, hdrop, ← hrest]
  simp

/-- A PDU session container of 254 octets, the first 0, before an empty
T-PDU. -/
theorem gtpuWriteHeader_wraps_ext_length_pduSession :
    ∃ raw d, gtpuWriteHeader []
        { flags := { protocolType := gtpuFlagsGtpProtocol }
          messageType := gtpuMsgDataPdu
          extList := [⟨pduSessionContainer, noMoreExtensionHeaders :: List.replicate 253 0⟩] } = .ok raw ∧
      gtpuDissectPdu raw = .ok d ∧ d.hdr.extList = [⟨pduSessionContainer, []⟩] ∧
      gtpuExtractMsg d = List.replicate 253 0 ++ [noMoreExtensionHeaders] :=
  gtpuWriteHeader_wraps_ext_length (by decide) (by decide) rfl List.length_replicate (by decide) (by decide)
    (by decide)

/-- An extension whose length octet `L` announces, as `L * 4 - 2` in
`uint16_t`, more octets than remain (`L = 0` among them) is accepted: the
view comes back empty, the reader stays on the container, and the octet after
the length octet is taken as the next type. With that octet 0 the header is
14 octets long, the extension two, and what follows is the T-PDU. -/
theorem gtpuDissectPdu_accepts_short_extension {mt type L nPdu : UInt8} {teid : UInt32} {seq : UInt16}
    {rest : List UInt8} (htype : gtpuExtensionHeaderComprehensionCheck type = true)
    (htype0 : type ≠ noMoreExtensionHeaders) (hL : rest.length + 1 < (L.toNat * 4 + 65534) % 65536) :
    ∃ d, gtpuDissectPdu ([0x34, mt] ++ msbOctets 2 (rest.length + 6) ++ msbOctets 4 teid.toNat ++
        (msbOctets 2 seq.toNat ++ [nPdu, type, L, noMoreExtensionHeaders] ++ rest)) = .ok d ∧
      d.hdr.extList = [⟨type, []⟩] ∧ d.hdrLen = 14 ∧ gtpuExtractMsg d = rest := by
  generalize hraw : [0x34, mt] ++ msbOctets 2 (rest.length + 6) ++ msbOctets 4 teid.toNat ++
    (msbOctets 2 seq.toNat ++ [nPdu, type, L, noMoreExtensionHeaders] ++ rest) = raw
  have hmand := mandatoryHeaderAt_octets 0x34 mt (rest.length + 6) teid.toNat
    (msbOctets 2 seq.toNat ++ [nPdu, type, L, noMoreExtensionHeaders] ++ rest)
  rw [hraw] at hmand
  have hdrop : raw.drop 10 = nPdu :: type :: L :: noMoreExtensionHeaders :: rest := by
    have hpre : ([0x34, mt] ++ msbOctets 2 (rest.length + 6) ++ msbOctets 4 teid.toNat).length = 8 := by
      simp
    rw [← hraw, show 10 = 8 + 2 from rfl, ← List.drop_drop, List.drop_left' hpre, List.append_assoc,
      List.drop_left' (length_msbOctets 2 seq.toNat)]
    rfl
  have hrawlen : raw.length = rest.length + 14 := by
    simp [← hraw]
    omega
  have hoct : ∀ i, octetAt raw (10 + i) = octetAt (nPdu :: type :: L :: noMoreExtensionHeaders :: rest) i := by
    intro i
    rw [← octetAt_drop, hdrop]
  have h11 : octetAt raw 11 = type := hoct 1
  have h12 : octetAt raw 12 = L := hoct 2
  have h13 : octetAt raw 13 = noMoreExtensionHeaders := hoct 3
  -- the mandatory part: version 1, protocol type GTP, E set, and a length field that matches
  have hflags : gtpuSupportedFlagsCheck { flags := flagsOfOctet (octetAt raw 0) } = true := by
    have h0 : octetAt raw 0 = 0x34 := by rw [← hraw]; rfl
    rw [h0]
    decide
  have hlen : (mandatoryHeaderAt raw).length = UInt16.ofNat (raw.length - gtpuBaseHeaderLen) := by
    rw [hmand, hrawlen]
    apply UInt16.toNat_inj.mp
    simp [gtpuBaseHeaderLen]
  have hE : (mandatoryHeaderAt raw).flags.extHdr = true := by
    rw [hmand]
    rfl
  -- the optional part, with the first extension's type in octet 11
  have hopt : gtpuReadOptionalFields ⟨raw, 8, 0⟩ (mandatoryHeaderAt raw) =
      .ok ({ mandatoryHeaderAt raw with
              seqNumber := .ofNat (ofMsbBits (octetBits ((raw.drop 8).take 2))), nPdu := octetAt raw 10,
              nextExtHdrType := type }, ⟨raw, 12, 0⟩) := by
    rw [gtpuReadOptionalFields_at (by simp [hE]), if_neg (by simp [gtpuExtendedHeaderLen, hrawlen]), h11,
      if_pos htype]
  -- the length octet announces more than the `rest.length + 1` octets after it
  have hfields : extFieldsAt raw 12 = ([], noMoreExtensionHeaders, 14) := by
    have hn : ¬ (L.toNat * 4 + 65534) % 65536 ≤ raw.length - 13 := by omega
    simp only [extFieldsAt, h12, show min (12 + 1) raw.length = 13 by omega, hn, if_false, h13,
      show min (13 + 1) raw.length = 14 by omega]
  have hchain := @ExtChain.last raw 12 type htype (by rw [hfields])
  rw [hfields] at hchain
  have hd := gtpuDissectPdu_of_stages (by simp [gtpuBaseHeaderLen, hrawlen]) hflags hlen hopt
    (gtpuReadExtensions_of_chain (by exact hE) (by exact htype0) hchain (by omega)
      (by simp [gtpuMaxNumHeaderExtensions]))
  refine ⟨_, hd, rfl, rfl, ?_⟩
  rw [gtpuExtractMsg, show BitReader.nofBytes ⟨raw, 14, 0⟩ = 10 + 4 from rfl, ← List.drop_drop, hdrop]
  rfl

/-- A PDU session container with length octet 0 before the single T-PDU
octet `AB`. -/
theorem gtpuDissectPdu_accepts_short_extension_zero :
    ∃ d, gtpuDissectPdu [0x34, 0xff, 0x00, 0x07, 0x00, 0x00, 0x00, 0x01, 0x00, 0x00, 0x00, 0x85, 0x00, 0x00, 0xAB] =
        .ok d ∧ d.hdr.extList = [⟨pduSessionContainer, []⟩] ∧ d.hdrLen = 14 ∧ gtpuExtractMsg d = [0xAB] :=
  @gtpuDissectPdu_accepts_short_extension 0xff pduSessionContainer 0 0 1 0 [0xAB] (by decide) (by decide)
    (by decide)

end SrsRan.Gtpu
