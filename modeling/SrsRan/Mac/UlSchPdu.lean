import SrsRan.Lib.Octet

/-!
The MAC UL-SCH PDU parser (`mac_ul_sch_pdu.cpp`, `lcid_ul_sch.h`):
`mac_ul_sch_subpdu::unpack`, which reads one subheader and frames its payload
by the LCID's length rule, and `mac_ul_sch_pdu::unpack`, which reads subPDUs
until the reader is empty, stops early and reports success once 4096 subPDUs
are stored, and clears the list on the first error.

The reader is the list of octets left in the PDU; a payload view is the list
of its octets. Each subPDU takes at least its one-octet subheader, so the loop
ends; every subPDU read is its subheader followed by its payload, and the
subPDUs of a run cut the input into consecutive pieces (`unpack_tiles`).
-/

namespace SrsRan.Mac

open Octet

/-! ## LCIDs of the UL-SCH -/

/-- `lcid_ul_sch_t`: a value of TS 38.321 Table 6.2.1-2. Its constructor
asserts that the value is at most `PADDING`. -/
structure LcidUlSch where
  value : Nat
  le_padding : value ≤ 0b111111
  deriving DecidableEq, Repr

namespace LcidUlSch

def ccchSize64 : LcidUlSch := ⟨0b000000, by decide⟩
def lcid1 : LcidUlSch := ⟨1, by decide⟩
def lcid32 : LcidUlSch := ⟨32, by decide⟩
def minReserved : LcidUlSch := ⟨33, by decide⟩
def maxReserved : LcidUlSch := ⟨51, by decide⟩
def ccchSize48 : LcidUlSch := ⟨0b110100, by decide⟩
def bitRateQuery : LcidUlSch := ⟨0b110101, by decide⟩
def sePhr : LcidUlSch := ⟨0b111001, by decide⟩
def crnti : LcidUlSch := ⟨0b111010, by decide⟩
def shortTruncBsr : LcidUlSch := ⟨0b111011, by decide⟩
def longTruncBsr : LcidUlSch := ⟨0b111100, by decide⟩
def shortBsr : LcidUlSch := ⟨0b111101, by decide⟩
def longBsr : LcidUlSch := ⟨0b111110, by decide⟩
def padding : LcidUlSch := ⟨0b111111, by decide⟩

/-- `is_ccch`. -/
def isCcch (l : LcidUlSch) : Bool := l.value = ccchSize48.value || l.value = ccchSize64.value

/-- `is_sdu`: the LCID of a radio bearer, `LCID1` to `LCID32`. -/
def isSdu (l : LcidUlSch) : Bool := l.value ≤ lcid32.value && l.value ≥ lcid1.value

/-- `is_valid_lcid`: every value but the reserved ones. -/
def isValidLcid (l : LcidUlSch) : Bool :=
  l.value ≤ padding.value && (l.value < minReserved.value || l.value > maxReserved.value)

/-- `is_var_len_ce`. -/
def isVarLenCe (l : LcidUlSch) : Bool := l.value = longTruncBsr.value || l.value = longBsr.value

/-- `has_length_field`: the CCCHs have none in the UL; the SDUs and the
variable-size CEs have one. -/
def hasLengthField (l : LcidUlSch) : Bool :=
  if l.isCcch then false else l.isSdu || l.isVarLenCe

/-- `sizeof_ce`: the payload of the fixed-size CEs; every other value,
`BIT_RATE_QUERY` among them, gets the `default` size 0. -/
def sizeofCe (l : LcidUlSch) : Nat :=
  match l.value with
  | 0b110100 => 6
  | 0b000000 => 8
  | 0b111010 => 2
  | 0b111101 => 1
  | 0b111011 => 1
  | 0b111001 => 2
  | 0b111110 => 1
  | 0b111100 => 1
  | 0b111111 => 0
  | _ => 0

end LcidUlSch

/-- How a subPDU's payload is framed. -/
inductive UlFraming where
  /-- an R/F/LCID/L subheader: MAC SDUs and the variable-size CEs -/
  | withLength
  /-- an R/R/LCID subheader and a payload of this many octets -/
  | fixedSize (n : Nat)
  /-- an R/R/LCID subheader and padding to the end of the PDU -/
  | padding
  /-- a reserved value -/
  | reserved
  deriving DecidableEq, Repr

/-- How `mac_ul_sch_subpdu::unpack` frames the subPDU of an LCID. -/
def LcidUlSch.framing (l : LcidUlSch) : UlFraming :=
  if !l.isValidLcid then .reserved
  else if l.hasLengthField then .withLength
  else if l = .padding then .padding
  else .fixedSize l.sizeofCe

/-! ## `mac_ul_sch_subpdu` -/

/-- A decoded subPDU: its LCID, the length of its subheader, its F bit and
its payload view. -/
structure MacUlSchSubpdu where
  lcid : LcidUlSch
  headerLength : Nat
  fBit : Bool
  payload : List UInt8
  deriving DecidableEq, Repr

/-- The `error_type<std::string>` of `mac_ul_sch_subpdu::unpack`, one
constructor per message. -/
inductive UlSchUnpackError where
  /-- "Empty subPDU." -/
  | emptySubpdu
  /-- "Unrecognized lcid={}." -/
  | unrecognizedLcid (lcid : LcidUlSch)
  /-- "Not enough bytes remaining in PDU to decode length prefix." -/
  | lengthPrefix
  /-- "Not enough bytes remaining in PDU to decode SDU payload ({} < {})." -/
  | sduPayload (remaining sduLength : Nat)
  /-- "Not enough bytes remaining in PDU to decode CE payload ({} < {})." -/
  | cePayload (remaining sduLength : Nat)
  deriving DecidableEq, Repr

namespace MacUlSchSubpdu

/-- `total_length`. -/
def totalLength (s : MacUlSchSubpdu) : Nat := s.headerLength + s.payload.length

/-- The LCID in the low six bits of a subheader octet. -/
def lcidOf (b : UInt8) : LcidUlSch := ⟨b.toNat &&& 0x3f, by rw [and_0x3f]; omega⟩

/-- `mac_ul_sch_subpdu::unpack(byte_buffer_reader&)`: the subPDU at the front
of the reader, and what is left of the reader. The R bit is skipped. -/
def unpack (reader : List UInt8) : Except UlSchUnpackError (MacUlSchSubpdu × List UInt8) :=
  match reader with
  | [] => .error .emptySubpdu
  | b :: rest =>
    let subpduLen := reader.length
    let fBit := decide (b.toNat &&& 0x40 > 0)
    let lcid := lcidOf b
    if !lcid.isValidLcid then .error (.unrecognizedLcid lcid)
    else if lcid.hasLengthField then
      if subpduLen < (if fBit then 3 else 2) then .error .lengthPrefix
      else
        let sduLength := if fBit then (rest.getD 0 0).toNat <<< 8 ||| (rest.getD 1 0).toNat
          else (rest.getD 0 0).toNat
        let headerLength := if fBit then 3 else 2
        let rest := rest.drop (headerLength - 1)
        if subpduLen < headerLength + sduLength then
          .error (.sduPayload (subpduLen - headerLength) sduLength)
        else .ok (⟨lcid, headerLength, fBit, rest.take sduLength⟩, rest.drop sduLength)
    else if lcid = LcidUlSch.padding then .ok (⟨lcid, 1, fBit, rest⟩, [])
    else
      let sduLength := lcid.sizeofCe
      if subpduLen < 1 + sduLength then .error (.cePayload (subpduLen - 1) sduLength)
      else .ok (⟨lcid, 1, fBit, rest.take sduLength⟩, rest.drop sduLength)

/-- Every subPDU read is its subheader and its payload at the front of the
reader, and the reader is left right after it. -/
theorem unpack_frames {reader rest : List UInt8} {s : MacUlSchSubpdu}
    (h : unpack reader = .ok (s, rest)) :
    1 ≤ s.headerLength ∧ ∃ hdr, hdr.length = s.headerLength ∧ reader = hdr ++ s.payload ++ rest := by
  cases reader with
  | nil => cases h
  | cons b rest' =>
    -- the subheader is the first octet and the `headerLength - 1` after it
    have hcut : ∀ k L : Nat, k - 1 ≤ rest'.length → b :: rest' =
        (b :: rest'.take (k - 1)) ++ (rest'.drop (k - 1)).take L ++ (rest'.drop (k - 1)).drop L := by
      intro k L hk
      rw [List.append_assoc, List.take_append_drop, List.cons_append, List.take_append_drop]
    have hlen : ∀ k, k - 1 ≤ rest'.length → (b :: rest'.take (k - 1)).length = 1 + (k - 1) := by
      intro k hk
      simp only [List.length_cons, List.length_take]
      omega
    simp only [unpack] at h
    split_ifs at h with hv hlf hf hshort hpay hpad hce
    · -- an R/F/LCID/L subheader with a 16-bit L field
      obtain ⟨rfl, rfl⟩ := Prod.mk.inj (Except.ok.inj h)
      simp only [List.length_cons] at hshort
      exact ⟨by dsimp only; omega, _, hlen 3 (by omega), hcut 3 _ (by omega)⟩
    · -- with an 8-bit L field
      obtain ⟨rfl, rfl⟩ := Prod.mk.inj (Except.ok.inj h)
      simp only [List.length_cons] at hce
      exact ⟨by dsimp only; omega, _, hlen 2 (by omega), hcut 2 _ (by omega)⟩
    · -- padding runs to the end
      obtain ⟨rfl, rfl⟩ := Prod.mk.inj (Except.ok.inj h)
      exact ⟨le_rfl, [b], rfl, by simp⟩
    · -- an R/LCID subheader and a fixed-size CE
      obtain ⟨rfl, rfl⟩ := Prod.mk.inj (Except.ok.inj h)
      exact ⟨le_rfl, _, hlen 1 (by omega), hcut 1 _ (by omega)⟩

theorem framing_withLength {l : LcidUlSch} (h : l.framing = .withLength) :
    l.isValidLcid = true ∧ l.hasLengthField = true := by
  unfold LcidUlSch.framing at h
  split_ifs at h with h₁ h₂
  simp_all

theorem framing_fixedSize {l : LcidUlSch} {n : Nat} (h : l.framing = .fixedSize n) :
    l.isValidLcid = true ∧ l.hasLengthField = false ∧ l ≠ .padding ∧ l.sizeofCe = n := by
  unfold LcidUlSch.framing at h
  split_ifs at h with h₁ h₂ h₃
  simp_all

theorem framing_padding {l : LcidUlSch} (h : l.framing = .padding) :
    l.isValidLcid = true ∧ l.hasLengthField = false ∧ l = .padding := by
  unfold LcidUlSch.framing at h
  split_ifs at h with h₁ h₂ h₃
  simp_all

/-- An R/F/LCID/L subheader with an 8-bit L field. -/
theorem unpack_of_shortL {b l : UInt8} {rest : List UInt8} (hfr : (lcidOf b).framing = .withLength)
    (hF : b.toNat &&& 0x40 = 0) (hl : l.toNat ≤ rest.length) :
    unpack (b :: l :: rest) = .ok (⟨lcidOf b, 2, false, rest.take l.toNat⟩, rest.drop l.toNat) := by
  obtain ⟨hvalid, hlf⟩ := framing_withLength hfr
  rw [unpack]
  simp only [hF, hvalid, hlf, gt_iff_lt, lt_self_iff_false, decide_false, Bool.not_true,
    Bool.false_eq_true, ↓reduceIte, List.length_cons, List.getD_cons_zero]
  rw [if_neg (by omega), if_neg (by omega)]
  rfl

/-- An R/F/LCID/L subheader with a 16-bit L field, most significant octet
first. -/
theorem unpack_of_longL {b hi lo : UInt8} {rest : List UInt8}
    (hfr : (lcidOf b).framing = .withLength) (hF : b.toNat &&& 0x40 = 0x40)
    (hl : hi.toNat * 256 + lo.toNat ≤ rest.length) :
    unpack (b :: hi :: lo :: rest) = .ok (⟨lcidOf b, 3, true, rest.take (hi.toNat * 256 + lo.toNat)⟩,
      rest.drop (hi.toNat * 256 + lo.toNat)) := by
  obtain ⟨hvalid, hlf⟩ := framing_withLength hfr
  have hL : hi.toNat <<< 8 ||| lo.toNat = hi.toNat * 256 + lo.toNat :=
    shiftLeft_or_eq_add _ _ 8 lo.toNat_lt
  rw [unpack]
  simp only [hF, hvalid, hlf, hL, gt_iff_lt, Nat.ofNat_pos, decide_true, Bool.not_true,
    Bool.false_eq_true, ↓reduceIte, List.length_cons, List.getD_cons_zero, List.getD_cons_succ]
  rw [if_neg (by omega), if_neg (by omega)]
  rfl

/-- An R/R/LCID subheader and a fixed-size payload. -/
theorem unpack_of_fixedSize {b : UInt8} {rest : List UInt8} {n : Nat}
    (hfr : (lcidOf b).framing = .fixedSize n) (hn : n ≤ rest.length) :
    unpack (b :: rest) =
      .ok (⟨lcidOf b, 1, decide (b.toNat &&& 0x40 > 0), rest.take n⟩, rest.drop n) := by
  obtain ⟨hvalid, hlf, hnp, hsize⟩ := framing_fixedSize hfr
  rw [unpack]
  simp only [hvalid, hlf, hnp, hsize, Bool.not_true, Bool.false_eq_true, ↓reduceIte,
    List.length_cons]
  rw [if_neg (by omega)]

/-- Padding takes the rest of the PDU. -/
theorem unpack_of_padding {b : UInt8} {rest : List UInt8} (hfr : (lcidOf b).framing = .padding) :
    unpack (b :: rest) = .ok (⟨lcidOf b, 1, decide (b.toNat &&& 0x40 > 0), rest⟩, []) := by
  obtain ⟨hvalid, hlf, hp⟩ := framing_padding hfr
  rw [unpack]
  rw [hp] at hvalid hlf ⊢
  simp only [hvalid, hlf, Bool.not_true, Bool.false_eq_true, ↓reduceIte]

/-- A CE that the parser frames as fixed-size has a payload of that size. -/
theorem unpack_payload_of_fixedSize {reader rest : List UInt8} {s : MacUlSchSubpdu} {n : Nat}
    (h : unpack reader = .ok (s, rest)) (hfr : s.lcid.framing = .fixedSize n) :
    s.payload.length = n := by
  cases reader with
  | nil => cases h
  | cons b rest' =>
    simp only [unpack] at h
    split_ifs at h with hv hlf
    all_goals
      obtain ⟨rfl, rfl⟩ := Prod.mk.inj (Except.ok.inj h)
      dsimp only at hfr ⊢
    -- the R/F/LCID/L and padding subheaders are not framed as fixed-size
    · simp [LcidUlSch.framing, hv, hlf] at hfr
    · simp [LcidUlSch.framing, hv, hlf] at hfr
    · rename_i hpad
      rw [hpad] at hfr
      cases hfr
    · rename_i hpad hce
      obtain ⟨-, -, -, hsize⟩ := framing_fixedSize hfr
      simp only [List.length_cons] at hce
      simp only [List.length_take]
      omega

/-- So each subPDU takes at least one octet. -/
theorem unpack_shortens {reader rest : List UInt8} {s : MacUlSchSubpdu}
    (h : unpack reader = .ok (s, rest)) : rest.length < reader.length := by
  obtain ⟨hpos, hdr, hlen, rfl⟩ := unpack_frames h
  simp only [List.length_append]
  omega

end MacUlSchSubpdu

/-! ## `mac_ul_sch_pdu` -/

/-- `MAX_SUBPDUS_PER_PDU`. -/
def maxSubpdusPerPdu : Nat := 4096

/-- `mac_ul_sch_pdu`: the subPDUs it holds. -/
structure MacUlSchPdu where
  subpdus : List MacUlSchSubpdu
  deriving DecidableEq, Repr

/-- The loop of `mac_ul_sch_pdu::unpack`: the subPDUs held, and the result,
from those held so far and what is left of the reader. A full list ends the
loop with success; an error clears the list. -/
def unpackLoop (subpdus : List MacUlSchSubpdu) (reader : List UInt8) :
    List MacUlSchSubpdu × Except UlSchUnpackError Unit :=
  if reader.isEmpty then (subpdus, .ok ())
  else if subpdus.length = maxSubpdusPerPdu then (subpdus, .ok ())
  else
    match _hs : MacUlSchSubpdu.unpack reader with
    | .error e => ([], .error e)
    | .ok (s, rest) => unpackLoop (subpdus ++ [s]) rest
termination_by reader.length
decreasing_by exact MacUlSchSubpdu.unpack_shortens _hs

/-- `mac_ul_sch_pdu::unpack`: the PDU after the call, and its result. The
subPDUs already held are kept. -/
def MacUlSchPdu.unpack (pdu : MacUlSchPdu) (payload : List UInt8) :
    MacUlSchPdu × Except UlSchUnpackError Unit :=
  let (subpdus, ret) := unpackLoop pdu.subpdus payload
  (⟨subpdus⟩, ret)

theorem MacUlSchPdu.unpack_eq (pdu : MacUlSchPdu) (payload : List UInt8) :
    pdu.unpack payload = (⟨(unpackLoop pdu.subpdus payload).1⟩, (unpackLoop pdu.subpdus payload).2) :=
  rfl

theorem unpackLoop_of_isEmpty (subpdus : List MacUlSchSubpdu) :
    unpackLoop subpdus [] = (subpdus, .ok ()) := by
  rw [unpackLoop]
  rfl

/-- A round of the loop that reads a subPDU. -/
theorem unpackLoop_of_unpack {subpdus : List MacUlSchSubpdu} {reader rest : List UInt8}
    {s : MacUlSchSubpdu} (hfull : subpdus.length ≠ maxSubpdusPerPdu)
    (hs : MacUlSchSubpdu.unpack reader = .ok (s, rest)) :
    unpackLoop subpdus reader = unpackLoop (subpdus ++ [s]) rest := by
  have hne : reader.isEmpty = false := by
    obtain ⟨hpos, hdr, hlen, rfl⟩ := MacUlSchSubpdu.unpack_frames hs
    cases hdr with
    | nil => simp at hlen; omega
    | cons => rfl
  rw [unpackLoop, if_neg (by simp [hne]), if_neg hfull]
  split <;> simp_all

/-- A full list ends the loop with success, whatever is left to read. -/
theorem unpackLoop_of_full {subpdus : List MacUlSchSubpdu} (reader : List UInt8)
    (hfull : subpdus.length = maxSubpdusPerPdu) : unpackLoop subpdus reader = (subpdus, .ok ()) := by
  rw [unpackLoop]
  split_ifs <;> rfl

/-! ## What a run reads -/

/-- `ss` are read from `bytes` one after the other, each its subheader and
then its payload, and `rest` is left. -/
def Tiles : List MacUlSchSubpdu → List UInt8 → List UInt8 → Prop
  | [], bytes, rest => bytes = rest
  | s :: ss, bytes, rest => ∃ hdr tail, hdr.length = s.headerLength ∧ 1 ≤ s.headerLength ∧
      bytes = hdr ++ s.payload ++ tail ∧ Tiles ss tail rest

theorem Tiles.snoc {ss : List MacUlSchSubpdu} {bytes mid rest : List UInt8} {s : MacUlSchSubpdu}
    (h : Tiles ss bytes mid) (hs : MacUlSchSubpdu.unpack mid = .ok (s, rest)) :
    Tiles (ss ++ [s]) bytes rest := by
  induction ss generalizing bytes with
  | nil =>
    obtain rfl : bytes = mid := h
    obtain ⟨hpos, hdr, hlen, hmid⟩ := MacUlSchSubpdu.unpack_frames hs
    exact ⟨hdr, rest, hlen, hpos, hmid, rfl⟩
  | cons s' ss ih =>
    obtain ⟨hdr, tail, hlen, hpos, hbytes, ht⟩ := h
    exact ⟨hdr, tail, hlen, hpos, hbytes, ih ht⟩

/-- How a run of `mac_ul_sch_pdu::unpack` ends, holding `pre` before the
call on `bytes`: with an error and the list cleared, or with success,
holding `pre` and then subPDUs that tile `bytes` up to a rest, which is empty
unless the list is full. -/
def UnpackOutcome (pre : List MacUlSchSubpdu) (bytes : List UInt8) :
    List MacUlSchSubpdu × Except UlSchUnpackError Unit → Prop
  | (subpdus, .error _) => subpdus = []
  | (subpdus, .ok ()) => ∃ parsed rest, subpdus = pre ++ parsed ∧ Tiles parsed bytes rest ∧
      (rest = [] ∨ subpdus.length = maxSubpdusPerPdu)

/-- The run lemma of the loop: each round reads one more subPDU that tiles the
input further, until the reader is empty, the list is full, or an error
clears the list. -/
theorem unpackLoop_outcome {pre : List MacUlSchSubpdu} {bytes : List UInt8}
    (subpdus : List MacUlSchSubpdu) (reader : List UInt8) {parsed : List MacUlSchSubpdu}
    (hsub : subpdus = pre ++ parsed) (ht : Tiles parsed bytes reader) :
    UnpackOutcome pre bytes (unpackLoop subpdus reader) := by
  fun_induction unpackLoop subpdus reader generalizing parsed with
  | case1 subpdus reader hempty =>
    exact ⟨parsed, reader, hsub, ht, .inl (List.isEmpty_iff.mp hempty)⟩
  | case2 subpdus reader hempty hfull => exact ⟨parsed, reader, hsub, ht, .inr hfull⟩
  | case3 subpdus reader hempty hfull e he => rfl
  | case4 subpdus reader hempty hfull s rest hs ih =>
    exact ih (by rw [hsub, List.append_assoc]) (ht.snoc hs)

/-- Every subPDU a run holds was held before it, or was read by
`mac_ul_sch_subpdu::unpack`. -/
theorem unpackLoop_read (subpdus : List MacUlSchSubpdu) (reader : List UInt8) :
    ∀ p ∈ (unpackLoop subpdus reader).1,
      p ∈ subpdus ∨ ∃ r rest, MacUlSchSubpdu.unpack r = .ok (p, rest) := by
  fun_induction unpackLoop subpdus reader with
  | case1 subpdus reader hempty => exact fun p hp => .inl hp
  | case2 subpdus reader hempty hfull => exact fun p hp => .inl hp
  | case3 subpdus reader hempty hfull e he => exact fun p hp => absurd hp List.not_mem_nil
  | case4 subpdus reader hempty hfull s rest hs ih =>
    intro p hp
    rcases ih p hp with hold | hread
    · rcases List.mem_append.mp hold with hold | hnew
      · exact .inl hold
      · rw [List.mem_singleton.mp hnew]
        exact .inr ⟨reader, rest, hs⟩
    · exact .inr hread

/-- Every run from a fresh `mac_ul_sch_pdu`: an error leaves no subPDUs, and
success leaves subPDUs that cut the payload into consecutive pieces, each
its subheader and its payload, whose total lengths add up to the payload's
length unless 4096 subPDUs stopped the loop first. -/
theorem MacUlSchPdu.unpack_tiles (payload : List UInt8) :
    UnpackOutcome [] payload
      ((MacUlSchPdu.unpack ⟨[]⟩ payload).1.subpdus, (MacUlSchPdu.unpack ⟨[]⟩ payload).2) :=
  @unpackLoop_outcome [] payload [] payload [] rfl rfl

/-- So every subPDU of a fresh `mac_ul_sch_pdu` was read by
`mac_ul_sch_subpdu::unpack`. -/
theorem MacUlSchPdu.unpack_read {payload : List UInt8} {p : MacUlSchSubpdu}
    (hp : p ∈ (MacUlSchPdu.unpack ⟨[]⟩ payload).1.subpdus) :
    ∃ r rest, MacUlSchSubpdu.unpack r = .ok (p, rest) :=
  (unpackLoop_read [] payload p hp).resolve_left List.not_mem_nil

end SrsRan.Mac
