import SrsRan.Mac.UlSchPdu

/-!
The decoders of the UL MAC CEs (`ul_bsr.h`, `ul_bsr.cpp`, `ul_phr.h`,
`mac_ul_sch_pdu.h`): `decode_sbsr`, `decode_lbsr`, `decode_se_phr` and
`decode_crnti_ce`.

Each reads the octets of a subPDU's payload view. `payload[i]` and `*reader`
do not check that the octet is in the view, and the sanity checks of
`decode_sbsr` and `decode_se_phr` are compiled only with paranoid asserts, so
a read past the view is a `ReadFault` here. `decode_lbsr` reads the LCG bitmap
that way, with no check that the payload holds one; its loop reads a buffer
size only while the reader is not empty. The reports of a Long BSR are for
distinct LCGs in increasing order (`decodeLbsr_lcg_increasing`).
-/

namespace SrsRan.Mac

open Octet

/-! ## Reading a payload view -/

/-- A read of an octet past the end of the payload view. -/
inductive ReadFault where
  | pastPayload
  deriving DecidableEq, Repr

/-- `payload[i]`, and `*reader` on a reader `i` octets into the view. -/
def readOctet (payload : List UInt8) (i : Nat) : Except ReadFault UInt8 :=
  match payload[i]? with
  | some b => .ok b
  | none => .error .pastPayload

theorem readOctet_of_lt {payload : List UInt8} {i : Nat} (h : i < payload.length) :
    readOctet payload i = .ok payload[i] := by
  simp [readOctet, h]

/-! ## Buffer Status Reports -/

/-- `MAX_NOF_LCGS`. -/
def maxNofLcgs : Nat := 8

/-- `bsr_format`. -/
inductive BsrFormat where
  | shortBsr
  | longBsr
  | shortTruncBsr
  | longTruncBsr
  deriving DecidableEq, Repr

/-- `lcg_bsr_report`: an LCG and its buffer size field. -/
structure LcgBsrReport where
  lcgId : Fin maxNofLcgs
  bufferSize : UInt8
  deriving DecidableEq, Repr

theorem lcgOf_lt (b : UInt8) : (b.toNat &&& 0xe0) >>> 5 < maxNofLcgs := by
  have hb : b.toNat &&& 0xe0 ≤ b.toNat := Nat.and_le_left
  have h256 := b.toNat_lt
  rw [Nat.shiftRight_eq_div_pow, maxNofLcgs]
  omega

/-- `decode_sbsr`: the LCG in the top three bits, the buffer size in the low
five. -/
def decodeSbsr (payload : List UInt8) : Except ReadFault LcgBsrReport := do
  let b ← readOctet payload 0
  return ⟨⟨(b.toNat &&& 0xe0) >>> 5, lcgOf_lt b⟩, UInt8.ofNat (b.toNat &&& 0x1f)⟩

/-- `empty_lbsr_report`: every LCG, with buffer size 0. -/
def emptyLbsrReport : List LcgBsrReport := (List.finRange maxNofLcgs).map fun i => ⟨i, 0⟩

/-- The loop of `decode_lbsr` over the LCGs `is`, from the reports so far and
what is left of the reader; `none` is `make_unexpected`. An LCG whose bit is
set takes the next octet as its buffer size (255 is invalid), or 64 for a
Long Truncated BSR that has run out of octets; an LCG whose bit is clear is
reported with 0 in a Long Truncated BSR only. -/
def decodeLbsrLoop (format : BsrFormat) (bitmap : UInt8) :
    List (Fin maxNofLcgs) → List UInt8 → List LcgBsrReport → Option (List LcgBsrReport)
  | [], _, list => some list
  | i :: is, reader, list =>
    if bitmap.toNat &&& (1 <<< i.val) ≠ 0 then
      match reader with
      | b :: reader =>
        if b = 255 then none else decodeLbsrLoop format bitmap is reader (list ++ [⟨i, b⟩])
      | [] =>
        if format = .longTruncBsr then decodeLbsrLoop format bitmap is [] (list ++ [⟨i, 64⟩])
        else none
    else if format = .longTruncBsr then decodeLbsrLoop format bitmap is reader (list ++ [⟨i, 0⟩])
    else decodeLbsrLoop format bitmap is reader list

/-- `decode_lbsr`: the LCG bitmap is the first octet, read with no check that
the payload has one; a bitmap of 0 gives `empty_lbsr_report`. -/
def decodeLbsr (format : BsrFormat) (payload : List UInt8) :
    Except ReadFault (Option (List LcgBsrReport)) := do
  let bitmap ← readOctet payload 0
  if bitmap = 0 then return some emptyLbsrReport
  return decodeLbsrLoop format bitmap (List.finRange maxNofLcgs) (payload.drop 1) []

/-- The loop adds reports for LCGs it visits, in the order it visits them, at
most one each. -/
theorem decodeLbsrLoop_sublist {format : BsrFormat} {bitmap : UInt8} {is : List (Fin maxNofLcgs)}
    {reader : List UInt8} {list out : List LcgBsrReport}
    (h : decodeLbsrLoop format bitmap is reader list = some out) :
    ∃ new, out = list ++ new ∧ (new.map LcgBsrReport.lcgId).Sublist is := by
  induction is generalizing reader list with
  | nil =>
    obtain rfl : list = out := Option.some.inj h
    exact ⟨[], by rw [List.append_nil], by simp⟩
  | cons i is ih =>
    -- a report pushed for `i` is followed by reports for LCGs of `is`
    have push : ∀ {r : List UInt8} {rep : LcgBsrReport}, rep.lcgId = i →
        decodeLbsrLoop format bitmap is r (list ++ [rep]) = some out →
        ∃ new, out = list ++ new ∧ (new.map LcgBsrReport.lcgId).Sublist (i :: is) := by
      intro r rep hrep hr
      obtain ⟨new, rfl, hsub⟩ := ih hr
      refine ⟨rep :: new, by rw [List.append_assoc, List.singleton_append], ?_⟩
      rw [List.map_cons, hrep]
      exact hsub.cons_cons i
    have skip : ∀ {r : List UInt8}, decodeLbsrLoop format bitmap is r list = some out →
        ∃ new, out = list ++ new ∧ (new.map LcgBsrReport.lcgId).Sublist (i :: is) := by
      intro r hr
      obtain ⟨new, rfl, hsub⟩ := ih hr
      exact ⟨new, rfl, hsub.cons i⟩
    -- a buffer size octet, 64 once the reader is empty, or 0 for a clear bit
    -- of a Long Truncated BSR; otherwise `i` is skipped or the BSR is invalid
    cases reader with
    | cons b reader =>
      simp only [decodeLbsrLoop] at h
      split_ifs at h
      · exact push rfl h
      · exact push rfl h
      · exact skip h
    | nil =>
      simp only [decodeLbsrLoop] at h
      split_ifs at h
      · exact push rfl h
      · exact push rfl h
      · exact skip h

/-- `empty_lbsr_report` lists the LCGs in order. -/
theorem emptyLbsrReport_lcgIds : emptyLbsrReport.map LcgBsrReport.lcgId = List.finRange maxNofLcgs := by
  simp [emptyLbsrReport, Function.comp_def]

/-- `decode_lbsr` on a payload that holds the bitmap octet. -/
theorem decodeLbsr_cons (format : BsrFormat) (bitmap : UInt8) (rest : List UInt8) :
    decodeLbsr format (bitmap :: rest) = .ok (if bitmap = 0 then some emptyLbsrReport
      else decodeLbsrLoop format bitmap (List.finRange maxNofLcgs) rest []) := by
  simp only [decodeLbsr, readOctet, List.getElem?_cons_zero, List.drop_one, List.tail_cons, bind,
    Except.bind]
  split_ifs <;> rfl

/-- The reports of a decoded Long BSR are for distinct LCGs, in increasing
order; so there are at most `MAX_NOF_LCGS` of them. -/
theorem decodeLbsr_lcg_increasing {format : BsrFormat} {payload : List UInt8}
    {reports : List LcgBsrReport} (h : decodeLbsr format payload = .ok (some reports)) :
    reports.Pairwise (fun a b => a.lcgId < b.lcgId) ∧ reports.length ≤ maxNofLcgs := by
  have hsub : (reports.map LcgBsrReport.lcgId).Sublist (List.finRange maxNofLcgs) := by
    cases payload with
    | nil => cases h
    | cons bitmap rest =>
      rw [decodeLbsr_cons] at h
      split_ifs at h
      · cases h
        rw [emptyLbsrReport_lcgIds]
      · obtain ⟨new, rfl, hnew⟩ := decodeLbsrLoop_sublist (Except.ok.inj h)
        exact hnew
  refine ⟨List.pairwise_map.mp ((List.pairwise_lt_finRange maxNofLcgs).sublist hsub), ?_⟩
  simpa using hsub.length_le

/-! ## Single Entry PHR and C-RNTI -/

/-- `ph_to_db_range`: the dB interval of a PH level, TS 38.133 Table 10.1.17.1-1. -/
def phToDbRange (ph : Nat) : Int × Int :=
  if ph = 0 then (-32, -32)
  else if ph = 63 then (38, 38)
  else if ph < 55 then (-32 + ph - 1, -32 + ph)
  else (-32 + ph - 1, -32 + ph + 1)

/-- `p_cmax_to_dbm_range`: the dBm interval of a P_CMAX,f,c level, TS 38.133
Table 10.1.18.1-1. -/
def pCmaxToDbmRange (pCmax : Nat) : Int × Int :=
  if pCmax = 0 then (-29, -29)
  else if pCmax = 63 then (33, 33)
  else (-29 + pCmax - 1, -29 + pCmax)

/-- The PH and P_CMAX,f,c intervals of a `cell_ph_report`. -/
structure CellPhReport where
  ph : Int × Int
  pCmax : Int × Int
  deriving DecidableEq, Repr

/-- `decode_se_phr`: PH in the low six bits of the first octet, P_CMAX,f,c in
those of the second. -/
def decodeSePhr (payload : List UInt8) : Except ReadFault CellPhReport := do
  let ph ← readOctet payload 0
  let pCmax ← readOctet payload 1
  return ⟨phToDbRange (ph.toNat &&& 0b00111111), pCmaxToDbmRange (pCmax.toNat &&& 0b00111111)⟩

/-- `INVALID_RNTI`. -/
def invalidRnti : Nat := 0

/-- `decode_crnti_ce`: the C-RNTI, most significant octet first, or
`INVALID_RNTI` for a payload shorter than two octets. -/
def decodeCrntiCe (payload : List UInt8) : Except ReadFault Nat :=
  if payload.length < 2 then .ok invalidRnti
  else do
    let hi ← readOctet payload 0
    let lo ← readOctet payload 1
    return hi.toNat <<< 8 ||| lo.toNat

/-! ## Which reads stay in the payload -/

theorem decodeSbsr_ok {payload : List UInt8} (h : payload ≠ []) : ∃ r, decodeSbsr payload = .ok r := by
  have hpos : 0 < payload.length := List.length_pos_iff.mpr h
  exact ⟨_, by rw [decodeSbsr, readOctet_of_lt hpos]; rfl⟩

theorem decodeLbsr_ok {format : BsrFormat} {payload : List UInt8} (h : payload ≠ []) :
    ∃ r, decodeLbsr format payload = .ok r := by
  cases payload with
  | nil => exact absurd rfl h
  | cons bitmap rest => exact ⟨_, decodeLbsr_cons format bitmap rest⟩

/-- On an empty payload the bitmap read is past the view. -/
theorem decodeLbsr_nil (format : BsrFormat) : decodeLbsr format [] = .error .pastPayload := rfl

theorem decodeSePhr_ok {payload : List UInt8} (h : 2 ≤ payload.length) :
    ∃ r, decodeSePhr payload = .ok r :=
  ⟨_, by rw [decodeSePhr, readOctet_of_lt (by omega), readOctet_of_lt (by omega)]; rfl⟩

/-- `decode_crnti_ce` checks the length before it reads. -/
theorem decodeCrntiCe_ok (payload : List UInt8) : ∃ r, decodeCrntiCe payload = .ok r := by
  unfold decodeCrntiCe
  split_ifs with h
  · exact ⟨_, rfl⟩
  · exact ⟨_, by rw [readOctet_of_lt (by omega), readOctet_of_lt (by omega)]; rfl⟩

end SrsRan.Mac
