import SrsRan.Lib.Fallible
import SrsRan.Mac.UlSchSpec
import SrsRan.Mac.UlCeDecode

/-!
The subPDU side of `pdu_rx_handler` (`pdu_rx_handler.cpp`): `handle_sdu`,
`handle_mac_ce`, the loop of `handle_rx_subpdus` and `contains_positive_bsr`,
over the decoders of `UlCeDecode`.

The parser gives every fixed-size CE a payload of its size, so the Short BSR,
SE-PHR and C-RNTI decoders read inside it. A Long BSR or Long Truncated BSR is
framed by its L field, which may be 0: the parser then accepts it with an
empty payload, and `decode_lbsr` reads the LCG bitmap past it. For a PDU the
parser accepts, that is the only read past a payload
(`handlers_read_inside_payloads`), and a PDU that starts with such a
subPDU reaches it whenever the UE is known.
-/

namespace SrsRan.Mac

/-- What the handlers read of the PDU's context: whether its UE index is valid,
its RNTI, whether the UE has a context, and which UL bearers it has. -/
structure RxContext where
  ueIndexValid : Bool
  rnti : Nat
  ueExists : Bool
  hasBearer : Nat → Bool

/-- What the handlers pass on: an SDU to its bearer, or a BSR or a PHR to the
scheduler. -/
inductive RxEvent where
  | sdu (lcid : Nat) (payload : List UInt8)
  | bsr (format : BsrFormat) (reports : List LcgBsrReport)
  | phr (report : CellPhReport)
  deriving DecidableEq, Repr

/-- `handle_sdu`: the SDU goes to its bearer if the UE and the bearer exist. -/
def handleSdu (ctx : RxContext) (sdu : MacUlSchSubpdu) : Bool × List RxEvent :=
  if !ctx.ueExists then (false, [])
  else if !ctx.hasBearer sdu.lcid.value then (false, [])
  else (true, [.sdu sdu.lcid.value sdu.payload])

/-- The BSR arm of `handle_mac_ce`: a BSR of a known UE is decoded and sent to
the scheduler; an invalid Long BSR is refused. -/
def handleBsrCe (ctx : RxContext) (subpdu : MacUlSchSubpdu) : Except ReadFault (Bool × List RxEvent) :=
  if !ctx.ueIndexValid then .ok (false, [])
  else if subpdu.lcid = .shortBsr ∨ subpdu.lcid = .shortTruncBsr then do
    let report ← decodeSbsr subpdu.payload
    return (true, [.bsr (if subpdu.lcid = .shortBsr then .shortBsr else .shortTruncBsr) [report]])
  else do
    let format := if subpdu.lcid = .longBsr then BsrFormat.longBsr else .longTruncBsr
    match ← decodeLbsr format subpdu.payload with
    | none => return (false, [])
    | some reports => return (true, [.bsr format reports])

/-- `handle_mac_ce`: whether the subPDU is accepted and what it passes on. A
CCCH is refused once the UE exists; a BSR or a SE-PHR needs a known UE; a
C-RNTI CE must carry the PDU's own RNTI; padding and unhandled LCIDs pass. -/
def handleMacCe (ctx : RxContext) (subpdu : MacUlSchSubpdu) :
    Except ReadFault (Bool × List RxEvent) :=
  match subpdu.lcid.value with
  | 0b110100 | 0b000000 => .ok (!ctx.ueIndexValid, [])
  | 0b111101 | 0b111011 | 0b111110 | 0b111100 => handleBsrCe ctx subpdu
  | 0b111010 => do
    let rnti ← decodeCrntiCe subpdu.payload
    return (decide (rnti = ctx.rnti), [])
  | 0b111001 =>
    if !ctx.ueIndexValid then .ok (false, [])
    else do
      let phr ← decodeSePhr subpdu.payload
      return (true, [.phr phr])
  | _ => .ok (true, [])

/-- One subPDU of `handle_rx_subpdus`: an SDU or a MAC CE. -/
def handleSubpdu (ctx : RxContext) (s : MacUlSchSubpdu) : Except ReadFault (Bool × List RxEvent) :=
  if s.lcid.isSdu then pure (handleSdu ctx s) else handleMacCe ctx s

/-- `handle_rx_subpdus`: the subPDUs in order, up to the first refused. -/
def handleRxSubpdus (ctx : RxContext) : List MacUlSchSubpdu → Except ReadFault (Bool × List RxEvent)
  | [] => .ok (true, [])
  | s :: ss => do
    let (ret, events) ← handleSubpdu ctx s
    if !ret then return (false, events)
    let (ret, later) ← handleRxSubpdus ctx ss
    return (ret, events ++ later)

/-- The Short BSR test of the loop of `contains_positive_bsr`. -/
def shortBsrPositive (s : MacUlSchSubpdu) : Except ReadFault Bool :=
  if s.lcid = .shortTruncBsr ∨ s.lcid = .shortBsr then do
    let rep ← decodeSbsr s.payload
    return decide (rep.bufferSize > 0)
  else return false

/-- The Long BSR test of the loop of `contains_positive_bsr`: an invalid Long
BSR counts as none. -/
def longBsrPositive (s : MacUlSchSubpdu) : Except ReadFault Bool :=
  if s.lcid = .longTruncBsr ∨ s.lcid = .longBsr then do
    let format := if s.lcid = .longBsr then BsrFormat.longBsr else .longTruncBsr
    match ← decodeLbsr format s.payload with
    | some reports => return reports.any fun l => l.bufferSize > 0
    | none => return false
  else return false

/-- `contains_positive_bsr`: whether some subPDU is a BSR with a positive
buffer size. -/
def containsPositiveBsr : List MacUlSchSubpdu → Except ReadFault Bool
  | [] => .ok false
  | s :: ss => do
    if ← shortBsrPositive s then return true
    if ← longBsrPositive s then return true
    containsPositiveBsr ss

/-! ## Which reads stay in the payload -/

theorem LcidUlSch.eq_of_value {l l' : LcidUlSch} (h : l.value = l'.value) : l = l' := by
  cases l
  cases l'
  cases h
  rfl

/-- A Long BSR or Long Truncated BSR with an empty payload: an L field of 0. -/
def MacUlSchSubpdu.IsEmptyLongBsr (p : MacUlSchSubpdu) : Prop :=
  (p.lcid = .longBsr ∨ p.lcid = .longTruncBsr) ∧ p.payload = []

open Fallible (Post)

section ReadSubpdu

-- the subPDU was read by `mac_ul_sch_subpdu::unpack`, so a CE the parser
-- frames as fixed-size has a payload of that size
variable {p : MacUlSchSubpdu} (hsize : ∀ {n}, p.lcid.framing = .fixedSize n → p.payload.length = n)
include hsize

theorem handleBsrCe_post (ctx : RxContext)
    (hbsr : p.lcid = .shortBsr ∨ p.lcid = .shortTruncBsr ∨ p.lcid = .longBsr ∨ p.lcid = .longTruncBsr) :
    Post (fun _ => True) (fun _ => ctx.ueIndexValid = true ∧ p.IsEmptyLongBsr) (handleBsrCe ctx p) := by
  unfold handleBsrCe
  cases hue : ctx.ueIndexValid with
  | false => trivial
  | true =>
    rw [Bool.not_true, if_neg Bool.false_ne_true]
    by_cases hshort : p.lcid = .shortBsr ∨ p.lcid = .shortTruncBsr
    · -- a Short BSR has its one octet
      rw [if_pos hshort]
      have hone : p.payload.length = 1 := hsize (by rcases hshort with h | h <;> rw [h] <;> rfl)
      have hne : p.payload ≠ [] := List.ne_nil_of_length_pos (by omega)
      obtain ⟨report, hreport⟩ := decodeSbsr_ok hne
      rw [hreport]
      trivial
    · rw [if_neg hshort]
      have hlong : p.lcid = .longBsr ∨ p.lcid = .longTruncBsr := by tauto
      dsimp only
      generalize (if p.lcid = .longBsr then BsrFormat.longBsr else .longTruncBsr) = format
      by_cases hnil : p.payload = []
      · -- the bitmap is read past an empty payload
        rw [hnil, decodeLbsr_nil]
        exact ⟨rfl, hlong, hnil⟩
      · obtain ⟨res, hres⟩ := @decodeLbsr_ok format _ hnil
        rw [hres]
        cases res <;> trivial

/-- `handle_mac_ce` reads past a payload only at an empty Long BSR of a known UE. -/
theorem handleMacCe_post (ctx : RxContext) :
    Post (fun _ => True) (fun _ => ctx.ueIndexValid = true ∧ p.IsEmptyLongBsr) (handleMacCe ctx p) := by
  unfold handleMacCe
  split
  next => trivial
  next => trivial
  next hv => exact handleBsrCe_post hsize ctx (.inl (LcidUlSch.eq_of_value hv))
  next hv => exact handleBsrCe_post hsize ctx (.inr (.inl (LcidUlSch.eq_of_value hv)))
  next hv => exact handleBsrCe_post hsize ctx (.inr (.inr (.inl (LcidUlSch.eq_of_value hv))))
  next hv => exact handleBsrCe_post hsize ctx (.inr (.inr (.inr (LcidUlSch.eq_of_value hv))))
  next =>
    obtain ⟨rnti, hrnti⟩ := decodeCrntiCe_ok p.payload
    rw [hrnti]
    trivial
  next hv =>
    split_ifs
    · trivial
    · -- a SE-PHR has its two octets
      have htwo : p.payload.length = 2 := hsize (by rw [(LcidUlSch.eq_of_value hv : p.lcid = .sePhr)]; rfl)
      obtain ⟨phr, hphr⟩ := decodeSePhr_ok (by omega : 2 ≤ p.payload.length)
      rw [hphr]
      trivial
  next => trivial

theorem handleSubpdu_post (ctx : RxContext) :
    Post (fun _ => True) (fun _ => ctx.ueIndexValid = true ∧ p.IsEmptyLongBsr) (handleSubpdu ctx p) := by
  unfold handleSubpdu
  split
  · trivial
  · exact handleMacCe_post hsize ctx

theorem shortBsrPositive_post :
    Post (fun _ => True) (fun _ => p.IsEmptyLongBsr) (shortBsrPositive p) := by
  unfold shortBsrPositive
  split
  · -- a Short BSR has its one octet
    rename_i hshort
    have hone : p.payload.length = 1 := hsize (by rcases hshort with h | h <;> rw [h] <;> rfl)
    have hne : p.payload ≠ [] := List.ne_nil_of_length_pos (by omega)
    obtain ⟨report, hreport⟩ := decodeSbsr_ok hne
    rw [hreport]
    trivial
  · trivial

end ReadSubpdu

theorem longBsrPositive_post (p : MacUlSchSubpdu) :
    Post (fun _ => True) (fun _ => p.IsEmptyLongBsr) (longBsrPositive p) := by
  unfold longBsrPositive
  split
  · rename_i hlong
    dsimp only
    generalize (if p.lcid = .longBsr then BsrFormat.longBsr else .longTruncBsr) = format
    by_cases hnil : p.payload = []
    · rw [hnil, decodeLbsr_nil]
      exact ⟨hlong.symm, hnil⟩
    · obtain ⟨res, hres⟩ := @decodeLbsr_ok format _ hnil
      rw [hres]
      cases res <;> trivial
  · trivial

/-- Subpdus read by `mac_ul_sch_subpdu::unpack`. -/
def AllRead (ss : List MacUlSchSubpdu) : Prop :=
  ∀ p ∈ ss, ∃ r rest, MacUlSchSubpdu.unpack r = .ok (p, rest)

theorem AllRead.size {ss : List MacUlSchSubpdu} (h : AllRead ss) {p : MacUlSchSubpdu} (hp : p ∈ ss) :
    ∀ {n}, p.lcid.framing = .fixedSize n → p.payload.length = n := by
  obtain ⟨r, rest, hr⟩ := h p hp
  exact fun hfr => MacUlSchSubpdu.unpack_payload_of_fixedSize hr hfr

/-- The run of `handle_rx_subpdus` over subPDUs the parser read: it reads past
a payload only at an empty Long BSR of a known UE. -/
theorem handleRxSubpdus_post (ctx : RxContext) {ss : List MacUlSchSubpdu} (hss : AllRead ss) :
    Post (fun _ => True) (fun _ => ctx.ueIndexValid = true ∧ ∃ p ∈ ss, p.IsEmptyLongBsr)
      (handleRxSubpdus ctx ss) := by
  induction ss with
  | nil => trivial
  | cons s ss ih =>
    have hs := handleSubpdu_post (hss.size List.mem_cons_self) ctx
    have later := ih (fun p hp => hss p (List.mem_cons_of_mem s hp))
    unfold handleRxSubpdus
    refine (hs.mono (fun _ h => h) (fun _ ⟨hue, he⟩ => ⟨hue, s, List.mem_cons_self, he⟩)).bind ?_
    rintro ⟨ret, events⟩ -
    dsimp only
    split
    · trivial
    · refine (later.mono (fun _ h => h) ?_).bind (fun _ _ => trivial)
      rintro _ ⟨hue, p, hp, he⟩
      exact ⟨hue, p, List.mem_cons_of_mem s hp, he⟩

/-- The run of `contains_positive_bsr` over subPDUs the parser read: it reads
past a payload only at an empty Long BSR. -/
theorem containsPositiveBsr_post {ss : List MacUlSchSubpdu} (hss : AllRead ss) :
    Post (fun _ => True) (fun _ => ∃ p ∈ ss, p.IsEmptyLongBsr) (containsPositiveBsr ss) := by
  induction ss with
  | nil => trivial
  | cons s ss ih =>
    -- the error of either test of `s` is at `s`, that of the rest is in the rest
    have here : ∀ _ : ReadFault, s.IsEmptyLongBsr → ∃ p ∈ s :: ss, p.IsEmptyLongBsr :=
      fun _ he => ⟨s, List.mem_cons_self, he⟩
    have later := ih (fun p hp => hss p (List.mem_cons_of_mem s hp))
    unfold containsPositiveBsr
    refine ((shortBsrPositive_post (hss.size List.mem_cons_self)).mono (fun _ h => h) here).bind ?_
    rintro short -
    split
    · trivial
    · refine ((longBsrPositive_post s).mono (fun _ h => h) here).bind ?_
      rintro long -
      split
      · trivial
      · refine later.mono (fun _ h => h) ?_
        rintro _ ⟨p, hp, he⟩
        exact ⟨p, List.mem_cons_of_mem s hp, he⟩

/-- For any PDU, whatever `mac_ul_sch_pdu::unpack` returns, the subPDU
handlers read past a payload only at an empty Long BSR or Long Truncated BSR:
`handle_rx_subpdus` when the UE is known, and `contains_positive_bsr`. -/
theorem handlers_read_inside_payloads (ctx : RxContext) (payload : List UInt8) :
    let ss := (MacUlSchPdu.unpack ⟨[]⟩ payload).1.subpdus
    Post (fun _ => True) (fun _ => ctx.ueIndexValid = true ∧ ∃ p ∈ ss, p.IsEmptyLongBsr)
        (handleRxSubpdus ctx ss) ∧
      Post (fun _ => True) (fun _ => ∃ p ∈ ss, p.IsEmptyLongBsr) (containsPositiveBsr ss) :=
  have hss : AllRead (MacUlSchPdu.unpack ⟨[]⟩ payload).1.subpdus := fun _ hp => MacUlSchPdu.unpack_read hp
  ⟨handleRxSubpdus_post ctx hss, containsPositiveBsr_post hss⟩

/-! ## A Long BSR with an L field of 0 -/

section EmptyLongBsr

variable {p : MacUlSchSubpdu} (he : p.IsEmptyLongBsr)
include he

theorem MacUlSchSubpdu.IsEmptyLongBsr.not_short : ¬(p.lcid = .shortBsr ∨ p.lcid = .shortTruncBsr) := by
  rcases he.1 with hl | hl <;> rw [hl] <;> decide

theorem handleSubpdu_of_empty_lbsr {ctx : RxContext} (hue : ctx.ueIndexValid = true) :
    handleSubpdu ctx p = .error .pastPayload := by
  have hsdu : p.lcid.isSdu = false := by
    rcases he.1 with hl | hl <;> rw [hl] <;> rfl
  have hmatch : handleMacCe ctx p = handleBsrCe ctx p := by
    rcases he.1 with hl | hl <;> (unfold handleMacCe; rw [hl]; rfl)
  unfold handleSubpdu
  rw [hsdu, if_neg Bool.false_ne_true, hmatch, handleBsrCe, hue, Bool.not_true,
    if_neg Bool.false_ne_true, if_neg he.not_short]
  dsimp only
  rw [he.2, decodeLbsr_nil]
  rfl

theorem containsPositiveBsr_of_empty_lbsr (ss : List MacUlSchSubpdu) :
    containsPositiveBsr (p :: ss) = .error .pastPayload := by
  have hshort : shortBsrPositive p = .ok false := by
    rw [shortBsrPositive, if_neg (fun h => he.not_short h.symm)]
    rfl
  have hlong : longBsrPositive p = .error .pastPayload := by
    rw [longBsrPositive, if_pos he.1.symm]
    dsimp only
    rw [he.2, decodeLbsr_nil]
    rfl
  rw [containsPositiveBsr, hshort, Fallible.ok_bind, if_neg Bool.false_ne_true, hlong]
  rfl

end EmptyLongBsr

/-- The parser takes an R/F/LCID/L subheader of a Long BSR with L = 0 for a
subPDU with an empty payload, and goes on right after it. -/
theorem unpackLoop_empty_lbsr {b : UInt8}
    (hb : MacUlSchSubpdu.lcidOf b = .longBsr ∨ MacUlSchSubpdu.lcidOf b = .longTruncBsr)
    (hF : b.toNat &&& 0x40 = 0) (rest : List UInt8) :
    unpackLoop [] (b :: 0 :: rest) = unpackLoop [⟨MacUlSchSubpdu.lcidOf b, 2, false, []⟩] rest := by
  have hfr : (MacUlSchSubpdu.lcidOf b).framing = .withLength := by
    rcases hb with h | h <;> rw [h] <;> rfl
  have hu := @MacUlSchSubpdu.unpack_of_shortL b 0 rest hfr hF (by simp)
  rw [UInt8.toNat_zero, List.take_zero, List.drop_zero] at hu
  exact unpackLoop_of_unpack (by simp [maxSubpdusPerPdu]) hu

/-- A PDU that starts with a Long BSR or Long Truncated BSR whose L field is 0:
whenever the parser accepts it, whatever follows, `handle_rx_subpdus` of a
known UE and `contains_positive_bsr` read the LCG bitmap past the subPDU's
empty payload. -/
theorem handleRxSubpdus_reads_past_empty_lbsr (ctx : RxContext) (hue : ctx.ueIndexValid = true)
    {b : UInt8} (hb : MacUlSchSubpdu.lcidOf b = .longBsr ∨ MacUlSchSubpdu.lcidOf b = .longTruncBsr)
    (hF : b.toNat &&& 0x40 = 0) (rest : List UInt8)
    (hok : (MacUlSchPdu.unpack ⟨[]⟩ (b :: 0 :: rest)).2 = .ok ()) :
    handleRxSubpdus ctx (MacUlSchPdu.unpack ⟨[]⟩ (b :: 0 :: rest)).1.subpdus = .error .pastPayload ∧
      containsPositiveBsr (MacUlSchPdu.unpack ⟨[]⟩ (b :: 0 :: rest)).1.subpdus = .error .pastPayload := by
  let p : MacUlSchSubpdu := ⟨MacUlSchSubpdu.lcidOf b, 2, false, []⟩
  have he : p.IsEmptyLongBsr := ⟨hb, rfl⟩
  -- the run goes on from the empty Long BSR, so an accepted PDU keeps it first
  have hout : UnpackOutcome [p] rest (unpackLoop [p] rest) :=
    unpackLoop_outcome _ _ (List.append_nil _).symm rfl
  rw [MacUlSchPdu.unpack_eq, unpackLoop_empty_lbsr hb hF] at hok ⊢
  generalize unpackLoop [p] rest = run at hout hok ⊢
  obtain ⟨subpdus, res⟩ := run
  obtain rfl : res = .ok () := hok
  obtain ⟨parsed, -, rfl, -⟩ := hout
  refine ⟨?_, containsPositiveBsr_of_empty_lbsr he parsed⟩
  show handleRxSubpdus ctx (p :: parsed) = _
  rw [handleRxSubpdus, handleSubpdu_of_empty_lbsr he hue]
  rfl

/-- The Long BSR 3E 00 alone, from a known UE. -/
theorem handleRxSubpdus_reads_past_lbsr_3e00 :
    (⟨true, 0x4601, true, fun _ => true⟩ : RxContext).ueIndexValid = true ∧
      (MacUlSchSubpdu.lcidOf 0x3e = .longBsr ∨ MacUlSchSubpdu.lcidOf 0x3e = .longTruncBsr) ∧
      (0x3e : UInt8).toNat &&& 0x40 = 0 ∧ (MacUlSchPdu.unpack ⟨[]⟩ [0x3e, 0x00]).2 = .ok () ∧
      handleRxSubpdus ⟨true, 0x4601, true, fun _ => true⟩
          (MacUlSchPdu.unpack ⟨[]⟩ [0x3e, 0x00]).1.subpdus = .error .pastPayload ∧
      containsPositiveBsr (MacUlSchPdu.unpack ⟨[]⟩ [0x3e, 0x00]).1.subpdus = .error .pastPayload :=
  have hok : (MacUlSchPdu.unpack ⟨[]⟩ [0x3e, 0x00]).2 = .ok () := by
    rw [MacUlSchPdu.unpack_eq, unpackLoop_empty_lbsr (.inl rfl) (by decide) [], unpackLoop_of_isEmpty]
  ⟨rfl, .inl rfl, by decide, hok,
    handleRxSubpdus_reads_past_empty_lbsr ⟨true, 0x4601, true, fun _ => true⟩ rfl (.inl rfl) (by decide) [] hok⟩

end SrsRan.Mac
