import SrsRan.Mac.UlSchPdu

/-!
The UL-SCH MAC PDU as TS 38.321 6.1.2 and Table 6.2.1-2 lay it out, and how
`mac_ul_sch_pdu::unpack` reads it.

A subPDU of a logical channel or of a variable-size CE has an R/F/LCID/L
subheader with an 8- or 16-bit L field; the CCCHs and the fixed-size CEs have
an R/R/LCID subheader and a payload of the size the table gives; padding runs
to the end of the PDU. The parser frames each LCID the way the table does
except three: the Recommended bit rate query (LCID 53, a two-octet CE) and the
two Multiple Entry PHRs (LCIDs 54 and 56, variable-size CEs with an L field),
which `lcid_ul_sch_t` takes for CEs of size 0. A PDU of well-formed subPDUs
without those three is read back exactly, up to 4096 subPDUs; past that the
parser returns success with the first 4096. A PDU that starts with one of the
three is never read back.
-/

namespace SrsRan.Mac

open Octet

/-- Table 6.2.1-2, with the sizes of the fixed-size CEs of 6.1.3. -/
def ulFraming (lcid : Nat) : UlFraming :=
  match lcid with
  | 0 => .fixedSize 8
  | 52 => .fixedSize 6
  | 53 => .fixedSize 2
  | 54 => .withLength
  | 55 => .fixedSize 0
  | 56 => .withLength
  | 57 => .fixedSize 2
  | 58 => .fixedSize 2
  | 59 => .fixedSize 1
  | 60 => .withLength
  | 61 => .fixedSize 1
  | 62 => .withLength
  | 63 => .padding
  | n => if n ≤ 32 then .withLength else .reserved

/-- A subPDU as the sender forms it: its LCID, whether its L field (if it has
one) takes 16 bits, and its payload. -/
structure UlSubPdu where
  lcid : Nat
  longL : Bool
  payload : List UInt8
  deriving DecidableEq, Repr

namespace UlSubPdu

/-- The octets of a subPDU: subheader with R = 0, then payload. The L field is
most significant octet first. -/
def encode (s : UlSubPdu) : List UInt8 :=
  match ulFraming s.lcid with
  | .withLength =>
    if s.longL then
      UInt8.ofNat (0x40 + s.lcid) :: UInt8.ofNat (s.payload.length / 256) ::
        UInt8.ofNat (s.payload.length % 256) :: s.payload
    else UInt8.ofNat s.lcid :: UInt8.ofNat s.payload.length :: s.payload
  | _ => UInt8.ofNat s.lcid :: s.payload

/-- A subPDU the table allows: an L field that holds the payload's length,
a fixed-size CE of its size, no reserved LCID. -/
def WellFormed (s : UlSubPdu) : Prop :=
  match ulFraming s.lcid with
  | .withLength => s.payload.length < 2 ^ (if s.longL then 16 else 8)
  | .fixedSize n => s.payload.length = n
  | .padding => True
  | .reserved => False

/-- The LCID and the payload, what the parser is to give back. -/
def contents (s : UlSubPdu) : Nat × List UInt8 := (s.lcid, s.payload)

/-- A subPDU the parser reads back in the middle of a PDU: well formed, of an
LCID the parser frames as the table does, and not padding. -/
def ReadsBack (s : UlSubPdu) : Prop :=
  s.WellFormed ∧ (s.lcid ≠ 53 ∧ s.lcid ≠ 54 ∧ s.lcid ≠ 56) ∧ ulFraming s.lcid ≠ .padding

end UlSubPdu

/-- A PDU of well-formed subPDUs with padding at most at its end. -/
def FormedPdu (ss : List UlSubPdu) : Prop :=
  (∀ s ∈ ss, s.WellFormed) ∧ ∀ s ∈ ss.dropLast, ulFraming s.lcid ≠ .padding

/-- The octets of a PDU. -/
def encodePdu (ss : List UlSubPdu) : List UInt8 := ss.flatMap UlSubPdu.encode

@[simp] theorem encodePdu_nil : encodePdu [] = [] := rfl

@[simp] theorem encodePdu_cons (s : UlSubPdu) (ss : List UlSubPdu) :
    encodePdu (s :: ss) = s.encode ++ encodePdu ss :=
  List.flatMap_cons

@[simp] theorem encodePdu_append (ss ss' : List UlSubPdu) :
    encodePdu (ss ++ ss') = encodePdu ss ++ encodePdu ss' :=
  List.flatMap_append

/-- The LCID and payload of a decoded subPDU. -/
def MacUlSchSubpdu.contents (p : MacUlSchSubpdu) : Nat × List UInt8 := (p.lcid.value, p.payload)

/-! ## The parser's framing against the table -/

/-- The parser frames every LCID as the table does but 53, 54 and 56. -/
theorem LcidUlSch.framing_eq (l : LcidUlSch) (h : l.value ≠ 53 ∧ l.value ≠ 54 ∧ l.value ≠ 56) :
    l.framing = ulFraming l.value := by
  obtain ⟨v, hv⟩ := l
  revert h
  revert hv
  revert v
  decide

/-- Those three it takes for CEs of size 0. -/
theorem LcidUlSch.framing_misframed (l : LcidUlSch) (h : l.value = 53 ∨ l.value = 54 ∨ l.value = 56) :
    l.framing = .fixedSize 0 := by
  obtain ⟨v, hv⟩ := l
  revert h
  revert hv
  revert v
  decide

/-- Past six bits every value is reserved. -/
theorem ulFraming_of_ge {n : Nat} (h : 64 ≤ n) : ulFraming n = .reserved := by
  unfold ulFraming
  split
  all_goals first
    | omega
    | exact if_neg (by omega)

theorem UlSubPdu.lcid_lt_of_wellFormed {s : UlSubPdu} (hs : s.WellFormed) : s.lcid < 64 := by
  by_contra h
  unfold UlSubPdu.WellFormed at hs
  rw [ulFraming_of_ge (by omega)] at hs
  exact hs

/-- The subheader octet of an LCID: F = 0 and the LCID, or F = 1 and the
LCID. -/
theorem subheader_octets {v : Nat} (hv : v < 64) :
    (UInt8.ofNat v).toNat &&& 0x40 = 0 ∧ (UInt8.ofNat v).toNat &&& 0x3f = v ∧
      (UInt8.ofNat (0x40 + v)).toNat &&& 0x40 = 0x40 ∧ (UInt8.ofNat (0x40 + v)).toNat &&& 0x3f = v := by
  revert hv
  revert v
  decide

theorem MacUlSchSubpdu.lcidOf_eq {b : UInt8} {v : Nat} (h : b.toNat &&& 0x3f = v) (hv : v ≤ 63) :
    MacUlSchSubpdu.lcidOf b = ⟨v, hv⟩ := by
  simp only [MacUlSchSubpdu.lcidOf, h]

/-! ## Reading back a PDU -/

/-- The parser reads back a subPDU, not padding, whose LCID it frames as the
table does, and leaves the reader right after it. -/
theorem UlSubPdu.unpack_encode_append {s : UlSubPdu} (hs : s.WellFormed)
    (hl : s.lcid ≠ 53 ∧ s.lcid ≠ 54 ∧ s.lcid ≠ 56) (hpad : ulFraming s.lcid ≠ .padding)
    (rest : List UInt8) :
    ∃ p, MacUlSchSubpdu.unpack (s.encode ++ rest) = .ok (p, rest) ∧ p.contents = s.contents := by
  have h64 := lcid_lt_of_wellFormed hs
  obtain ⟨hf₀, hl₀, hf₁, hl₁⟩ := subheader_octets h64
  have hlcid₀ := MacUlSchSubpdu.lcidOf_eq hl₀ (by omega)
  have hlcid₁ := MacUlSchSubpdu.lcidOf_eq hl₁ (by omega)
  have hfr := LcidUlSch.framing_eq ⟨s.lcid, by omega⟩ hl
  unfold WellFormed at hs
  unfold encode
  cases hf : ulFraming s.lcid with
  | withLength =>
    rw [hf] at hs hfr
    cases hL : s.longL with
    | true =>
      simp only [hL, ↓reduceIte] at hs ⊢
      have hhi : (UInt8.ofNat (s.payload.length / 256)).toNat = s.payload.length / 256 := by
        rw [toNat_ofNat_uint8, Nat.mod_eq_of_lt (by omega)]
      have hlo : (UInt8.ofNat (s.payload.length % 256)).toNat = s.payload.length % 256 := by
        rw [toNat_ofNat_uint8, Nat.mod_eq_of_lt (by omega)]
      have hL16 : s.payload.length / 256 * 256 + s.payload.length % 256 = s.payload.length := by
        omega
      refine ⟨⟨⟨s.lcid, by omega⟩, 3, true, s.payload⟩, ?_, rfl⟩
      rw [List.cons_append, List.cons_append, List.cons_append,
        MacUlSchSubpdu.unpack_of_longL (by rw [hlcid₁]; exact hfr) hf₁
          (by rw [hhi, hlo, hL16, List.length_append]; omega),
        hhi, hlo, hL16, hlcid₁, List.take_left' rfl, List.drop_left' rfl]
    | false =>
      simp only [hL, Bool.false_eq_true, ↓reduceIte] at hs ⊢
      have hlen : (UInt8.ofNat s.payload.length).toNat = s.payload.length := by
        rw [toNat_ofNat_uint8, Nat.mod_eq_of_lt (by simpa using hs)]
      refine ⟨⟨⟨s.lcid, by omega⟩, 2, false, s.payload⟩, ?_, rfl⟩
      rw [List.cons_append, List.cons_append,
        MacUlSchSubpdu.unpack_of_shortL (by rw [hlcid₀]; exact hfr) hf₀
          (by rw [hlen, List.length_append]; omega),
        hlen, hlcid₀, List.take_left' rfl, List.drop_left' rfl]
  | fixedSize n =>
    rw [hf] at hs hfr
    refine ⟨⟨⟨s.lcid, by omega⟩, 1, false, s.payload⟩, ?_, rfl⟩
    rw [List.cons_append, MacUlSchSubpdu.unpack_of_fixedSize (by rw [hlcid₀]; exact hfr)
        (by rw [List.length_append]; omega),
      hlcid₀, hf₀, List.take_left' hs, List.drop_left' hs]
    rfl
  | padding => exact absurd hf hpad
  | reserved =>
    rw [hf] at hs
    exact hs.elim

/-- Padding, read back to the end of the PDU. -/
theorem UlSubPdu.unpack_encode_padding {s : UlSubPdu} (hpad : ulFraming s.lcid = .padding) :
    ∃ p, MacUlSchSubpdu.unpack s.encode = .ok (p, []) ∧ p.contents = s.contents := by
  have h63 : s.lcid = 63 := by
    unfold ulFraming at hpad
    split at hpad
    all_goals first
      | split_ifs at hpad
      | (cases hpad <;> assumption)
  have hfr : (MacUlSchSubpdu.lcidOf (UInt8.ofNat s.lcid)).framing = .padding := by
    rw [h63]
    decide
  refine ⟨_, by rw [encode, hpad]; exact MacUlSchSubpdu.unpack_of_padding hfr, ?_⟩
  show (_, _) = (s.lcid, s.payload)
  rw [h63]
  rfl

/-- A subPDU of LCID 53, 54 or 56: the parser takes its first octet for a CE
of size 0 and reads on from the octet after it. -/
theorem UlSubPdu.unpack_encode_misframed {s : UlSubPdu} (hl : s.lcid = 53 ∨ s.lcid = 54 ∨ s.lcid = 56)
    (rest : List UInt8) :
    ∃ p, MacUlSchSubpdu.unpack (s.encode ++ rest) = .ok (p, s.encode.tail ++ rest) ∧
      p.contents = (s.lcid, []) := by
  obtain ⟨-, hl₀, -, hl₁⟩ := subheader_octets (v := s.lcid) (by omega)
  obtain ⟨b, tail, henc, hb⟩ : ∃ b tail, s.encode = b :: tail ∧ b.toNat &&& 0x3f = s.lcid := by
    unfold UlSubPdu.encode
    split
    · split
      · exact ⟨_, _, rfl, hl₁⟩
      · exact ⟨_, _, rfl, hl₀⟩
    · exact ⟨_, _, rfl, hl₀⟩
  have hlcid := MacUlSchSubpdu.lcidOf_eq hb (by omega)
  have hfr : (MacUlSchSubpdu.lcidOf b).framing = .fixedSize 0 := by
    rw [hlcid]
    exact LcidUlSch.framing_misframed _ hl
  refine ⟨⟨MacUlSchSubpdu.lcidOf b, 1, decide (b.toNat &&& 0x40 > 0), []⟩, ?_, ?_⟩
  · rw [henc, List.cons_append, MacUlSchSubpdu.unpack_of_fixedSize hfr (Nat.zero_le _),
      List.take_zero, List.drop_zero, List.tail_cons]
  · show ((MacUlSchSubpdu.lcidOf b).value, []) = _
    rw [hlcid]

/-- The run over subPDUs that read back, from any list held and with any
octets after them, as long as the list does not fill up. -/
theorem unpackLoop_encodePdu_append {ss : List UlSubPdu} (hss : ∀ s ∈ ss, s.ReadsBack)
    (pre : List MacUlSchSubpdu) (hlen : pre.length + ss.length ≤ maxSubpdusPerPdu)
    (rest : List UInt8) :
    ∃ ps, unpackLoop pre (encodePdu ss ++ rest) = unpackLoop (pre ++ ps) rest ∧
      ps.map MacUlSchSubpdu.contents = ss.map UlSubPdu.contents := by
  induction ss generalizing pre with
  | nil => exact ⟨[], by simp, rfl⟩
  | cons s ss ih =>
    obtain ⟨hwf, hl, hpad⟩ := hss s List.mem_cons_self
    rw [List.length_cons] at hlen
    obtain ⟨p, first, hp⟩ := UlSubPdu.unpack_encode_append hwf hl hpad (encodePdu ss ++ rest)
    obtain ⟨ps, later, hps⟩ := ih (fun x hx => hss x (List.mem_cons_of_mem s hx)) (pre ++ [p])
      (by rw [List.length_append, List.length_singleton]; omega)
    refine ⟨p :: ps, ?_, by rw [List.map_cons, List.map_cons, hp, hps]⟩
    rw [encodePdu_cons, List.append_assoc, unpackLoop_of_unpack (by omega) first, later,
      List.append_assoc, List.singleton_append]

theorem length_eq_of_contents {ps : List MacUlSchSubpdu} {ss : List UlSubPdu}
    (h : ps.map MacUlSchSubpdu.contents = ss.map UlSubPdu.contents) : ps.length = ss.length := by
  simpa only [List.length_map] using congrArg List.length h

/-- A PDU laid out as the standard lays it out, of at most 4096 subPDUs and
none of LCID 53, 54 or 56, is read back exactly: the LCIDs and payloads in
order. -/
theorem unpack_encodePdu {ss : List UlSubPdu} (hss : FormedPdu ss)
    (hl : ∀ s ∈ ss, s.lcid ≠ 53 ∧ s.lcid ≠ 54 ∧ s.lcid ≠ 56) (hlen : ss.length ≤ maxSubpdusPerPdu) :
    ∃ ps, MacUlSchPdu.unpack ⟨[]⟩ (encodePdu ss) = (⟨ps⟩, .ok ()) ∧
      ps.map MacUlSchSubpdu.contents = ss.map UlSubPdu.contents := by
  obtain ⟨hwf, hpad⟩ := hss
  rw [MacUlSchPdu.unpack_eq]
  rcases List.eq_nil_or_concat ss with rfl | ⟨init, last, rfl⟩
  · exact ⟨[], by rw [encodePdu_nil, unpackLoop_of_isEmpty], rfl⟩
  rw [List.concat_eq_append, List.dropLast_concat] at *
  rw [List.length_append, List.length_singleton] at hlen
  have hlast : last ∈ init ++ [last] := List.mem_append_right _ List.mem_cons_self
  -- every subPDU but the last reads back; the last may be padding
  have hinit : ∀ s ∈ init, s.ReadsBack := fun s hs =>
    ⟨hwf s (List.mem_append_left _ hs), hl s (List.mem_append_left _ hs), hpad s hs⟩
  obtain ⟨ps, hrun, hps⟩ := unpackLoop_encodePdu_append hinit [] (by simp only [List.length_nil]; omega)
    last.encode
  have hfull : ps.length ≠ maxSubpdusPerPdu := by
    rw [length_eq_of_contents hps]
    omega
  rw [encodePdu_append, encodePdu_cons, encodePdu_nil, List.append_nil, hrun, List.nil_append]
  by_cases hp : ulFraming last.lcid = .padding
  · obtain ⟨p, hu, hpc⟩ := UlSubPdu.unpack_encode_padding hp
    refine ⟨ps ++ [p], ?_, by rw [List.map_append, List.map_append, hps, List.map_singleton,
      List.map_singleton, hpc]⟩
    rw [unpackLoop_of_unpack hfull hu, unpackLoop_of_isEmpty]
  · obtain ⟨p, hu, hpc⟩ := UlSubPdu.unpack_encode_append (hwf last hlast) (hl last hlast) hp []
    rw [List.append_nil] at hu
    refine ⟨ps ++ [p], ?_, by rw [List.map_append, List.map_append, hps, List.map_singleton,
      List.map_singleton, hpc]⟩
    rw [unpackLoop_of_unpack hfull hu, unpackLoop_of_isEmpty]

/-- A data subPDU with a short L field, then one with a long L field. -/
theorem unpack_encodePdu_two :
    ∃ ps, MacUlSchPdu.unpack ⟨[]⟩ (encodePdu [⟨4, false, [1, 2, 3]⟩, ⟨1, true, [7]⟩]) = (⟨ps⟩, .ok ()) ∧
      ps.map MacUlSchSubpdu.contents = [⟨4, false, [1, 2, 3]⟩, ⟨1, true, [7]⟩].map UlSubPdu.contents :=
  unpack_encodePdu ⟨by simp [UlSubPdu.WellFormed, ulFraming], by simp [ulFraming]⟩ (by decide) (by decide)

/-- Past 4096 subPDUs the parser stops and returns success with the first
4096: the rest of the PDU is neither read nor reported. -/
theorem unpack_encodePdu_truncates {ss : List UlSubPdu} (hss : FormedPdu ss)
    (hl : ∀ s ∈ ss, s.lcid ≠ 53 ∧ s.lcid ≠ 54 ∧ s.lcid ≠ 56) (hlen : maxSubpdusPerPdu < ss.length) :
    ∃ ps, MacUlSchPdu.unpack ⟨[]⟩ (encodePdu ss) = (⟨ps⟩, .ok ()) ∧
      ps.map MacUlSchSubpdu.contents = (ss.take maxSubpdusPerPdu).map UlSubPdu.contents := by
  obtain ⟨hwf, hpad⟩ := hss
  -- the first 4096 all come before the last, so none of them is padding
  have hhead : ∀ s ∈ ss.take maxSubpdusPerPdu, s.ReadsBack := fun s hs =>
    have hdrop : s ∈ ss.dropLast := by
      rw [List.dropLast_eq_take]
      exact List.take_subset_take_left _ (by omega) hs
    ⟨hwf s (List.mem_of_mem_take hs), hl s (List.mem_of_mem_take hs), hpad s hdrop⟩
  obtain ⟨ps, hrun, hps⟩ := unpackLoop_encodePdu_append hhead []
    (by rw [List.length_nil, List.length_take]; omega) (encodePdu (ss.drop maxSubpdusPerPdu))
  have hfull : ps.length = maxSubpdusPerPdu := by
    rw [length_eq_of_contents hps, List.length_take]
    omega
  refine ⟨ps, ?_, hps⟩
  rw [MacUlSchPdu.unpack_eq, ← List.take_append_drop maxSubpdusPerPdu ss, encodePdu_append, hrun,
    List.nil_append, unpackLoop_of_full _ hfull]

/-- 4097 empty data subPDUs of LCID 4: the last is left unread. -/
theorem unpack_encodePdu_truncates_4097 :
    ∃ ps, MacUlSchPdu.unpack ⟨[]⟩ (encodePdu (List.replicate 4097 ⟨4, false, []⟩)) = (⟨ps⟩, .ok ()) ∧
      ps.map MacUlSchSubpdu.contents =
        ((List.replicate 4097 ⟨4, false, []⟩).take maxSubpdusPerPdu).map UlSubPdu.contents :=
  unpack_encodePdu_truncates
    ⟨fun s hs => by obtain rfl := List.eq_of_mem_replicate hs; simp [UlSubPdu.WellFormed, ulFraming],
      fun s hs => by obtain rfl := List.eq_of_mem_replicate (List.dropLast_subset _ hs); simp [ulFraming]⟩
    (fun s hs => by obtain rfl := List.eq_of_mem_replicate hs; decide) (by rw [List.length_replicate]; decide)

/-- A subPDU of LCID 53, 54 or 56 with a payload, after subPDUs that read
back, puts the parser out of step: whatever follows it, the PDU is not read
back. -/
theorem unpack_misframes_ul_subpdu (good : List UlSubPdu) (s : UlSubPdu) (ss : List UlSubPdu)
    (hgood : ∀ x ∈ good, x.ReadsBack) (hlen : good.length < maxSubpdusPerPdu)
    (hl : s.lcid = 53 ∨ s.lcid = 54 ∨ s.lcid = 56) (hne : s.payload ≠ []) :
    ¬ ∃ ps, MacUlSchPdu.unpack ⟨[]⟩ (encodePdu (good ++ s :: ss)) = (⟨ps⟩, .ok ()) ∧
      ps.map MacUlSchSubpdu.contents = (good ++ s :: ss).map UlSubPdu.contents := by
  rintro ⟨ps, hrun, hmap⟩
  obtain ⟨qs, hgood', hqs⟩ := unpackLoop_encodePdu_append hgood [] (by rw [List.length_nil]; omega)
    (s.encode ++ encodePdu ss)
  obtain ⟨p, hp, hpc⟩ := UlSubPdu.unpack_encode_misframed hl (encodePdu ss)
  have hfull : qs.length ≠ maxSubpdusPerPdu := by
    rw [length_eq_of_contents hqs]
    omega
  have hloop : unpackLoop [] (encodePdu (good ++ s :: ss)) =
      unpackLoop (qs ++ [p]) (s.encode.tail ++ encodePdu ss) := by
    rw [encodePdu_append, encodePdu_cons, hgood', List.nil_append, unpackLoop_of_unpack hfull hp]
  have hres : unpackLoop [] (encodePdu (good ++ s :: ss)) = (ps, .ok ()) := by
    simp only [MacUlSchPdu.unpack_eq, Prod.mk.injEq, MacUlSchPdu.mk.injEq] at hrun
    exact Prod.ext hrun.1 hrun.2
  -- from the misframed subPDU on, the run ends as every run does
  have hout : UnpackOutcome (qs ++ [p]) (s.encode.tail ++ encodePdu ss)
      (unpackLoop (qs ++ [p]) (s.encode.tail ++ encodePdu ss)) :=
    unpackLoop_outcome _ _ (List.append_nil _).symm rfl
  rw [← hloop, hres] at hout
  obtain ⟨parsed, -, rfl, -⟩ := hout
  have hhead : p.contents = s.contents := by
    simp only [List.map_append, List.map_cons, hqs, List.append_assoc,
      List.cons_append, List.nil_append] at hmap
    exact (List.cons.inj (List.append_cancel_left hmap)).1
  rw [hpc] at hhead
  exact hne (congrArg Prod.snd hhead).symm

/-- The Recommended bit rate query CE 35 06 00 alone. -/
theorem unpack_misframes_bitRateQuery :
    encodePdu [⟨53, false, [0x06, 0x00]⟩] = [0x35, 0x06, 0x00] ∧
      (∀ x ∈ ([] : List UlSubPdu), x.ReadsBack) ∧ ([] : List UlSubPdu).length < maxSubpdusPerPdu ∧
      ((53 = 53 ∨ 53 = 54 ∨ 53 = 56) ∧ [(0x06 : UInt8), 0x00] ≠ []) ∧
      ¬ ∃ ps, MacUlSchPdu.unpack ⟨[]⟩ (encodePdu ([] ++ [⟨53, false, [0x06, 0x00]⟩] : List UlSubPdu)) =
          (⟨ps⟩, .ok ()) ∧
        ps.map MacUlSchSubpdu.contents =
          ([] ++ [⟨53, false, [0x06, 0x00]⟩] : List UlSubPdu).map UlSubPdu.contents :=
  ⟨by decide, by simp, by decide, ⟨by decide, by simp⟩,
    unpack_misframes_ul_subpdu [] ⟨53, false, [0x06, 0x00]⟩ [] (by simp) (by decide) (by decide) (by simp)⟩

end SrsRan.Mac
