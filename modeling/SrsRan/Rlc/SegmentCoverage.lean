import SrsRan.Rlc.RxAmSegments

/-!
What a segment set holds (`segmentsCover`, the byte offsets of its
segments) and two inputs on which `store_segment` and
`update_segment_inventory` leave it in a state the SDU's bytes do not
justify. The `uint16_t` SO of a segment trimmed to start past offset 65535
wraps (`storeSegment_trim_wraps`). The inventory stops at the first last
segment that follows a gap-free run from offset 0, so segments beyond it
neither count as a gap nor stay out of the reassembled SDU
(`segmentInventory_of_contiguous_last`).
-/

namespace SrsRan.Rlc

namespace RlcRxAmSduSegment

/-- The byte offsets a segment holds. -/
def Holds (seg : RlcRxAmSduSegment) (off : Nat) : Prop :=
  seg.so.toNat ≤ off ∧ off < seg.so.toNat + seg.payload.length

end RlcRxAmSduSegment

/-- The byte offsets a segment set holds. -/
def segmentsCover (segments : List RlcRxAmSduSegment) : Set Nat :=
  {off | ∃ seg ∈ segments, seg.Holds off}

/-- The segments of an SDU info, none for a slice. -/
def RlcRxAmSduInfo.segments (info : RlcRxAmSduInfo) : List RlcRxAmSduSegment :=
  match info.sduData with
  | .segmentSet segments => segments
  | .slice _ => []

/-! ## `store_segment` -/

/-- A segment reaching past offset 65535 trims a later one to start there,
and the SO of the trimmed segment wraps: after a first segment of 70000
octets, a middle one of 10000 octets at 65000 is kept from its 5000th octet
on, at SO `70000 - 65536 = 4464`. -/
theorem storeSegment_trim_wraps (p q : List UInt8) (hp : p.length = 70000) (hq : q.length = 10000) :
    storeSegment { sduData := .segmentSet [⟨.firstSegment, 0, p⟩] } ⟨.middleSegment, 65000, q⟩ =
      (true, { sduData := .segmentSet [⟨.firstSegment, 0, p⟩, ⟨.middleSegment, 4464, q.drop 5000⟩] }) := by
  simp [storeSegment, storeSegmentLoop, insertSegment, RlcRxAmSduSegment.lastByte,
    RlcRxAmSduSegment.advance, hp, hq]

/-- With payloads of those lengths, the set `store_segment` leaves holds
offsets 4464 to 9463 twice and no longer holds offset 70000. -/
theorem storeSegment_wraps_trimmed_so :
    let old : RlcRxAmSduSegment := ⟨.firstSegment, 0, List.replicate 70000 1⟩
    let new : RlcRxAmSduSegment := ⟨.middleSegment, 65000, List.replicate 10000 2⟩
    let trimmed : RlcRxAmSduSegment := ⟨.middleSegment, 4464, List.replicate 5000 2⟩
    storeSegment { sduData := .segmentSet [old] } new =
        (true, { sduData := .segmentSet [old, trimmed] }) ∧
      70000 ∈ segmentsCover [old] ∪ segmentsCover [new] ∧ 70000 ∉ segmentsCover [old, trimmed] := by
  intro old new trimmed
  have hnew : new.Holds 70000 := by
    simp only [RlcRxAmSduSegment.Holds, new, List.length_replicate]
    decide
  refine ⟨?_, .inr ⟨new, List.mem_singleton_self _, hnew⟩, ?_⟩
  · rw [storeSegment_trim_wraps _ _ List.length_replicate List.length_replicate, List.drop_replicate]
  · rintro ⟨seg, hseg, hlo, hhi⟩
    simp only [List.mem_cons, List.not_mem_nil, or_false] at hseg
    rcases hseg with rfl | rfl
    · simp only [old, List.length_replicate, UInt16.toNat_zero] at hhi
      omega
    · simp only [trimmed, List.length_replicate] at hhi
      revert hhi
      decide

/-! ## `update_segment_inventory` -/

/-- Segments that run from `nextByte` without a gap and without a last
segment. -/
def ContiguousFrom : Nat → List RlcRxAmSduSegment → Prop
  | _, [] => True
  | nextByte, seg :: rest =>
    seg.so.toNat = nextByte ∧ seg.si ≠ .lastSegment ∧
      ContiguousFrom (nextByte + seg.payload.length) rest

/-- The octets of a list of segments. -/
def payloadLength (segments : List RlcRxAmSduSegment) : Nat :=
  (segments.map fun seg => seg.payload.length).sum

/-- Segments without a gap from `nextByte` up to a last segment make the
inventory report the SDU complete and without gap, whatever segments follow
the last one. -/
theorem segmentInventory_of_contiguous_last {nextByte : Nat} (pre : List RlcRxAmSduSegment)
    (seg : RlcRxAmSduSegment) (rest : List RlcRxAmSduSegment) (hpre : ContiguousFrom nextByte pre)
    (hso : seg.so.toNat = nextByte + payloadLength pre) (hlast : seg.si = .lastSegment) :
    segmentInventory nextByte (pre ++ seg :: rest) = (false, true) := by
  induction pre generalizing nextByte with
  | nil =>
    simp only [payloadLength, List.map_nil, List.sum_nil, Nat.add_zero] at hso
    simp [segmentInventory, hso, hlast]
  | cons first pre ih =>
    obtain ⟨hfirst, hnotLast, hrest⟩ := hpre
    have hso' : seg.so.toNat = nextByte + first.payload.length + payloadLength pre := by
      simp only [payloadLength, List.map_cons, List.sum_cons] at hso
      simp only [payloadLength]
      omega
    simp only [List.cons_append, segmentInventory, hfirst, ne_eq, not_true_eq_false, ↓reduceIte,
      hnotLast]
    exact ih hrest hso'

/-- A first segment of 10 octets, a last one of 5 at offset 10 and a middle
one of 3 at offset 20: octets 15 to 19 are missing and octet 20 is
received, yet the inventory finds no gap and the SDU complete, and the SDU
put together has the 18 octets of all three segments, where the last
segment ends at offset 15. -/
theorem segmentInventory_ignores_segment_past_last :
    let segments : List RlcRxAmSduSegment := [⟨.firstSegment, 0, List.replicate 10 1⟩,
      ⟨.lastSegment, 10, List.replicate 5 2⟩, ⟨.middleSegment, 20, List.replicate 3 3⟩]
    let info : RlcRxAmSduInfo := { sduData := .segmentSet segments }
    ∃ info', updateSegmentInventory info = some info' ∧ info'.hasGap = false ∧
      info'.fullyReceived = true ∧ 20 ∈ segmentsCover info'.segments ∧
      15 ∉ segmentsCover info'.segments ∧ (reassembleSdu info').map List.length = some 18 := by
  intro segments info
  -- `segments` is the first segment, then the last one, then one past it
  have hinv : segmentInventory 0 ([⟨.firstSegment, 0, List.replicate 10 1⟩] ++
      ⟨.lastSegment, 10, List.replicate 5 2⟩ :: [⟨.middleSegment, 20, List.replicate 3 3⟩]) =
        (false, true) :=
    segmentInventory_of_contiguous_last _ _ _ ⟨rfl, by decide, trivial⟩ rfl rfl
  refine ⟨{ info with hasGap := false, fullyReceived := true }, ?_, rfl, rfl, ?_, ?_, rfl⟩
  · simp only [updateSegmentInventory, info]
    rw [show segments = [⟨.firstSegment, 0, List.replicate 10 1⟩] ++
        ⟨.lastSegment, 10, List.replicate 5 2⟩ :: [⟨.middleSegment, 20, List.replicate 3 3⟩] from rfl,
      hinv]
  · exact ⟨⟨.middleSegment, 20, List.replicate 3 3⟩, by simp [info, segments, RlcRxAmSduInfo.segments], by decide,
      by decide⟩
  · rintro ⟨seg, hseg, hlo, hhi⟩
    simp only [info, segments, RlcRxAmSduInfo.segments, List.mem_cons, List.not_mem_nil, or_false] at hseg
    rcases hseg with rfl | rfl | rfl <;> simp at hlo hhi

end SrsRan.Rlc
