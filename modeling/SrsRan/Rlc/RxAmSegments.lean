import SrsRan.Rlc.AmPdu

/-!
What the AM receiver keeps per SN (`rlc_rx_am_sdu_info`): a full SDU or a
set of SDU segments ordered by SO, with the flags `fully_received` and
`has_gap`. `store_segment` inserts a received segment, trimming it and its
neighbours so that no byte is kept twice; `update_segment_inventory`
recomputes the flags; `reassemble_sdu` concatenates the payloads.

Payloads are octet lists. The segment set is the list of its elements in
SO order, and inserting into it places a segment at its SO and drops it
when a segment of the same SO is there, as `std::set::insert` does.
Segment offsets keep their `uint16_t` type, so a trimmed SO past 65535
wraps as in the source. A segment is never empty: the receiver drops PDUs
without payload and every trim keeps at least one octet.
-/

namespace SrsRan.Rlc

/-- `rlc_rx_am_sdu_segment`. -/
structure RlcRxAmSduSegment where
  si : RlcSiField
  so : UInt16
  payload : List UInt8
  deriving DecidableEq, Repr

/-- The alternatives of `rlc_rx_am_sdu_info::sdu_data`. -/
inductive RlcRxAmSduData
  | slice (payload : List UInt8)
  | segmentSet (segments : List RlcRxAmSduSegment)
  deriving DecidableEq, Repr

/-- `rlc_rx_am_sdu_info`; a default-constructed one holds an empty slice. -/
structure RlcRxAmSduInfo where
  fullyReceived : Bool := false
  hasGap : Bool := false
  sduData : RlcRxAmSduData := .slice []
  deriving DecidableEq, Repr

namespace RlcRxAmSduSegment

/-- `so + payload.length() - 1`, the offset of the last octet. -/
def lastByte (seg : RlcRxAmSduSegment) : Nat := seg.so.toNat + seg.payload.length - 1

/-- `payload.advance(n); so = new_so`. -/
def advance (seg : RlcRxAmSduSegment) (n newSo : Nat) : RlcRxAmSduSegment :=
  { seg with payload := seg.payload.drop n, so := UInt16.ofNat newSo }

end RlcRxAmSduSegment

/-- `std::set::insert` into the segment set, ordered by SO. -/
def insertSegment (seg : RlcRxAmSduSegment) : List RlcRxAmSduSegment → List RlcRxAmSduSegment
  | [] => [seg]
  | cur :: rest =>
    if seg.so < cur.so then seg :: cur :: rest
    else if seg.so = cur.so then cur :: rest
    else cur :: insertSegment seg rest

/-- The loop of `store_segment`: `passed` holds the segments already
stepped over (last first), `cur :: rest` those still to visit. The result
is the new segment set, or `none` when the new segment is discarded. -/
def storeSegmentLoop (passed : List RlcRxAmSduSegment) (new : RlcRxAmSduSegment) :
    List RlcRxAmSduSegment → Option (List RlcRxAmSduSegment)
  | [] => some (insertSegment new passed.reverse)
  | cur :: rest =>
    if new.so.toNat > cur.lastByte then
      -- new segment starts after the end of the current one
      storeSegmentLoop (cur :: passed) new rest
    else if new.so.toNat ≥ cur.so.toNat then
      if new.lastByte ≤ cur.lastByte then none
      else
        -- trim the front of the new segment
        storeSegmentLoop (cur :: passed)
          (new.advance (cur.lastByte + 1 - new.so.toNat) (cur.lastByte + 1)) rest
    else if new.lastByte < cur.so.toNat then
      some (insertSegment new (passed.reverse ++ cur :: rest))
    else if new.lastByte < cur.lastByte then
      -- trim the front of the current segment, then insert both
      let cut := cur.advance (new.lastByte + 1 - cur.so.toNat) (new.lastByte + 1)
      some (insertSegment new (insertSegment cut (passed.reverse ++ rest)))
    else
      -- the new segment covers the current one, which is erased
      storeSegmentLoop passed new rest

/-- `store_segment`: whether the segment was kept, and the SDU info. An SDU
info without a segment set first gets an empty one. -/
def storeSegment (info : RlcRxAmSduInfo) (new : RlcRxAmSduSegment) : Bool × RlcRxAmSduInfo :=
  let segments := match info.sduData with
    | .segmentSet segments => segments
    | .slice _ => []
  match storeSegmentLoop [] new segments with
  | some segments' => (true, { info with sduData := .segmentSet segments' })
  | none => (false, { info with sduData := .segmentSet segments })

/-- The loop of `update_segment_inventory`: `(has_gap, fully_received)`
from the offset the next segment should start at. -/
def segmentInventory (nextByte : Nat) : List RlcRxAmSduSegment → Bool × Bool
  | [] => (false, false)
  | segm :: rest =>
    if segm.so.toNat ≠ nextByte then (true, false)
    else if segm.si = .lastSegment then (false, true)
    else segmentInventory (nextByte + segm.payload.length) rest

/-- `update_segment_inventory`; `none` is its assertion that the SDU info
holds a segment set. -/
def updateSegmentInventory (info : RlcRxAmSduInfo) : Option RlcRxAmSduInfo :=
  match info.sduData with
  | .segmentSet segments =>
    let (hasGap, fullyReceived) := segmentInventory 0 segments
    some { info with hasGap, fullyReceived }
  | .slice _ => none

/-- `reassemble_sdu`: the SDU of a fully received SDU info; `none` is the
logged error for an SDU info not marked as fully received. -/
def reassembleSdu (info : RlcRxAmSduInfo) : Option (List UInt8) :=
  if !info.fullyReceived then none
  else
    match info.sduData with
    | .slice payload => some payload
    | .segmentSet segments => some (segments.flatMap (·.payload))

/-! ## What the inventory keeps -/

theorem updateSegmentInventory_sduData {info info' : RlcRxAmSduInfo}
    (h : updateSegmentInventory info = some info') : info'.sduData = info.sduData := by
  unfold updateSegmentInventory at h
  split at h
  · cases h
    rfl
  · cases h

theorem storeSegment_sduData (info : RlcRxAmSduInfo) (new : RlcRxAmSduSegment) :
    ∃ segments, (storeSegment info new).2.sduData = .segmentSet segments := by
  simp only [storeSegment]
  split <;> exact ⟨_, rfl⟩

/-- After `store_segment`, the inventory's assertion holds. -/
theorem updateSegmentInventory_storeSegment_isSome (info : RlcRxAmSduInfo)
    (new : RlcRxAmSduSegment) : (updateSegmentInventory (storeSegment info new).2).isSome := by
  obtain ⟨segments, h⟩ := storeSegment_sduData info new
  simp [updateSegmentInventory, h]

end SrsRan.Rlc
