import SrsRan.Rlc.UmPdu
import SrsRan.Rlc.RxAmSegments
import SrsRan.Support.SduWindow
import SrsRan.Lib.ModWindow
import SrsRan.Lib.Transition
import SrsRan.Lib.Fallible

/-!
The UM receiving entity (`rlc_rx_um_entity.cpp`, TS 38.322 5.2.2.2): its
state variables, the RX window of SDU infos, t-Reassembly, the reception of
data PDUs and the t-Reassembly expiry handler.

As for the AM receiver, the entity is a state machine over two events, a
PDU from the lower layer and the expiry of t-Reassembly, which reaches the
entity only while the timer runs; the SDUs passed to the upper layer are
logged in the state, and a failed assertion of the SDU window is the
`error` of a step. Full SDUs bypass the window. The segment set and its
`store_segment` loop are those of the AM receiver. The loops over SNs get
one round of fuel per SN of the SN space, which they never use up.
-/

namespace SrsRan.Rlc

/-- `rlc_rx_um_config`. -/
structure RlcRxUmConfig where
  snFieldLength : RlcUmSnSize
  tReassembly : Int

instance instNeZeroUmWindowSize (sz : RlcUmSnSize) : NeZero (windowSize sz.toNumber) :=
  ⟨by cases sz <;> decide⟩

/-- `rlc_rx_um_sdu_segment`, with the fields of the AM one. -/
abbrev RlcRxUmSduSegment := RlcRxAmSduSegment

/-- `rlc_rx_um_sdu_info`. -/
structure RlcRxUmSduInfo where
  fullyReceived : Bool := false
  hasGap : Bool := false
  segments : List RlcRxUmSduSegment := []
  deriving DecidableEq, Repr

/-- `rlc_rx_um_state`. -/
structure RlcRxUmState where
  rxNextReassembly : Nat
  rxTimerTrigger : Nat
  rxNextHighest : Nat
  deriving DecidableEq, Repr

/-- The RX window: an SDU window of `UM_Window_Size` slots. -/
abbrev RlcRxUmWindow (cfg : RlcRxUmConfig) :=
  SduWindow RlcRxUmSduInfo (windowSize cfg.snFieldLength.toNumber)

structure RlcRxUmEntity (cfg : RlcRxUmConfig) where
  st : RlcRxUmState
  rxWindow : RlcRxUmWindow cfg
  reassemblyTimerRunning : Bool
  /-- The SDUs passed to `upper_dn.on_new_sdu`, oldest first. -/
  delivered : List (List UInt8)

/-- The events of the receiver. -/
inductive RlcRxUmEvent
  | pdu (buf : List UInt8)
  | reassemblyTimerExpiry
  deriving DecidableEq, Repr

namespace RlcRxUmEntity

variable {cfg : RlcRxUmConfig}

/-- The SN modulus `mod`. -/
def mod (cfg : RlcRxUmConfig) : Nat := cardinality cfg.snFieldLength.toNumber

def umWindowSize (cfg : RlcRxUmConfig) : Nat := windowSize cfg.snFieldLength.toNumber

def create (cfg : RlcRxUmConfig) : RlcRxUmEntity cfg where
  st := ⟨0, 0, 0⟩
  rxWindow := CircularMap.empty
  reassemblyTimerRunning := false
  delivered := []

/-! ## SDU infos -/

/-- `store_segment`: the loop of the AM receiver over the segment set. -/
def storeSegment (info : RlcRxUmSduInfo) (new : RlcRxUmSduSegment) : Bool × RlcRxUmSduInfo :=
  match storeSegmentLoop [] new info.segments with
  | some segments => (true, { info with segments })
  | none => (false, info)

/-- `update_segment_inventory`. -/
def updateSegmentInventory (info : RlcRxUmSduInfo) : RlcRxUmSduInfo :=
  let (hasGap, fullyReceived) := segmentInventory 0 info.segments
  { info with hasGap, fullyReceived }

/-- `reassemble_sdu`; `none` for an SDU info not marked as fully received. -/
def reassembleSdu (info : RlcRxUmSduInfo) : Option (List UInt8) :=
  if !info.fullyReceived then none else some (info.segments.flatMap (·.payload))

/-! ## Window helpers -/

/-- `rx_mod_base`: `(x - RX_Next_Highest - UM_Window_Size) % mod`. -/
def rxModBase (e : RlcRxUmEntity cfg) (x : Nat) : Nat :=
  ModWindow.modBase (mod cfg) (e.st.rxNextHighest + umWindowSize cfg) x

/-- `RX_Next_Highest - UM_Window_Size`, computed in `uint32_t`. -/
def windowStart (e : RlcRxUmEntity cfg) : Nat :=
  (e.st.rxNextHighest + 2 ^ 32 - umWindowSize cfg) % 2 ^ 32

/-- `sn_in_reassembly_window`. -/
def snInReassemblyWindow (e : RlcRxUmEntity cfg) (sn : Nat) : Bool :=
  e.rxModBase e.windowStart ≤ e.rxModBase sn && e.rxModBase sn < e.rxModBase e.st.rxNextHighest

/-- `sn_invalid_for_rx_buffer`. -/
def snInvalidForRxBuffer (e : RlcRxUmEntity cfg) (sn : Nat) : Bool :=
  e.rxModBase e.windowStart ≤ e.rxModBase sn && e.rxModBase sn < e.rxModBase e.st.rxNextReassembly

def hasSn (e : RlcRxUmEntity cfg) (sn : Nat) : Bool := e.rxWindow.hasSn sn

/-- `rx_window->has_sn(sn) && (*rx_window)[sn].fully_received`. -/
def fullyReceivedAt (e : RlcRxUmEntity cfg) (sn : Nat) : Bool :=
  match CircularMap.get? e.rxWindow sn with
  | some info => info.fullyReceived
  | none => false

/-- `rx_window->has_sn(sn) && (*rx_window)[sn].has_gap`. -/
def hasGapAt (e : RlcRxUmEntity cfg) (sn : Nat) : Bool :=
  match CircularMap.get? e.rxWindow sn with
  | some info => info.hasGap
  | none => false

def sduAt (e : RlcRxUmEntity cfg) (sn : Nat) : Except SduWindowAssertion RlcRxUmSduInfo :=
  e.rxWindow.get sn

def setSdu (e : RlcRxUmEntity cfg) (sn : Nat) (info : RlcRxUmSduInfo) :
    Except SduWindowAssertion (RlcRxUmEntity cfg) :=
  (e.rxWindow.set sn info).map fun w => { e with rxWindow := w }

def removeSdu (e : RlcRxUmEntity cfg) (sn : Nat) : Except SduWindowAssertion (RlcRxUmEntity cfg) :=
  (e.rxWindow.removeSn sn).map fun w => { e with rxWindow := w }

/-! ## Receiving PDUs -/

/-- `handle_segment_data_sdu`: the SDU info of the SN, added when absent,
gets the segment and a fresh inventory; the result says whether the
segment was stored. -/
def handleSegmentDataSdu (e : RlcRxUmEntity cfg) (header : RlcUmPduHeader)
    (payload : List UInt8) : Except SduWindowAssertion (RlcRxUmEntity cfg × Bool) := do
  if header.si = .fullSdu then return (e, false)
  let e ← if e.hasSn header.sn then pure e
    else (e.rxWindow.addSn header.sn {}).map fun w => { e with rxWindow := w }
  let info ← e.sduAt header.sn
  let (stored, info) := storeSegment info { si := header.si, so := header.so, payload }
  let e ← e.setSdu header.sn (updateSegmentInventory info)
  return (e, stored)

/-- The loop that moves `RX_Next_Reassembly`: from `sn`, step over the
fully received SDUs before `RX_Next_Highest`, removing each. -/
def advanceReassembly (e : RlcRxUmEntity cfg) : Nat → Nat →
    Except SduWindowAssertion (RlcRxUmEntity cfg × Nat)
  | 0, sn => .ok (e, sn)
  | fuel + 1, sn =>
    if e.rxModBase sn < e.rxModBase e.st.rxNextHighest ∧ e.fullyReceivedAt sn then do
      let e ← e.removeSdu sn
      e.advanceReassembly fuel ((sn + 1) % mod cfg)
    else .ok (e, sn)

/-- The loop that discards the SDUs that fell out of the reassembly window,
from `sn` up to the first SN inside it. -/
def discardOutside (e : RlcRxUmEntity cfg) : Nat → Nat →
    Except SduWindowAssertion (RlcRxUmEntity cfg × Nat)
  | 0, sn => .ok (e, sn)
  | fuel + 1, sn =>
    if !e.snInReassemblyWindow sn then do
      let e ← if e.hasSn sn then e.removeSdu sn else pure e
      e.discardOutside fuel ((sn + 1) % mod cfg)
    else .ok (e, sn)

/-- The actions once all bytes of the SDU `sn` are received: deliver it,
free its segments (keeping `fully_received`), and move
`RX_Next_Reassembly` when `sn` is where it stands. -/
def deliverSdu (e : RlcRxUmEntity cfg) (sn : Nat) : Except SduWindowAssertion (RlcRxUmEntity cfg) := do
  let info ← e.sduAt sn
  let e := match reassembleSdu info with
    | some sdu => { e with delivered := e.delivered ++ [sdu] }
    | none => e
  let e ← e.setSdu sn { info with segments := [] }
  if sn = e.st.rxNextReassembly then
    let (e, snUpd) ← e.advanceReassembly (mod cfg) (e.st.rxNextReassembly % mod cfg)
    return { e with st.rxNextReassembly := snUpd }
  else return e

/-- The actions for an SN past the reassembly window: move `RX_Next_Highest`
to `sn + 1`, discard what fell out of the window, and move
`RX_Next_Reassembly` to the first SDU not yet delivered. -/
def moveWindow (e : RlcRxUmEntity cfg) (sn : Nat) : Except SduWindowAssertion (RlcRxUmEntity cfg) := do
  let e := { e with st.rxNextHighest := (sn + 1) % mod cfg }
  let (e, snUpd) ← e.discardOutside (mod cfg) (e.st.rxNextReassembly % mod cfg)
  let (e, snUpd) ← e.advanceReassembly (mod cfg) snUpd
  return { e with st.rxNextReassembly := snUpd }

/-- Start t-Reassembly when `RX_Next_Highest` is more than one SN past
`RX_Next_Reassembly`, or one SN past it with a gap in the SDU looked up,
which is the one at `RX_Next_Highest`. -/
def startReassemblyTimerIfMissing (e : RlcRxUmEntity cfg) : RlcRxUmEntity cfg :=
  let restart := decide (e.rxModBase e.st.rxNextHighest > e.rxModBase (e.st.rxNextReassembly + 1)) ||
    (decide (e.rxModBase e.st.rxNextHighest = e.rxModBase (e.st.rxNextReassembly + 1)) &&
      e.hasGapAt e.st.rxNextHighest)
  if restart then { e with reassemblyTimerRunning := true, st.rxTimerTrigger := e.st.rxNextHighest }
  else e

/-- The t-Reassembly actions at the end of `handle_pdu`: stop it on the
three conditions of the code, then start it when SDUs are still missing. -/
def updateReassemblyTimer (e : RlcRxUmEntity cfg) : RlcRxUmEntity cfg :=
  let e := if e.reassemblyTimerRunning then
      -- the first condition compares the plain SNs, and the third reads the
      -- SDU at RX_Next_Highest
      let stop := decide (e.st.rxTimerTrigger ≤ e.st.rxNextReassembly) ||
        (!e.snInReassemblyWindow e.st.rxTimerTrigger && e.st.rxTimerTrigger != e.st.rxNextHighest) ||
        (e.st.rxNextHighest == e.st.rxNextReassembly + 1 && e.hasSn e.st.rxNextHighest &&
          !e.hasGapAt e.st.rxNextHighest)
      if stop then { e with reassemblyTimerRunning := false } else e
    else e
  if !e.reassemblyTimerRunning then e.startReassemblyTimerIfMissing else e

/-- `handle_pdu`. -/
def handlePdu (e : RlcRxUmEntity cfg) (buf : List UInt8) :
    Except SduWindowAssertion (RlcRxUmEntity cfg) := do
  let some header := rlcUmReadDataPduHeader buf cfg.snFieldLength | return e
  let headerLen := rlcUmNrPackedLength header
  if buf.length ≤ headerLen then return e
  let payload := buf.drop headerLen
  if header.si = .fullSdu then return { e with delivered := e.delivered ++ [payload] }
  if e.snInvalidForRxBuffer header.sn then return e
  let (e, _) ← e.handleSegmentDataSdu header payload
  let e ← if e.fullyReceivedAt header.sn then e.deliverSdu header.sn
    else if !e.snInReassemblyWindow header.sn then e.moveWindow header.sn
    else pure e
  return e.updateReassemblyTimer

/-! ## t-Reassembly expiry -/

/-- The loop of `on_expired_reassembly_timer`: from `sn` up to
`RX_Next_Highest`, remove every SDU before `RX_Timer_Trigger`, and past it
step over the fully received ones, removing each. -/
def expireLoop (e : RlcRxUmEntity cfg) : Nat → Nat →
    Except SduWindowAssertion (RlcRxUmEntity cfg × Nat)
  | 0, sn => .ok (e, sn)
  | fuel + 1, sn =>
    if e.rxModBase sn < e.rxModBase e.st.rxNextHighest then
      if e.rxModBase sn < e.rxModBase e.st.rxTimerTrigger then do
        let e ← if e.hasSn sn then e.removeSdu sn else pure e
        e.expireLoop fuel ((sn + 1) % mod cfg)
      else if e.fullyReceivedAt sn then do
        let e ← e.removeSdu sn
        e.expireLoop fuel ((sn + 1) % mod cfg)
      else .ok (e, sn)
    else .ok (e, sn)

/-- `on_expired_reassembly_timer`. -/
def onExpiredReassemblyTimer (e : RlcRxUmEntity cfg) :
    Except SduWindowAssertion (RlcRxUmEntity cfg) := do
  let (e, snUpd) ← e.expireLoop (mod cfg) e.st.rxNextReassembly
  let e := { e with st.rxNextReassembly := snUpd }
  return e.startReassemblyTimerIfMissing

/-- One event. t-Reassembly expires only while it runs, and its callback
exists only when `t_reassembly > 0`. -/
def step (e : RlcRxUmEntity cfg) : RlcRxUmEvent → Except SduWindowAssertion (RlcRxUmEntity cfg)
  | .pdu buf => e.handlePdu buf
  | .reassemblyTimerExpiry =>
    if e.reassemblyTimerRunning then
      let e := { e with reassemblyTimerRunning := false }
      if cfg.tReassembly > 0 then e.onExpiredReassemblyTimer else .ok e
    else .ok e

/-- The entity states some run of events reaches from creation. -/
def Reachable (cfg : RlcRxUmConfig) : RlcRxUmEntity cfg → Prop :=
  Transition.Reachable step (create cfg)

/-! ## t-Reassembly against TS 38.322 -/

/-- The start condition of t-Reassembly in TS 38.322 5.2.2.2.3, in the
order based on `RX_Next_Highest - UM_Window_Size`: `RX_Next_Highest >
RX_Next_Reassembly + 1`, or `RX_Next_Highest = RX_Next_Reassembly + 1` and
the SDU `RX_Next_Reassembly` misses a byte segment. -/
def specStartsReassemblyTimer (e : RlcRxUmEntity cfg) : Bool :=
  decide (e.rxModBase e.st.rxNextHighest > e.rxModBase (e.st.rxNextReassembly + 1)) ||
    (decide (e.rxModBase e.st.rxNextHighest = e.rxModBase (e.st.rxNextReassembly + 1)) &&
      e.hasGapAt e.st.rxNextReassembly)

/-- The code starts t-Reassembly as the specification does, except that it
looks for the missing byte segment in the SDU at `RX_Next_Highest`: with
`RX_Next_Highest = RX_Next_Reassembly + 1`, a gap in the SDU
`RX_Next_Reassembly` and none at `RX_Next_Highest`, the specification
starts the timer and the code leaves the entity as it is. -/
theorem startReassemblyTimerIfMissing_of_gap_below (e : RlcRxUmEntity cfg)
    (hnext : e.rxModBase e.st.rxNextHighest = e.rxModBase (e.st.rxNextReassembly + 1))
    (hgap : e.hasGapAt e.st.rxNextReassembly = true) (hnone : e.hasGapAt e.st.rxNextHighest = false) :
    e.specStartsReassemblyTimer = true ∧ e.startReassemblyTimerIfMissing = e := by
  constructor
  · simp [specStartsReassemblyTimer, hnext, hgap]
  · simp [startReassemblyTimerIfMissing, hnext, hnone]

/-- With 6-bit SNs, a lone middle segment of SN 0 at SO 5 (`C0 00 05 55`)
moves `RX_Next_Highest` to 1 and leaves SDU 0 with a gap: the
specification starts t-Reassembly, while the code looks for the gap in
SDU 1, which is absent, and leaves the timer stopped. -/
theorem handlePdu_leaves_reassembly_timer_stopped :
    let cfg : RlcRxUmConfig := ⟨.size6bits, 35⟩
    ∃ e : RlcRxUmEntity cfg, (create cfg).step (.pdu [0xC0, 0x00, 0x05, 0x55]) = .ok e ∧
      e.st.rxNextHighest = 1 ∧ e.st.rxNextReassembly = 0 ∧ e.hasGapAt 0 = true ∧
      e.specStartsReassemblyTimer = true ∧ e.reassemblyTimerRunning = false := by
  intro cfg
  obtain ⟨e, hstep, hfacts⟩ := Fallible.exists_ok_of_toOption_map
    (show ((create cfg).step (.pdu [0xC0, 0x00, 0x05, 0x55])).toOption.map (fun e =>
        (e.st.rxNextHighest, e.st.rxNextReassembly, e.hasGapAt 0, e.specStartsReassemblyTimer,
          e.reassemblyTimerRunning)) = some (1, 0, true, true, false) by decide +kernel)
  simp only [Prod.mk.injEq] at hfacts
  obtain ⟨hh, hr, hgap, hspec, hrun⟩ := hfacts
  exact ⟨e, hstep, hh, hr, hgap, hspec, hrun⟩

/-! ## The RX window against TS 38.322 -/

/-- With 6-bit SNs, `85 00 00 CC` is a last segment of SN 5 at SO 0, so it
carries a whole SDU; the header is taken as one octet long, the SO being 0.
At creation (`RX_Next_Highest = 0`) SN 5 lies past the reassembly window
`[32, 64)` and is not below `RX_Next_Reassembly`: the SDU is delivered and
stays in the RX window, outside the reassembly window, and a second copy of
the PDU delivers it again. -/
theorem handlePdu_redelivers_sdu_outside_window :
    let cfg : RlcRxUmConfig := ⟨.size6bits, 35⟩
    let pdu : List UInt8 := [0x85, 0x00, 0x00, 0xCC]
    (rlcUmReadDataPduHeader pdu .size6bits).map RlcUmPduHeader.sn = some 5 ∧
    ∃ e e' : RlcRxUmEntity cfg, (create cfg).step (.pdu pdu) = .ok e ∧
      e.st.rxNextHighest = 0 ∧ e.hasSn 5 = true ∧ e.snInReassemblyWindow 5 = false ∧
      e.delivered = [[0x00, 0x00, 0xCC]] ∧
      e.step (.pdu pdu) = .ok e' ∧ e'.delivered = [[0x00, 0x00, 0xCC], [0x00, 0x00, 0xCC]] := by
  intro cfg pdu
  obtain ⟨e, hstep, hfacts⟩ := Fallible.exists_ok_of_toOption_map
    (show ((create cfg).step (.pdu pdu)).toOption.map (fun e : RlcRxUmEntity cfg =>
        ((e.st.rxNextHighest, e.hasSn 5, e.snInReassemblyWindow 5),
          e.delivered, (e.step (.pdu pdu)).toOption.map RlcRxUmEntity.delivered)) =
      some ((0, true, false), [[0x00, 0x00, 0xCC]], some [[0x00, 0x00, 0xCC], [0x00, 0x00, 0xCC]])
      by decide +kernel)
  simp only [Prod.mk.injEq] at hfacts
  obtain ⟨⟨hh, hsn, hout⟩, hdel, hagain⟩ := hfacts
  obtain ⟨e', hstep', hdel'⟩ := Fallible.exists_ok_of_toOption_map hagain
  exact ⟨by decide, e, e', hstep, hh, hsn, hout, hdel, hstep', hdel'⟩

end RlcRxUmEntity

end SrsRan.Rlc
