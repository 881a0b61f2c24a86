import SrsRan.Rlc.StatusPdu
import SrsRan.Rlc.RxAmSegments
import SrsRan.Support.SduWindow
import SrsRan.Lib.ModWindow
import SrsRan.Lib.Transition

/-!
The AM receiving entity (`rlc_rx_am_entity.cpp`, TS 38.322 5.2.3.2): its
state variables, the RX window of SDU infos, t-Reassembly, the reception of
data and control PDUs, the t-Reassembly expiry handler and the status
report it builds.

The entity is a state machine over two events: a PDU from the lower layer
(`handle_pdu`) and the expiry of t-Reassembly. The timer's callback runs
only while the timer runs: the timer manager drops an expiry whose epoch a
later `run` or `stop` has overtaken. The SDUs passed to the upper layer and
the status PDUs passed to the transmitting entity are logged in the state.
A failed `srsran_assert` is the `error` of a step. The loops over SNs get
one round of fuel per SN of the SN space, which they never use up.
-/

namespace SrsRan.Rlc

/-- `rlc_rx_am_config`, without the status-prohibit timer. -/
structure RlcRxAmConfig where
  snFieldLength : RlcAmSnSize
  tReassembly : Int
  maxSnPerStatus : Option Nat
  /-- The constructor's checks on `max_sn_per_status`. -/
  maxSnPerStatus_valid : ∀ v, maxSnPerStatus = some v →
    0 < v ∧ v ≤ windowSize snFieldLength.toNumber

instance (sz : RlcAmSnSize) : NeZero (windowSize sz.toNumber) := ⟨(windowSize_pos sz).ne'⟩

/-- `rlc_rx_am_state`. -/
structure RlcRxAmState where
  rxNext : Nat
  rxNextStatusTrigger : Nat
  rxHighestStatus : Nat
  rxNextHighest : Nat
  deriving DecidableEq, Repr

/-- The assertions of the receiver. -/
inductive RlcRxAmAssertion
  | window (a : SduWindowAssertion)
  /-- "Invalid sdu_data variant ..." in `update_segment_inventory` and
  `refresh_status_report`. -/
  | invalidSduDataVariant (sn : Nat)
  /-- "Invalid segment offsets in nack={} ..." in `refresh_status_report`. -/
  | invalidSegmentOffsets (sn : Nat)
  /-- "Error: rx_highest_status={} outside RX window." -/
  | rxHighestStatusOutsideWindow (sn : Nat)
  deriving DecidableEq, Repr

/-- The RX window: an SDU window of `AM_Window_Size` slots. -/
abbrev RlcRxAmWindow (cfg : RlcRxAmConfig) :=
  SduWindow RlcRxAmSduInfo (windowSize cfg.snFieldLength.toNumber)

structure RlcRxAmEntity (cfg : RlcRxAmConfig) where
  st : RlcRxAmState
  rxWindow : RlcRxAmWindow cfg
  reassemblyTimerRunning : Bool
  doStatus : Bool
  statusCached : RlcAmStatusPdu
  /-- The SDUs passed to `upper_dn.on_new_sdu`, oldest first. -/
  delivered : List (List UInt8)
  /-- The status PDUs passed to `status_handler->on_status_pdu`, oldest first. -/
  statusToTx : List RlcAmStatusPdu

/-- The events of the receiver. -/
inductive RlcRxAmEvent
  | pdu (buf : List UInt8)
  | reassemblyTimerExpiry
  deriving DecidableEq, Repr

namespace RlcRxAmEntity

variable {cfg : RlcRxAmConfig}

/-- The SN modulus `mod`. -/
def mod (cfg : RlcRxAmConfig) : Nat := cardinality cfg.snFieldLength.toNumber

def amWindowSize (cfg : RlcRxAmConfig) : Nat := windowSize cfg.snFieldLength.toNumber

def maxNofSnPerStatusReport (cfg : RlcRxAmConfig) : Nat :=
  cfg.maxSnPerStatus.getD (windowSize cfg.snFieldLength.toNumber)

/-- The entity as constructed: all state variables 0, the window empty, and
the cached status report acknowledging `RX_Next_Highest`. -/
def create (cfg : RlcRxAmConfig) : RlcRxAmEntity cfg where
  st := ⟨0, 0, 0, 0⟩
  rxWindow := CircularMap.empty
  reassemblyTimerRunning := false
  doStatus := false
  statusCached := { RlcAmStatusPdu.init cfg.snFieldLength with ackSn := 0 }
  delivered := []
  statusToTx := []

/-! ## Window helpers -/

/-- `rx_mod_base`: `(sn - RX_Next) % mod`. -/
def rxModBase (e : RlcRxAmEntity cfg) (sn : Nat) : Nat := ModWindow.modBase (mod cfg) e.st.rxNext sn

/-- `RX_Next <= SN < RX_Next + AM_Window_Size`. -/
def insideRxWindow (e : RlcRxAmEntity cfg) (sn : Nat) : Bool := e.rxModBase sn < amWindowSize cfg

/-- `RX_Next < SN <= RX_Next + AM_Window_Size`. -/
def validAckSn (e : RlcRxAmEntity cfg) (sn : Nat) : Bool :=
  0 < e.rxModBase sn && e.rxModBase sn ≤ amWindowSize cfg

def hasSn (e : RlcRxAmEntity cfg) (sn : Nat) : Bool := e.rxWindow.hasSn sn

/-- `rx_window->has_sn(sn) && (*rx_window)[sn].fully_received`. -/
def fullyReceivedAt (e : RlcRxAmEntity cfg) (sn : Nat) : Bool :=
  match CircularMap.get? e.rxWindow sn with
  | some info => info.fullyReceived
  | none => false

/-- `rx_window->has_sn(sn) && (*rx_window)[sn].has_gap`. -/
def hasGapAt (e : RlcRxAmEntity cfg) (sn : Nat) : Bool :=
  match CircularMap.get? e.rxWindow sn with
  | some info => info.hasGap
  | none => false

def sduAt (e : RlcRxAmEntity cfg) (sn : Nat) : Except RlcRxAmAssertion RlcRxAmSduInfo :=
  (e.rxWindow.get sn).mapError .window

def setSdu (e : RlcRxAmEntity cfg) (sn : Nat) (info : RlcRxAmSduInfo) :
    Except RlcRxAmAssertion (RlcRxAmEntity cfg) :=
  (e.rxWindow.set sn info).mapError .window |>.map fun w => { e with rxWindow := w }

/-- The SDU info of `sn`, added to the window when absent. -/
def addSnIfAbsent (e : RlcRxAmEntity cfg) (sn : Nat) : Except RlcRxAmAssertion (RlcRxAmEntity cfg) :=
  if e.hasSn sn then .ok e
  else (e.rxWindow.addSn sn {}).mapError .window |>.map fun w => { e with rxWindow := w }

/-! ## Receiving data PDUs -/

/-- `handle_full_data_sdu`; the result says whether the status changed. -/
def handleFullDataSdu (e : RlcRxAmEntity cfg) (header : RlcAmPduHeader) (payload : List UInt8) :
    Except RlcRxAmAssertion (RlcRxAmEntity cfg × Bool) := do
  if header.si ≠ .fullSdu then return (e, false)
  let e ← e.addSnIfAbsent header.sn
  let e ← e.setSdu header.sn { fullyReceived := true, hasGap := false, sduData := .slice payload }
  return (e, true)

/-- `handle_segment_data_sdu`: store the segment and update the inventory. -/
def handleSegmentDataSdu (e : RlcRxAmEntity cfg) (header : RlcAmPduHeader)
    (payload : List UInt8) : Except RlcRxAmAssertion (RlcRxAmEntity cfg × Bool) := do
  if header.si = .fullSdu then return (e, false)
  let e ← e.addSnIfAbsent header.sn
  let info ← e.sduAt header.sn
  let (stored, info) := storeSegment info { si := header.si, so := header.so, payload }
  let some info := updateSegmentInventory info | throw (.invalidSduDataVariant header.sn)
  let e ← e.setSdu header.sn info
  return (e, stored)

/-- The loop that moves `RX_Highest_Status`, and the one of the t-Reassembly
expiry: from `sn`, step over the SNs before `stop` whose SDU is fully
received. -/
def scanFullyReceived (e : RlcRxAmEntity cfg) : Nat → Nat → Nat → Nat
  | 0, sn, _ => sn
  | fuel + 1, sn, stop =>
    if e.rxModBase sn < e.rxModBase stop ∧ e.fullyReceivedAt sn then
      e.scanFullyReceived fuel ((sn + 1) % mod cfg) stop
    else sn

/-- The loop that moves `RX_Next`: step over the fully received SDUs before
`RX_Next_Highest`, removing each from the window. -/
def advanceRxNext (e : RlcRxAmEntity cfg) : Nat → Nat →
    Except RlcRxAmAssertion (RlcRxAmEntity cfg × Nat)
  | 0, sn => .ok (e, sn)
  | fuel + 1, sn =>
    if e.rxModBase sn < e.rxModBase e.st.rxNextHighest ∧ e.fullyReceivedAt sn then do
      let w ← (e.rxWindow.removeSn sn).mapError .window
      advanceRxNext { e with rxWindow := w } fuel ((sn + 1) % mod cfg)
    else .ok (e, sn)

/-- The actions once all bytes of the SDU `sn` are received: deliver it,
free its buffers (keeping `fully_received`), then move `RX_Highest_Status`
and `RX_Next` when `sn` is where they stand. -/
def deliverSdu (e : RlcRxAmEntity cfg) (sn : Nat) : Except RlcRxAmAssertion (RlcRxAmEntity cfg) := do
  let info ← e.sduAt sn
  let e := match reassembleSdu info with
    | some sdu => { e with delivered := e.delivered ++ [sdu] }
    | none => e
  let e ← e.setSdu sn { info with sduData := .slice [] }
  let e := if e.rxModBase sn = e.rxModBase e.st.rxHighestStatus then
      { e with st.rxHighestStatus :=
          e.scanFullyReceived (mod cfg) ((e.st.rxHighestStatus + 1) % mod cfg) e.st.rxNextHighest }
    else e
  if e.rxModBase sn = e.rxModBase e.st.rxNext then
    let (e, snUpd) ← e.advanceRxNext (mod cfg) (e.st.rxNext % mod cfg)
    return { e with st.rxNext := snUpd }
  else return e

/-- The t-Reassembly actions at the end of `handle_data_pdu`: stop it when
its trigger is reached or has left the window, then start it when SDUs are
still missing. -/
def updateReassemblyTimer (e : RlcRxAmEntity cfg) :
    Except RlcRxAmAssertion (RlcRxAmEntity cfg) := do
  let e ← if e.reassemblyTimerRunning then do
      let atNext := decide (e.st.rxNextStatusTrigger = e.st.rxNext)
      -- the SDU at RX_Next is read without checking that it is present
      let nextComplete ←
        if e.rxModBase e.st.rxNextStatusTrigger = e.rxModBase (e.st.rxNext + 1) then do
          let info ← e.sduAt e.st.rxNext
          pure !info.hasGap
        else pure false
      let outside := !e.insideRxWindow e.st.rxNextStatusTrigger
      pure (if atNext || nextComplete || outside then { e with reassemblyTimerRunning := false }
        else e)
    else pure e
  if !e.reassemblyTimerRunning then
    let restart := decide (e.rxModBase e.st.rxNextHighest > e.rxModBase (e.st.rxNext + 1)) ||
      (decide (e.rxModBase e.st.rxNextHighest = e.rxModBase (e.st.rxNext + 1)) &&
        e.hasGapAt e.st.rxNext)
    if restart then
      return { e with reassemblyTimerRunning := true, st.rxNextStatusTrigger := e.st.rxNextHighest }
  return e

/-- The body of `handle_data_pdu`: the entity, whether the status changed,
and whether a status report was polled. -/
def handleDataPduBody (e : RlcRxAmEntity cfg) (buf : List UInt8) :
    Except RlcRxAmAssertion (RlcRxAmEntity cfg × Bool × Bool) := do
  let some header := rlcAmReadDataPduHeader buf cfg.snFieldLength | return (e, false, false)
  let headerLen := header.getPackedSize
  if buf.length ≤ headerLen then return (e, false, false)
  let payload := buf.drop headerLen
  let statusRequested := header.p ≠ 0
  if !e.insideRxWindow header.sn then return (e, false, statusRequested)
  -- discard duplicates
  if e.fullyReceivedAt header.sn then return (e, false, statusRequested)
  let (e, statusChanged) ← if header.si = .fullSdu then e.handleFullDataSdu header payload
    else e.handleSegmentDataSdu header payload
  let e := if e.rxModBase header.sn ≥ e.rxModBase e.st.rxNextHighest then
      { e with st.rxNextHighest := (header.sn + 1) % mod cfg }
    else e
  let e ← if e.fullyReceivedAt header.sn then e.deliverSdu header.sn else pure e
  let e ← e.updateReassemblyTimer
  return (e, statusChanged, statusRequested)

/-! ## Status report -/

/-- A NACK of the octets `so_start..so_end` of the SDU `sn`. -/
def segmentNack (sn : Nat) (soStart soEnd : UInt16) : RlcAmStatusNack :=
  { RlcAmStatusNack.init with nackSn := sn, hasSo := true, soStart, soEnd }

/-- The NACKs of the missing byte ranges before each received segment of a
partly received SDU: the status PDU, the offset after the last segment and
whether the last segment was seen. -/
def nackSegments (sn : Nat) : RlcAmStatusPdu → Nat → Bool → List RlcRxAmSduSegment →
    Except RlcRxAmAssertion (RlcAmStatusPdu × Nat × Bool)
  | status, lastSo, haveLast, [] => .ok (status, lastSo, haveLast)
  | status, lastSo, haveLast, segm :: rest => do
    let status ← if segm.so.toNat ≠ lastSo then do
        let nack := segmentNack sn (UInt16.ofNat lastSo) (segm.so - 1)
        let status := status.pushNack nack
        if nack.soStart > nack.soEnd then throw (.invalidSegmentOffsets sn)
        pure status
      else pure status
    let haveLast := haveLast || segm.si = .lastSegment
    nackSegments sn status (segm.so.toNat + segm.payload.length) haveLast rest

/-- One round of the NACK loop of `refresh_status_report`. -/
def nackSdu (e : RlcRxAmEntity cfg) (status : RlcAmStatusPdu) (i : Nat) :
    Except RlcRxAmAssertion RlcAmStatusPdu := do
  if e.fullyReceivedAt i then return status
  if !e.hasSn i then
    return status.pushNack { RlcAmStatusNack.init with nackSn := i, hasSo := false }
  let info ← e.sduAt i
  match info.sduData with
  | .segmentSet segments =>
    let (status, lastSo, haveLast) ← nackSegments i status 0 false segments
    if !haveLast then
      let nack := segmentNack i (UInt16.ofNat lastSo) soEndOfSdu
      let status := status.pushNack nack
      if nack.soStart > nack.soEnd then throw (.invalidSegmentOffsets i)
      return status
    return status
  | .slice _ => throw (.invalidSduDataVariant i)

/-- The NACK loop over `RX_Next <= i < stop_sn`. -/
def nackLoop (e : RlcRxAmEntity cfg) (stopSn : Nat) : Nat → Nat → RlcAmStatusPdu →
    Except RlcRxAmAssertion RlcAmStatusPdu
  | 0, _, status => .ok status
  | fuel + 1, i, status =>
    if e.rxModBase i < e.rxModBase stopSn then do
      let status ← e.nackSdu status i
      e.nackLoop stopSn fuel ((i + 1) % mod cfg) status
    else .ok status

/-- `refresh_status_report`: NACK what is missing from `RX_Next` up to
`RX_Highest_Status`, visiting at most `max_nof_sn_per_status_report` SNs,
and acknowledge the SN where the visit stopped. -/
def refreshStatusReport (e : RlcRxAmEntity cfg) : Except RlcRxAmAssertion (RlcRxAmEntity cfg) := do
  let stopSn :=
    if e.rxModBase e.st.rxHighestStatus >
        e.rxModBase ((e.st.rxNext + maxNofSnPerStatusReport cfg) % mod cfg) then
      (e.st.rxNext + maxNofSnPerStatusReport cfg) % mod cfg
    else e.st.rxHighestStatus
  let status ← e.nackLoop stopSn (mod cfg) e.st.rxNext (RlcAmStatusPdu.init cfg.snFieldLength)
  return { e with statusCached := { status with ackSn := stopSn } }

/-- `handle_data_pdu` with the post-processing of its scope exit. -/
def handleDataPdu (e : RlcRxAmEntity cfg) (buf : List UInt8) :
    Except RlcRxAmAssertion (RlcRxAmEntity cfg) := do
  let (e, statusChanged, statusRequested) ← e.handleDataPduBody buf
  let e ← if statusChanged then e.refreshStatusReport else pure e
  return if statusRequested then { e with doStatus := true } else e

/-- `handle_control_pdu`: a status PDU that unpacks goes to the
transmitting entity. -/
def handleControlPdu (e : RlcRxAmEntity cfg) (buf : List UInt8) : RlcRxAmEntity cfg :=
  match (RlcAmStatusPdu.init cfg.snFieldLength).unpack buf with
  | (true, status) => { e with statusToTx := e.statusToTx ++ [status] }
  | (false, _) => e

/-- `handle_pdu`. -/
def handlePdu (e : RlcRxAmEntity cfg) (buf : List UInt8) :
    Except RlcRxAmAssertion (RlcRxAmEntity cfg) :=
  if buf.isEmpty then .ok e
  else if RlcAmStatusPdu.isControlPdu buf then .ok (e.handleControlPdu buf)
  else e.handleDataPdu buf

/-! ## t-Reassembly expiry -/

/-- `on_expired_reassembly_timer`. -/
def onExpiredReassemblyTimer (e : RlcRxAmEntity cfg) :
    Except RlcRxAmAssertion (RlcRxAmEntity cfg) := do
  if e.reassemblyTimerRunning then return e
  if !e.validAckSn e.st.rxNextStatusTrigger then return e
  let snUpd := e.scanFullyReceived (mod cfg) e.st.rxNextStatusTrigger e.st.rxNextHighest
  if !e.validAckSn snUpd then throw (.rxHighestStatusOutsideWindow snUpd)
  let e := { e with st.rxHighestStatus := snUpd }
  let restart := decide (e.rxModBase e.st.rxNextHighest > e.rxModBase (e.st.rxHighestStatus + 1)) ||
    (decide (e.rxModBase e.st.rxNextHighest = e.rxModBase (e.st.rxHighestStatus + 1)) &&
      e.hasGapAt e.st.rxHighestStatus)
  let e := if restart then
      { e with reassemblyTimerRunning := true, st.rxNextStatusTrigger := e.st.rxNextHighest }
    else e
  let e ← e.refreshStatusReport
  return { e with doStatus := true }

/-- One event. t-Reassembly expires only while it runs, and its callback
exists only when `t_reassembly > 0`. -/
def step (e : RlcRxAmEntity cfg) : RlcRxAmEvent → Except RlcRxAmAssertion (RlcRxAmEntity cfg)
  | .pdu buf => e.handlePdu buf
  | .reassemblyTimerExpiry =>
    if e.reassemblyTimerRunning then
      let e := { e with reassemblyTimerRunning := false }
      if cfg.tReassembly > 0 then e.onExpiredReassemblyTimer else .ok e
    else .ok e

/-- The entity states some run of events reaches from creation. -/
def Reachable (cfg : RlcRxAmConfig) : RlcRxAmEntity cfg → Prop :=
  Transition.Reachable step (create cfg)

end RlcRxAmEntity

end SrsRan.Rlc
