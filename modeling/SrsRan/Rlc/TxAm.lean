import SrsRan.Rlc.RxAm
import SrsRan.Rlc.SduQueue
import SrsRan.Rlc.RetxQueue
import SrsRan.Support.SduWindow
import SrsRan.Lib.ModWindow
import SrsRan.Lib.Transition
import SrsRan.Lib.Fallible

/-!
The AM transmitting entity (`rlc_tx_am_entity.cpp`, TS 38.322 5.2.3.1 and
5.3.3): the SDU queue, the TX window of sent SDUs awaiting acknowledgement,
the ReTx queue, the poll bookkeeping with t-PollRetransmit, `pull_pdu` with
its four builders, and the reception of status reports.

The entity is a state machine over five events: an SDU from the upper layer,
a discard request, a grant, a status PDU from the peer, and the expiry of
t-PollRetransmit, which reaches the entity only while the timer runs and
when `t_poll_retx > 0`. A grant comes with the status PDU of the co-located
receiver when that one requires a status report (`status_provider`). The
PDUs returned to the lower layer are logged in the state; the notifications
to the upper layers, the metrics, the buffer-state reports and the PDU
recycler are left out. A failed `srsran_assert` is the `error` of a step;
`srsran_sanity_check` is off, as in a build without paranoid asserts. The
loops over SNs get one round of fuel per SN of the SN space, and the loop
over the ReTx queue one per queued ReTx.
-/

namespace SrsRan.Rlc

/-- `rlc_tx_am_config`. -/
structure RlcTxAmConfig where
  snFieldLength : RlcAmSnSize
  pdcpSnLen : Pdcp.PdcpSnSize
  tPollRetx : Int
  maxRetxThresh : Nat
  pollPdu : Int
  pollByte : Int
  queueSize : Nat
  maxWindow : Nat
  /-- `rb_id.is_srb()` of the bearer the entity serves. -/
  rbIsSrb : Bool

/-- `rlc_tx_am_state`. -/
structure RlcTxAmState where
  txNextAck : Nat
  txNext : Nat
  pollSn : Nat
  pduWithoutPoll : Nat
  byteWithoutPoll : Nat
  deriving DecidableEq, Repr

/-- `rlc_tx_am_sdu_info`, without its arrival time; a `retx_count` of
`RETX_COUNT_NOT_STARTED` is `none`. -/
structure RlcTxAmSduInfo where
  sdu : List UInt8
  isRetx : Bool
  pdcpSn : Option Nat
  nextSo : Nat
  retxCount : Option Nat
  deriving DecidableEq, Repr

/-- The assertions of the transmitter. -/
inductive RlcTxAmAssertion
  | window (a : SduWindowAssertion)
  | pdcpSn (a : GetPdcpSnAssertion)
  | sduQueue (f : SduQueueFault)
  | retxQueue (a : RlcRetxQueueAssertion)
  /-- `build_retx_pdu`: "Failed to write header. header_len={} expected_hdr_len={}" -/
  | retxHeaderLength (headerLen expectedHdrLen : Nat)
  deriving DecidableEq, Repr

/-- The TX window: an SDU window of `AM_Window_Size` slots. -/
abbrev RlcTxAmWindow (cfg : RlcTxAmConfig) :=
  SduWindow RlcTxAmSduInfo (windowSize cfg.snFieldLength.toNumber)

structure RlcTxAmEntity (cfg : RlcTxAmConfig) where
  st : RlcTxAmState
  sduQueue : RlcSduQueue
  /-- `sn_under_segmentation`; `INVALID_RLC_SN` is `none`. -/
  snUnderSegmentation : Option Nat
  /-- The ReTx queue, a ring buffer of `AM_Window_Size` ReTx. -/
  retxQueue : RlcRetxQueue
  /-- `retx_sn`, the SN of the latest ReTx; `INVALID_RLC_SN` is `none`. -/
  retxSn : Option Nat
  txWindow : RlcTxAmWindow cfg
  pollRetransmitTimerRunning : Bool
  isPollRetransmitTimerExpired : Bool
  /-- The PDUs returned by `pull_pdu`, oldest first. -/
  pdus : List (List UInt8)

/-- The events of the transmitter. A grant carries the status PDU the
receiver provides when it requires a status report. -/
inductive RlcTxAmEvent
  | sdu (buf : List UInt8) (isRetx : Bool)
  | discardSdu (pdcpSn : Nat)
  | pullPdu (grantLen : Nat) (status : Option RlcAmStatusPdu)
  | statusPdu (status : RlcAmStatusPdu)
  | pollRetransmitTimerExpiry
  deriving DecidableEq, Repr

namespace RlcTxAmEntity

variable {cfg : RlcTxAmConfig}

/-- The SN modulus `mod`. -/
def mod (cfg : RlcTxAmConfig) : Nat := cardinality cfg.snFieldLength.toNumber

def amWindowSize (cfg : RlcTxAmConfig) : Nat := windowSize cfg.snFieldLength.toNumber

def headMinSize (cfg : RlcTxAmConfig) : Nat := rlcAmPduHeaderMinSize cfg.snFieldLength

def headMaxSize (cfg : RlcTxAmConfig) : Nat := rlcAmPduHeaderMaxSize cfg.snFieldLength

def create (cfg : RlcTxAmConfig) : RlcTxAmEntity cfg where
  st := ⟨0, 0, 0, 0, 0⟩
  sduQueue := RlcSduQueue.create cfg.queueSize
  snUnderSegmentation := none
  retxQueue := RlcRetxQueue.create (amWindowSize cfg)
  retxSn := none
  txWindow := CircularMap.empty
  pollRetransmitTimerRunning := false
  isPollRetransmitTimerExpired := false
  pdus := []

/-! ## Window helpers -/

/-- `tx_mod_base`: `(x - TX_Next_Ack) % mod`. -/
def txModBase (e : RlcTxAmEntity cfg) (x : Nat) : Nat := ModWindow.modBase (mod cfg) e.st.txNextAck x

/-- `inside_tx_window`. -/
def insideTxWindow (e : RlcTxAmEntity cfg) (sn : Nat) : Bool := e.txModBase sn < amWindowSize cfg

/-- `is_tx_window_full`. -/
def isTxWindowFull (e : RlcTxAmEntity cfg) : Bool :=
  e.txWindow.full || (cfg.maxWindow != 0 && decide (e.txModBase e.st.txNext > cfg.maxWindow))

/-- `valid_ack_sn`: `TX_Next_Ack < SN <= TX_Next_Ack + AM_Window_Size`. -/
def validAckSn (e : RlcTxAmEntity cfg) (sn : Nat) : Bool :=
  0 < e.txModBase sn && e.txModBase sn ≤ amWindowSize cfg

/-- `nack_sn + nack_range - 1`, the last SN of a NACK range, as its SN
modulo `mod` (the `uint32_t` sum wraps at a multiple of `mod`). -/
def lastSnOf (cfg : RlcTxAmConfig) (nack : RlcAmStatusNack) : Nat :=
  (nack.nackSn + nack.nackRange.toNat + mod cfg - 1) % mod cfg

/-- `valid_nack`: a NACK below ACK_SN, inside the TX window and not past
`TX_Next`, the whole of its range included. -/
def validNack (e : RlcTxAmEntity cfg) (ackSn : Nat) (nack : RlcAmStatusNack) : Bool :=
  let last := lastSnOf cfg nack
  !(e.txModBase nack.nackSn ≥ e.txModBase ackSn) &&
    !(nack.hasNackRange && e.txModBase last ≥ e.txModBase ackSn) &&
    e.insideTxWindow nack.nackSn &&
    !(nack.hasNackRange && !e.insideTxWindow last) &&
    !(e.txModBase nack.nackSn > e.txModBase e.st.txNext) &&
    !(nack.hasNackRange && e.txModBase last > e.txModBase e.st.txNext)

def sduAt (e : RlcTxAmEntity cfg) (sn : Nat) : Except RlcTxAmAssertion RlcTxAmSduInfo :=
  (e.txWindow.get sn).mapError .window

def setSdu (e : RlcTxAmEntity cfg) (sn : Nat) (info : RlcTxAmSduInfo) :
    Except RlcTxAmAssertion (RlcTxAmEntity cfg) :=
  (e.txWindow.set sn info).mapError .window |>.map fun w => { e with txWindow := w }

/-! ## Upper-layer interface -/

/-- `handle_sdu`: the SDU is queued with the PDCP SN read from it; a
refused SDU is dropped. -/
def handleSdu (e : RlcTxAmEntity cfg) (buf : List UInt8) (isRetx : Bool) :
    Except RlcTxAmAssertion (RlcTxAmEntity cfg) := do
  let pdcpSn ← (getPdcpSn buf cfg.pdcpSnLen).mapError .pdcpSn
  -- an SRB has no PDCP retransmissions: the flag is ignored
  let isRetx := isRetx && !cfg.rbIsSrb
  let (_, q) ← (e.sduQueue.write { buf, isRetx, pdcpSn }).mapError .sduQueue
  return { e with sduQueue := q }

/-- `discard_sdu`. -/
def discardSdu (e : RlcTxAmEntity cfg) (pdcpSn : Nat) : Except RlcTxAmAssertion (RlcTxAmEntity cfg) := do
  let (_, q) ← (e.sduQueue.tryDiscard pdcpSn).mapError .sduQueue
  return { e with sduQueue := q }

/-! ## Polling and ReTx counting -/

/-- `get_polling_bit` (TS 38.322 5.3.3.2): count the new PDU, set the poll
bit when a counter reaches its threshold, when nothing is left to send, or
after t-PollRetransmit expired; a poll resets the counters, records
`POLL_SN` for a new PDU and (re)starts t-PollRetransmit. -/
def getPollingBit (e : RlcTxAmEntity cfg) (sn : Nat) (isRetx : Bool) (payloadSize : Nat) :
    RlcTxAmEntity cfg × UInt8 :=
  let e := if !isRetx then
      { e with st.pduWithoutPoll := e.st.pduWithoutPoll + 1,
               st.byteWithoutPoll := e.st.byteWithoutPoll + payloadSize }
    else e
  let byCounters := !isRetx &&
    ((decide (cfg.pollPdu > 0) && decide (e.st.pduWithoutPoll ≥ cfg.pollPdu.toNat)) ||
      (decide (cfg.pollByte > 0) && decide (e.st.byteWithoutPoll ≥ cfg.pollByte.toNat)))
  let idle := (e.sduQueue.isEmpty && e.retxQueue.empty && e.snUnderSegmentation.isNone) ||
    e.isTxWindowFull
  -- the expiry flag is read and cleared
  let expired := e.isPollRetransmitTimerExpired
  let e := { e with isPollRetransmitTimerExpired := false }
  if byCounters || idle || expired then
    let e := { e with st.pduWithoutPoll := 0, st.byteWithoutPoll := 0 }
    let e := if !isRetx then { e with st.pollSn := sn } else e
    let e := if cfg.tPollRetx > 0 then { e with pollRetransmitTimerRunning := true } else e
    (e, 1)
  else (e, 0)

/-- `increment_retx_count`; reaching `max_retx_thresh` only notifies the
upper layer. -/
def incrementRetxCount (e : RlcTxAmEntity cfg) (sn : Nat) :
    Except RlcTxAmAssertion (RlcTxAmEntity cfg) := do
  let info ← e.sduAt sn
  let retxCount := match info.retxCount with
    | none => some 0
    | some n => some (n + 1)
  e.setSdu sn { info with retxCount }

/-- `decrement_retx_count`. -/
def decrementRetxCount (e : RlcTxAmEntity cfg) (sn : Nat) :
    Except RlcTxAmAssertion (RlcTxAmEntity cfg) := do
  let info ← e.sduAt sn
  match info.retxCount with
  | none => return e
  | some 0 => e.setSdu sn { info with retxCount := none }
  | some (n + 1) => e.setSdu sn { info with retxCount := some n }

/-! ## Building PDUs -/

/-- The header of a data PDU. -/
def dataHeader (cfg : RlcTxAmConfig) (p : UInt8) (si : RlcSiField) (sn so : Nat) : RlcAmPduHeader :=
  { dc := .data, p, si, snSize := cfg.snFieldLength, sn, so := UInt16.ofNat so }

/-- `build_first_sdu_segment`: the head of the SDU `TX_Next` that fits the
grant after the short header; the SDU becomes the one under segmentation. -/
def buildFirstSduSegment (e : RlcTxAmEntity cfg) (grantLen : Nat) (info : RlcTxAmSduInfo) :
    Except RlcTxAmAssertion (RlcTxAmEntity cfg × List UInt8) := do
  if info.sdu.length + headMinSize cfg ≤ grantLen then return (e, [])
  if grantLen ≤ headMinSize cfg then return (e, [])
  let segmentPayloadLen := grantLen - headMinSize cfg
  let e := { e with snUnderSegmentation := some e.st.txNext }
  let (e, p) := e.getPollingBit e.st.txNext false segmentPayloadLen
  let hdr := dataHeader cfg p .firstSegment e.st.txNext info.nextSo
  let headerBytes := rlcAmWriteDataPduHeader hdr
  let payload := copySegments (byteBufferView info.sdu hdr.so.toNat segmentPayloadLen)
    (grantLen - headerBytes.length)
  if payload.length = 0 ∨ payload.length ≠ segmentPayloadLen then return (e, [])
  let e ← e.setSdu e.st.txNext { info with nextSo := info.nextSo + segmentPayloadLen }
  return (e, headerBytes ++ payload)

/-- `build_new_pdu`: read the next SDU into the TX window under `TX_Next`,
and send it whole, or its first segment when it does not fit. -/
def buildNewPdu (e : RlcTxAmEntity cfg) (grantLen : Nat) :
    Except RlcTxAmAssertion (RlcTxAmEntity cfg × List UInt8) := do
  if grantLen ≤ headMinSize cfg then return (e, [])
  if e.isTxWindowFull then return (e, [])
  let (sdu, q) := e.sduQueue.read
  let e := { e with sduQueue := q }
  let some sdu := sdu | return (e, [])
  let info : RlcTxAmSduInfo :=
    { sdu := sdu.buf, isRetx := sdu.isRetx, pdcpSn := sdu.pdcpSn, nextSo := 0, retxCount := none }
  let w ← (e.txWindow.addSn e.st.txNext info).mapError .window
  let e := { e with txWindow := w }
  if info.sdu.length + headMinSize cfg > grantLen then return ← e.buildFirstSduSegment grantLen info
  -- the payload size counted for the poll is that of the moved-from buffer, 0
  let (e, p) := e.getPollingBit e.st.txNext false 0
  let headerBytes := rlcAmWriteDataPduHeader (dataHeader cfg p .fullSdu e.st.txNext 0)
  let payload := copySegments info.sdu (grantLen - headerBytes.length)
  if payload.length = 0 then return (e, [])
  let e := { e with st.txNext := (e.st.txNext + 1) % mod cfg }
  return (e, headerBytes ++ payload)

/-- `build_continued_sdu_segment`: the next segment of the SDU under
segmentation, middle or last. -/
def buildContinuedSduSegment (e : RlcTxAmEntity cfg) (grantLen : Nat) (sn : Nat)
    (info : RlcTxAmSduInfo) : Except RlcTxAmAssertion (RlcTxAmEntity cfg × List UInt8) := do
  if info.nextSo = 0 then return ({ e with snUnderSegmentation := none }, [])
  if info.nextSo ≥ info.sdu.length then return ({ e with snUnderSegmentation := none }, [])
  if grantLen ≤ headMaxSize cfg then return (e, [])
  let (si, segmentPayloadLen, e) :=
    if info.sdu.length - info.nextSo + headMaxSize cfg > grantLen then
      (RlcSiField.middleSegment, grantLen - headMaxSize cfg, e)
    else (RlcSiField.lastSegment, info.sdu.length - info.nextSo, { e with snUnderSegmentation := none })
  let (e, p) := e.getPollingBit e.st.txNext false segmentPayloadLen
  let hdr := dataHeader cfg p si e.st.txNext info.nextSo
  let headerBytes := rlcAmWriteDataPduHeader hdr
  -- the octets are copied from the SO of the header, a `uint16_t`
  let payload := copySegments (byteBufferView info.sdu hdr.so.toNat segmentPayloadLen)
    (grantLen - headerBytes.length)
  if payload.length = 0 ∨ payload.length ≠ segmentPayloadLen then return (e, [])
  let e ← e.setSdu sn { info with nextSo := info.nextSo + segmentPayloadLen }
  let e := if si = .lastSegment then { e with st.txNext := (e.st.txNext + 1) % mod cfg } else e
  return (e, headerBytes ++ payload)

/-- The loop of `build_retx_pdu` that pops the ReTx of SNs no longer in the
TX window, until the front is in the window or the queue is empty. One round
of fuel per queued ReTx. -/
def dropStaleRetx (e : RlcTxAmEntity cfg) : Nat → RlcRetxQueue → Except RlcTxAmAssertion RlcRetxQueue
  | 0, q => .ok q
  | fuel + 1, q => do
    let front ← q.front.mapError .retxQueue
    if e.txWindow.hasSn front.sn then return q
    let q := q.pop
    if q.empty then return q
    e.dropStaleRetx fuel q

/-- `get_retx_expected_hdr_len`. -/
def getRetxExpectedHdrLen (cfg : RlcTxAmConfig) (retx : RlcTxAmdRetx) : Nat :=
  if retx.so = 0 then headMinSize cfg else headMaxSize cfg

/-- `build_retx_pdu`: as much of the ReTx at the front of the queue as fits
the grant, the rest staying at the front. -/
def buildRetxPdu (e : RlcTxAmEntity cfg) (grantLen : Nat) :
    Except RlcTxAmAssertion (RlcTxAmEntity cfg × List UInt8) := do
  if e.retxQueue.empty then return (e, [])
  let queue ← e.dropStaleRetx e.retxQueue.size e.retxQueue
  let e := { e with retxQueue := queue }
  if queue.empty then return (e, [])
  let retx ← queue.front.mapError .retxQueue
  let e := { e with retxSn := some retx.sn }
  let info ← e.sduAt retx.sn
  if retx.so + retx.length > info.sdu.length then return ({ e with retxQueue := queue.pop }, [])
  let expectedHdrLen := getRetxExpectedHdrLen cfg retx
  if grantLen ≤ expectedHdrLen then return (e, [])
  let retxPayloadLen := min retx.length (grantLen - expectedHdrLen)
  let retxComplete := decide (retxPayloadLen = retx.length)
  let sduComplete := decide (retx.so + retxPayloadLen ≥ info.sdu.length)
  let si : RlcSiField :=
    if retx.so = 0 then (if sduComplete then .fullSdu else .firstSegment)
    else (if sduComplete then .lastSegment else .middleSegment)
  -- the queue moves on before the polling bit is computed
  let queue ← (if retxComplete then pure queue.pop
    else (queue.replaceFront
      { retx with so := retx.so + retxPayloadLen, length := retx.length - retxPayloadLen }).mapError .retxQueue)
  let e := { e with retxQueue := queue }
  let (e, p) := e.getPollingBit retx.sn true 0
  let hdr := dataHeader cfg p si retx.sn retx.so
  let headerBytes := rlcAmWriteDataPduHeader hdr
  if headerBytes.length ≠ expectedHdrLen then
    throw (.retxHeaderLength headerBytes.length expectedHdrLen)
  let payload := copySegments (byteBufferView info.sdu hdr.so.toNat retxPayloadLen)
    (grantLen - headerBytes.length)
  if payload.length = 0 ∨ payload.length ≠ retxPayloadLen then return (e, [])
  return (e, headerBytes ++ payload)

/-- `pull_pdu`: a status report when the receiver requires one, else a
ReTx, else the next segment of the SDU under segmentation, else a new SDU. -/
def pullPdu (e : RlcTxAmEntity cfg) (grantLen : Nat) (status : Option RlcAmStatusPdu) :
    Except RlcTxAmAssertion (RlcTxAmEntity cfg × List UInt8) := do
  if let some status := status then
    if grantLen < rlcAmNrStatusPduSizeofHeaderAckSn then return (e, [])
    let (fits, status) :=
      if status.packedSize > grantLen then status.trim grantLen else (true, status)
    if !fits then return (e, [])
    return (e, status.pack)
  if !e.retxQueue.empty then return ← e.buildRetxPdu grantLen
  let e ← match e.snUnderSegmentation with
    | some sn =>
      match CircularMap.get? e.txWindow sn with
      | some info => return ← e.buildContinuedSduSegment grantLen sn info
      | none => pure { e with snUnderSegmentation := none }
    | none => pure e
  if e.sduQueue.isEmpty then return (e, [])
  e.buildNewPdu grantLen

/-! ## Status reports -/

/-- The sanity checks of `handle_nack`: offsets out of order or out of the
SDU are clamped; each clamp also reports a protocol failure, which the model
leaves out. -/
def clampNack (nack : RlcAmStatusNack) (sduLength : Nat) : RlcAmStatusNack :=
  let nack := if nack.soStart > nack.soEnd then { nack with soStart := 0 } else nack
  let nack := if nack.soStart.toNat ≥ sduLength then { nack with soStart := 0 } else nack
  if nack.soEnd.toNat ≥ sduLength then { nack with soEnd := UInt16.ofNat (sduLength + 2 ^ 32 - 1) } else nack

/-- `handle_nack`: queue the ReTx of the octets a NACK reports missing,
clamped to the SDU; whether a ReTx was queued. -/
def handleNack (e : RlcTxAmEntity cfg) (nack : RlcAmStatusNack) :
    Except RlcTxAmAssertion (RlcTxAmEntity cfg × Bool) := do
  if nack.hasNackRange then return (e, false)
  if !(e.txModBase e.st.txNextAck ≤ e.txModBase nack.nackSn &&
      e.txModBase nack.nackSn ≤ e.txModBase e.st.txNext) then return (e, false)
  -- the SDU is read without checking that it is present
  let info ← e.sduAt nack.nackSn
  let sduLength := info.sdu.length
  let nack := if !nack.hasSo then
      { nack with soStart := 0, soEnd := UInt16.ofNat (sduLength + 2 ^ 32 - 1) }
    else nack
  let nack ← if nack.soEnd = soEndOfSdu then
      if some nack.nackSn ≠ e.snUnderSegmentation then
        pure (some { nack with soEnd := UInt16.ofNat (sduLength + 2 ^ 32 - 1) })
      else if info.nextSo = 0 then pure none
      else if nack.soStart.toNat > info.nextSo then pure none
      else if nack.soStart.toNat = info.nextSo then pure none
      else pure (some { nack with soEnd := UInt16.ofNat (info.nextSo + 2 ^ 32 - 1) })
    else pure (some nack)
  let some nack := nack | return (e, false)
  let nack := clampNack nack sduLength
  let retx : RlcTxAmdRetx :=
    { so := nack.soStart.toNat, sn := nack.nackSn,
      length := (nack.soEnd.toNat + 1 + 2 ^ 32 - nack.soStart.toNat) % 2 ^ 32 }
  let (queued, queue) := e.retxQueue.tryPush retx
  if !queued then return (e, false)
  return ({ e with retxQueue := queue }, true)

/-- The ACK loop of `handle_status_pdu`: from `TX_Next_Ack`, remove the
acknowledged SDUs before `stop_sn` up to the first SN not in the window;
`TX_Next_Ack` follows, and `tx_mod_base` with it. -/
def ackLoop (e : RlcTxAmEntity cfg) (stopSn : Nat) : Nat → Nat →
    Except RlcTxAmAssertion (RlcTxAmEntity cfg)
  | 0, _ => .ok e
  | fuel + 1, sn =>
    if e.txModBase sn < e.txModBase stopSn then
      if e.txWindow.hasSn sn then do
        let w ← (e.txWindow.removeSn sn).mapError .window
        let e := { e with txWindow := w, st.txNextAck := (sn + 1) % mod cfg }
        e.ackLoop stopSn fuel ((sn + 1) % mod cfg)
      else .ok e
    else .ok e

/-- The loop that empties the ReTx queue front to back, taking back one ReTx
count per run of ReTx of one SN. One round of fuel per queued ReTx. -/
def clearRetxQueue (e : RlcTxAmEntity cfg) : Nat → Except RlcTxAmAssertion (RlcTxAmEntity cfg)
  | 0 => .ok e
  | fuel + 1 => do
    if e.retxQueue.empty then return e
    let retx ← e.retxQueue.front.mapError .retxQueue
    let e ← if e.retxSn ≠ some retx.sn then do
        let e ← if e.txWindow.hasSn retx.sn then e.decrementRetxCount retx.sn else pure e
        pure { e with retxSn := some retx.sn }
      else pure e
    { e with retxQueue := e.retxQueue.pop }.clearRetxQueue fuel

/-- One NACK handled: a ReTx queued counts one retransmission of its SN,
once per run of NACKs of one SN. -/
def nackOne (e : RlcTxAmEntity cfg) (prevRetxSn : Option Nat) (nack : RlcAmStatusNack) :
    Except RlcTxAmAssertion (RlcTxAmEntity cfg × Option Nat) := do
  let (e, queued) ← e.handleNack nack
  if queued ∧ prevRetxSn ≠ some nack.nackSn then
    let e ← e.incrementRetxCount nack.nackSn
    return (e, some nack.nackSn)
  return (e, prevRetxSn)

/-- The NACK of one SN of a NACK range: the first SN keeps `so_start`, the
last `so_end`, and it has offsets only where they cut the SDU. -/
def rangeNack (cfg : RlcTxAmConfig) (nack : RlcAmStatusNack) (rangeSn : Nat) : RlcAmStatusNack :=
  if nack.hasSo then
    let soStart := if rangeSn = nack.nackSn then nack.soStart else 0
    let soEnd := if rangeSn = lastSnOf cfg nack then nack.soEnd else soEndOfSdu
    { RlcAmStatusNack.init with
      nackSn := rangeSn, soStart := soStart, soEnd := soEnd,
      hasSo := soStart ≠ 0 || soEnd ≠ soEndOfSdu }
  else { RlcAmStatusNack.init with nackSn := rangeSn }

/-- The NACK range loop: one NACK per SN of the range, stopping at ACK_SN. -/
def nackRangeLoop (e : RlcTxAmEntity cfg) (ackSn : Nat) (nack : RlcAmStatusNack) :
    Nat → Nat → Option Nat → Except RlcTxAmAssertion (RlcTxAmEntity cfg × Option Nat)
  | 0, _, prev => .ok (e, prev)
  | fuel + 1, rangeSn, prev =>
    if rangeSn = (nack.nackSn + nack.nackRange.toNat) % mod cfg then .ok (e, prev)
    else if rangeSn = ackSn then .ok (e, prev)
    else do
      let (e, prev) ← e.nackOne prev (rangeNack cfg nack rangeSn)
      e.nackRangeLoop ackSn nack fuel ((rangeSn + 1) % mod cfg) prev

/-- The NACK loop of `handle_status_pdu`. -/
def nackLoop (e : RlcTxAmEntity cfg) (ackSn : Nat) : List RlcAmStatusNack → Option Nat →
    Except RlcTxAmAssertion (RlcTxAmEntity cfg)
  | [], _ => .ok e
  | nack :: rest, prev => do
    let (e, prev) ← if nack.hasNackRange then e.nackRangeLoop ackSn nack (mod cfg) nack.nackSn prev
      else e.nackOne prev nack
    e.nackLoop ackSn rest prev

/-- `handle_status_pdu` (TS 38.322 5.3.3.3): a report with an invalid
ACK_SN or NACK is dropped; otherwise t-PollRetransmit stops when POLL_SN is
acknowledged, the SDUs before the first NACK are removed, and the ReTx
queue is rebuilt from the NACKs. -/
def handleStatusPdu (e : RlcTxAmEntity cfg) (status : RlcAmStatusPdu) :
    Except RlcTxAmAssertion (RlcTxAmEntity cfg) := do
  if !e.validAckSn status.ackSn then return e
  -- an ACK_SN past TX_Next + 1 only reports a protocol failure
  if e.txModBase status.ackSn > e.txModBase (e.st.txNext + 1) then return e
  if !status.nacks.all (e.validNack status.ackSn) then return e
  let e := if e.txModBase e.st.pollSn < e.txModBase status.ackSn then
      { e with pollRetransmitTimerRunning := false } else e
  let stopSn := match status.nacks with
    | [] => status.ackSn
    | first :: _ => first.nackSn
  let e ← e.ackLoop stopSn (mod cfg) e.st.txNextAck
  let e ← e.clearRetxQueue e.retxQueue.size
  let e := { e with retxSn := none }
  e.nackLoop status.ackSn status.nacks none

/-! ## t-PollRetransmit expiry -/

/-- `on_expired_poll_retransmit_timer` (TS 38.322 5.3.3.4): with nothing
left to send, retransmit the SDU `TX_Next_Ack`; the next PDU polls. With
nothing left to send and nothing to retransmit, the expiry is dropped. -/
def onExpiredPollRetransmitTimer (e : RlcTxAmEntity cfg) :
    Except RlcTxAmAssertion (RlcTxAmEntity cfg) := do
  let idle := (e.sduQueue.isEmpty && e.retxQueue.empty && e.snUnderSegmentation.isNone) ||
    e.isTxWindowFull
  let e ← if idle then do
      if e.txWindow.isEmpty then return e
      if !e.txWindow.hasSn e.st.txNextAck then return e
      let info ← e.sduAt e.st.txNextAck
      let retx : RlcTxAmdRetx := { sn := e.st.txNextAck, so := 0, length := info.sdu.length }
      let (enqueued, queue) := e.retxQueue.tryPush retx
      if enqueued then incrementRetxCount { e with retxQueue := queue } e.st.txNextAck else pure e
    else pure e
  return { e with isPollRetransmitTimerExpired := true }

/-- One event; a PDU written goes to the log. t-PollRetransmit expires only
while it runs. -/
def step (e : RlcTxAmEntity cfg) : RlcTxAmEvent → Except RlcTxAmAssertion (RlcTxAmEntity cfg)
  | .sdu buf isRetx => e.handleSdu buf isRetx
  | .discardSdu pdcpSn => e.discardSdu pdcpSn
  | .pullPdu grantLen status => do
    let (e, pdu) ← e.pullPdu grantLen status
    return if pdu.isEmpty then e else { e with pdus := e.pdus ++ [pdu] }
  | .statusPdu status => e.handleStatusPdu status
  | .pollRetransmitTimerExpiry =>
    if e.pollRetransmitTimerRunning ∧ cfg.tPollRetx > 0 then
      { e with pollRetransmitTimerRunning := false }.onExpiredPollRetransmitTimer
    else .ok e

/-- The entity states some run of events reaches from creation. -/
def Reachable (cfg : RlcTxAmConfig) : RlcTxAmEntity cfg → Prop :=
  Transition.Reachable step (create cfg)

end RlcTxAmEntity

/-! ## Status reports against the TX window -/

/-- With 12-bit SNs, a one-octet control SDU is sent whole as SN 0, which
leaves `TX_Next = 1` and no SDU under segmentation. The status PDU
`00 02 80 00 10` (ACK_SN 2 = TX_Next + 1, one NACK of SN 1 = TX_Next) is
accepted by `unpack`, `valid_ack_sn` and `valid_nack`; the ACK loop removes
SN 0 and stops at SN 1, and `handle_nack` then reads SN 1, which was never
sent, from the TX window. -/
theorem RlcTxAmEntity.handleStatusPdu_reads_absent_sn :
    let cfg : RlcTxAmConfig := ⟨.size12bits, .size12bits, 45, 4, 4, 25, 16, 0, false⟩
    ∃ (e : RlcTxAmEntity cfg) (s : RlcAmStatusPdu),
      Transition.run step (create cfg) [.sdu [0x00] false, .pullPdu 100 none] = .ok e ∧
      e.st.txNext = 1 ∧ e.snUnderSegmentation = none ∧ e.txWindow.hasSn 1 = false ∧
      (RlcAmStatusPdu.init .size12bits).unpack [0x00, 0x02, 0x80, 0x00, 0x10] = (true, s) ∧
      s.ackSn = e.st.txNext + 1 ∧ s.nacks.map RlcAmStatusNack.nackSn = [e.st.txNext] ∧
      e.step (.statusPdu s) = .error (.window (.accessNonExistent 1)) := by
  intro cfg
  let s := ((RlcAmStatusPdu.init .size12bits).unpack [0x00, 0x02, 0x80, 0x00, 0x10]).2
  obtain ⟨e, hrun, hfacts⟩ := Fallible.exists_ok_of_toOption_map
    (show (Transition.run step (create cfg) [.sdu [0x00] false, .pullPdu 100 none]).toOption.map
        (fun e : RlcTxAmEntity cfg => ((e.st.txNext, e.snUnderSegmentation, e.txWindow.hasSn 1),
          (e.step (.statusPdu s)).map fun _ => ())) =
      some ((1, none, false), .error (.window (.accessNonExistent 1))) by decide +kernel)
  simp only [Prod.mk.injEq] at hfacts
  obtain ⟨⟨hnext, hseg, hsn⟩, hstatus⟩ := hfacts
  refine ⟨e, s, hrun, hnext, hseg, hsn, by decide +kernel, ?_, ?_, Fallible.eq_error_of_map_const hstatus⟩
  · rw [hnext]
    decide +kernel
  · rw [hnext]
    decide +kernel

end SrsRan.Rlc
