import SrsRan.Pdcp.Common
import SrsRan.Lib.Transition

/-!
The PDCP receiving entity (`pdcp_entity_rx.cpp`, TS 38.323 5.2.2): its state
variables, the RX window of SDU infos keyed by COUNT, t-Reordering, the
reception of data and control PDUs, the t-Reordering expiry handler and
re-establishment.

Security is NIA0 with NEA0: the MAC-I is stripped where the source strips
it, verification passes and deciphering leaves the data as it is. The SDUs
passed to `upper_dn.on_new_sdu` are logged in the state with the COUNT the
entity delivers them under; `on_max_count_reached` and
`on_protocol_failure` are called exactly when their flags are raised. The
entity is a state machine over three events: a PDU from the lower layer,
the expiry of t-Reordering (only while it runs) and re-establishment. Every
loop of the source runs over a range of COUNTs whose length is known when
it starts, and gets that length as its bound.
-/

namespace SrsRan.Pdcp

/-- `pdcp_t_reordering`; `ms d` stands for the enumerators `ms1` to
`ms3000`, whose durations the entity only hands to the timer. -/
inductive PdcpTReordering
  | ms0
  | ms (d : Nat)
  | infinity
  deriving DecidableEq, Repr

/-- `pdcp_rx_config`, with the integrity switch of the entity (NIA0). -/
structure PdcpRxConfig where
  rbType : PdcpRbType
  rlcMode : PdcpRlcMode
  snSize : PdcpSnSize
  tReordering : PdcpTReordering
  maxCount : PdcpMaxCount
  integrityEnabled : Bool

/-- `pdcp_rx_state`. -/
structure PdcpRxState where
  rxNext : Nat
  rxDeliv : Nat
  rxReord : Nat
  deriving DecidableEq, Repr

/-- `pdcp_rx_sdu_info`. -/
structure PdcpRxSduInfo where
  sdu : List UInt8
  count : Nat
  deriving DecidableEq, Repr

abbrev PdcpRxWindow (cfg : PdcpRxConfig) := SduWindow PdcpRxSduInfo (pdcpWindowSize cfg.snSize)

structure PdcpEntityRx (cfg : PdcpRxConfig) where
  st : PdcpRxState
  rxWindow : PdcpRxWindow cfg
  reorderingTimerRunning : Bool
  maxCountNotified : Bool
  maxCountOverflow : Bool
  /-- The SDUs passed to `upper_dn.on_new_sdu`, oldest first, with their
  COUNT. -/
  delivered : List (Nat × List UInt8)
  /-- The control PDUs passed to `status_handler->on_status_report`. -/
  statusReports : List (List UInt8)

/-- The events of the receiver. -/
inductive PdcpRxEvent
  | pdu (buf : List UInt8)
  | tReorderingExpiry
  | reestablish
  deriving DecidableEq, Repr

/-- What a data PDU can fail with: an assertion of the RX window, or that of
`byte_buffer::trim_head`, "Trying to trim more bytes than those available". -/
inductive PdcpRxAssertion
  | window (a : SduWindowAssertion)
  | trimHead
  deriving DecidableEq, Repr

namespace PdcpEntityRx

variable {cfg : PdcpRxConfig}

def isSrb (cfg : PdcpRxConfig) : Bool := cfg.rbType == .srb

def isUm (cfg : PdcpRxConfig) : Bool := cfg.rlcMode == .um

/-- The entity as constructed: all state variables 0, the window empty. -/
def create (cfg : PdcpRxConfig) : PdcpEntityRx cfg where
  st := ⟨0, 0, 0⟩
  rxWindow := CircularMap.empty
  reorderingTimerRunning := false
  maxCountNotified := false
  maxCountOverflow := false
  delivered := []
  statusReports := []

/-! ## Header and payload -/

/-- `read_data_pdu_header`, for a PDU longer than its header. -/
def readDataPduHeader (cfg : PdcpRxConfig) (buf : List UInt8) : Nat :=
  match cfg.snSize with
  | .size12bits => ((buf.getD 0 0).toNat &&& 0x0f) <<< 8 ||| ((buf.getD 1 0).toNat &&& 0xff)
  | .size18bits =>
    ((buf.getD 0 0).toNat &&& 0x03) <<< 16 ||| ((buf.getD 1 0).toNat &&& 0xff) <<< 8 |||
      ((buf.getD 2 0).toNat &&& 0xff)

/-- `extract_mac`: the PDU less its last four octets, unless it has no more
than four. -/
def extractMac (buf : List UInt8) : List UInt8 :=
  if buf.length ≤ 4 then buf else buf.take (buf.length - 4)

/-- The SDU of a data PDU: the MAC-I is extracted for SRBs and for DRBs
with integrity, then `discard_data_header` drops the header. -/
def dataPduSdu (cfg : PdcpRxConfig) (pdu : List UInt8) : List UInt8 :=
  let pdu := if isSrb cfg || cfg.integrityEnabled then extractMac pdu else pdu
  pdu.drop (pdcpDataPduHeaderSize cfg.snSize)

/-- The PDU as `extract_mac` leaves it, for SRBs and for DRBs with integrity. -/
def withoutMac (cfg : PdcpRxConfig) (pdu : List UInt8) : List UInt8 :=
  if isSrb cfg || cfg.integrityEnabled then extractMac pdu else pdu

/-- `discard_data_header`: `trim_head` of the header, which asserts that the
buffer left by `extract_mac` still holds it. -/
def discardDataHeader (cfg : PdcpRxConfig) (pdu : List UInt8) : Except PdcpRxAssertion (List UInt8) :=
  if (withoutMac cfg pdu).length < pdcpDataPduHeaderSize cfg.snSize then .error .trimHead
  else .ok ((withoutMac cfg pdu).drop (pdcpDataPduHeaderSize cfg.snSize))

/-! ## Delivery -/

/-- Pass the SDU of `count` to the upper layer and remove it from the
window. -/
def deliverSdu (e : PdcpEntityRx cfg) (count : Nat) : Except SduWindowAssertion (PdcpEntityRx cfg) := do
  let info ← e.rxWindow.get count
  let w ← e.rxWindow.removeSn count
  return { e with rxWindow := w, delivered := e.delivered ++ [(count, info.sdu)] }

/-- `deliver_all_consecutive_counts`: deliver from `RX_DELIV` while the
COUNT is stored and not `RX_NEXT`; `fuel` is the distance from `RX_DELIV`
to `RX_NEXT`, which bounds the rounds. -/
def deliverAllConsecutiveCounts (e : PdcpEntityRx cfg) :
    Nat → Except SduWindowAssertion (PdcpEntityRx cfg)
  | 0 => .ok e
  | fuel + 1 =>
    if e.st.rxDeliv ≠ e.st.rxNext ∧ e.rxWindow.hasSn e.st.rxDeliv then do
      let e ← e.deliverSdu e.st.rxDeliv
      deliverAllConsecutiveCounts { e with st.rxDeliv := (e.st.rxDeliv + 1) % 2 ^ 32 } fuel
    else .ok e

/-- The distance from `a` up to `b` in `uint32_t`. -/
def distance (a b : Nat) : Nat := (b + 2 ^ 32 - a) % 2 ^ 32

/-- `deliver_all_consecutive_counts`, with its bound. -/
def deliverConsecutive (e : PdcpEntityRx cfg) : Except SduWindowAssertion (PdcpEntityRx cfg) :=
  e.deliverAllConsecutiveCounts (distance e.st.rxDeliv e.st.rxNext)

/-- The loop of the t-Reordering expiry: `k` rounds that deliver the SDU of
`RX_DELIV` if stored and step `RX_DELIV`. -/
def deliverStored (e : PdcpEntityRx cfg) : Nat → Except SduWindowAssertion (PdcpEntityRx cfg)
  | 0 => .ok e
  | k + 1 => do
    let e ← if e.rxWindow.hasSn e.st.rxDeliv then e.deliverSdu e.st.rxDeliv else pure e
    deliverStored { e with st.rxDeliv := (e.st.rxDeliv + 1) % 2 ^ 32 } k

/-- `handle_t_reordering_expire`: deliver everything below `RX_REORD`, then
the consecutive COUNTs from there, and restart t-Reordering (other than
`ms0`) if COUNTs are still missing. -/
def handleTReorderingExpire (e : PdcpEntityRx cfg) : Except SduWindowAssertion (PdcpEntityRx cfg) := do
  let e ← e.deliverStored (distance e.st.rxDeliv e.st.rxReord)
  let e ← e.deliverConsecutive
  if e.st.rxDeliv < e.st.rxNext then
    if cfg.tReordering = .ms0 then return e
    return { e with st.rxReord := e.st.rxNext, reorderingTimerRunning := true }
  return e

/-! ## Receiving data PDUs -/

/-- `RCVD_COUNT`. -/
def rcvdCount (e : PdcpEntityRx cfg) (sn : Nat) : Nat := countEstimation cfg.snSize e.st.rxDeliv sn

/-- The COUNT checks against `max_count`: notify once past `notify`, and
refuse (raising the overflow flag once) from `hard` on. -/
def checkMaxCount (e : PdcpEntityRx cfg) (count : Nat) : PdcpEntityRx cfg × Bool :=
  let e := if count > cfg.maxCount.notify then { e with maxCountNotified := true } else e
  if count ≥ cfg.maxCount.hard then ({ e with maxCountOverflow := true }, false) else (e, true)

/-- Store the SDU of `count`: a duplicate is dropped, a COUNT found in
the window under another COUNT ("Removing old PDU") is removed first. The
result says whether the SDU was stored. -/
def storeSdu (e : PdcpEntityRx cfg) (count : Nat) (sdu : List UInt8) :
    Except SduWindowAssertion (PdcpEntityRx cfg × Bool) := do
  -- `add_sn` puts a default info in, which is then filled in place
  if e.rxWindow.hasSn count then
    let info ← e.rxWindow.get count
    if info.count = count then return (e, false)
    let w ← e.rxWindow.removeSn count
    let w ← w.addSn count ⟨sdu, count⟩
    return ({ e with rxWindow := w }, true)
  let w ← e.rxWindow.addSn count ⟨sdu, count⟩
  return ({ e with rxWindow := w }, true)

/-- The t-Reordering actions at the end of `handle_data_pdu`. -/
def updateReorderingTimer (e : PdcpEntityRx cfg) : Except SduWindowAssertion (PdcpEntityRx cfg) :=
  let e := if e.reorderingTimerRunning ∧ e.st.rxDeliv ≥ e.st.rxReord then
      { e with reorderingTimerRunning := false } else e
  match cfg.tReordering with
  | .infinity => .ok e
  | .ms0 => { e with st.rxReord := e.st.rxNext }.handleTReorderingExpire
  | .ms _ =>
    if !e.reorderingTimerRunning ∧ e.st.rxDeliv < e.st.rxNext then
      .ok { e with st.rxReord := e.st.rxNext, reorderingTimerRunning := true }
    else .ok e

/-- What `handle_data_pdu` does once the SDU of `count` is stored: move
`RX_NEXT` past it, deliver from `RX_DELIV` when that is `count`, and the
t-Reordering actions. -/
def afterStore (e : PdcpEntityRx cfg) (count : Nat) : Except SduWindowAssertion (PdcpEntityRx cfg) := do
  let e := if count ≥ e.st.rxNext then { e with st.rxNext := (count + 1) % 2 ^ 32 } else e
  let e ← if count = e.st.rxDeliv then e.deliverConsecutive else pure e
  e.updateReorderingTimer

/-- `handle_data_pdu`. The header is discarded, after the MAC-I is
extracted, before the COUNT is checked against `RX_DELIV`. -/
def handleDataPdu (e : PdcpEntityRx cfg) (pdu : List UInt8) :
    Except PdcpRxAssertion (PdcpEntityRx cfg) := do
  if pdu.length ≤ pdcpDataPduHeaderSize cfg.snSize then return e
  let count := e.rcvdCount (readDataPduHeader cfg pdu)
  let (e, accepted) := e.checkMaxCount count
  if !accepted then return e
  let sdu ← discardDataHeader cfg pdu
  if count < e.st.rxDeliv then return e
  let (e, stored) ← (e.storeSdu count sdu).mapError .window
  if !stored then return e
  (e.afterStore count).mapError .window

/-- `handle_control_pdu`: status reports go to the transmitting side. -/
def handleControlPdu (e : PdcpEntityRx cfg) (pdu : List UInt8) : PdcpEntityRx cfg :=
  if ((pdu.getD 0 0).toNat >>> 4) &&& 0x07 = 0 then
    { e with statusReports := e.statusReports ++ [pdu] }
  else e

/-- `handle_pdu`: SRB PDUs and PDUs with the D/C bit set are data. -/
def handlePdu (e : PdcpEntityRx cfg) (buf : List UInt8) : Except PdcpRxAssertion (PdcpEntityRx cfg) :=
  if buf = [] then .ok e
  else if isSrb cfg || decide (((buf.getD 0 0).toNat >>> 7) &&& 0x01 = 1) then e.handleDataPdu buf
  else .ok (e.handleControlPdu buf)

/-! ## Re-establishment -/

/-- `deliver_all_sdus`: every stored COUNT from `RX_DELIV` up to `RX_NEXT`,
`RX_DELIV` left where it is. -/
def deliverAllSdus (e : PdcpEntityRx cfg) : Nat → Nat → Except SduWindowAssertion (PdcpEntityRx cfg)
  | 0, _ => .ok e
  | k + 1, count => do
    let e ← if e.rxWindow.hasSn count then e.deliverSdu count else pure e
    deliverAllSdus e k (count + 1)

/-- `discard_all_sdus`: `k` rounds that drop the SDU of `RX_DELIV` if stored
and step `RX_DELIV`. -/
def discardAllSdus (e : PdcpEntityRx cfg) : Nat → Except SduWindowAssertion (PdcpEntityRx cfg)
  | 0 => .ok e
  | k + 1 => do
    let w ← if e.rxWindow.hasSn e.st.rxDeliv then e.rxWindow.removeSn e.st.rxDeliv
      else pure e.rxWindow
    discardAllSdus { e with rxWindow := w, st.rxDeliv := (e.st.rxDeliv + 1) % 2 ^ 32 } k

/-- `reestablish`: SRBs drop their SDUs, SRBs and UM DRBs stop t-Reordering
and restart from 0, UM DRBs first deliver what they hold. -/
def reestablish (e : PdcpEntityRx cfg) : Except SduWindowAssertion (PdcpEntityRx cfg) := do
  let e ← if isSrb cfg then e.discardAllSdus (distance e.st.rxDeliv e.st.rxNext) else pure e
  if isSrb cfg || isUm cfg then
    let e := { e with reorderingTimerRunning := false }
    let e ← if isUm cfg then e.deliverAllSdus (e.st.rxNext - e.st.rxDeliv) e.st.rxDeliv
      else pure e
    return { e with st := ⟨0, 0, 0⟩ }
  return e

/-- One event. t-Reordering expires only while it runs. -/
def step (e : PdcpEntityRx cfg) : PdcpRxEvent → Except PdcpRxAssertion (PdcpEntityRx cfg)
  | .pdu buf => e.handlePdu buf
  | .tReorderingExpiry =>
    (if e.reorderingTimerRunning then { e with reorderingTimerRunning := false }.handleTReorderingExpire
    else .ok e).mapError .window
  | .reestablish => e.reestablish.mapError .window

/-- The entity states some run of events reaches from creation. -/
def Reachable (cfg : PdcpRxConfig) : PdcpEntityRx cfg → Prop :=
  Transition.Reachable step (create cfg)

end PdcpEntityRx

end SrsRan.Pdcp
