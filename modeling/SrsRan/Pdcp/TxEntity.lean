import SrsRan.Pdcp.Common
import SrsRan.Support.BitEncoding
import SrsRan.Lib.Transition

/-!
The PDCP transmitting entity (`pdcp_entity_tx.cpp`, TS 38.323 5.2.1): its
state variables, the TX window of SDU infos keyed by COUNT, the SDUs from
the upper layer, the transmit and delivery notifications of the lower
layer, the discard timers, status reports, data recovery and
re-establishment.

Security is NIA0 with NEA0: the MAC-I appended is four zero octets and
ciphering leaves the data as it is. What the entity hands to the lower
layer (data PDUs, status reports, discards) is logged in the state;
`on_max_count_reached` and `on_protocol_failure` are called exactly when
their flags are raised. A discard timer expires only while its SDU info is
in the window: the timer belongs to the info and goes with it. The loops of
the source get the number of rounds they can take as their bound.
-/

namespace SrsRan.Pdcp

/-- `pdcp_discard_timer`; `ms d` stands for the enumerators `ms10` to
`ms1500`, whose durations the entity only hands to the timer. -/
inductive PdcpDiscardTimer
  | ms (d : Nat)
  | infinity
  deriving DecidableEq, Repr

/-- `pdcp_tx_config`, with the integrity switch of the entity (NIA0). -/
structure PdcpTxConfig where
  rbType : PdcpRbType
  rlcMode : PdcpRlcMode
  snSize : PdcpSnSize
  discardTimer : Option PdcpDiscardTimer
  statusReportRequired : Bool
  /-- `custom.rlc_sdu_queue`. -/
  rlcSduQueue : Nat
  maxCount : PdcpMaxCount
  integrityEnabled : Bool

/-- `pdcp_tx_state`. -/
structure PdcpTxState where
  txNext : Nat
  txTrans : Nat
  txNextAck : Nat
  deriving DecidableEq, Repr

/-- `pdcp_tx_sdu_info`; the discard timer is represented by whether it
runs. -/
structure PdcpTxSduInfo where
  count : Nat
  sdu : List UInt8
  discardTimerRunning : Bool
  deriving DecidableEq, Repr

/-- The assertions of the transmitter. -/
inductive PdcpTxAssertion
  | window (a : SduWindowAssertion)
  /-- "Invalid SN size for SRB. sn_size={}" in `write_data_pdu_header`. -/
  | invalidSnSizeForSrb
  /-- "Invalid bearer type for data recovery." -/
  | invalidBearerForDataRecovery
  deriving DecidableEq, Repr

/-- A call on the lower layer. -/
inductive PdcpTxLowerEvent
  /-- `on_new_pdu` with a data PDU, logged with its COUNT. -/
  | dataPdu (count : Nat) (pdu : List UInt8) (isRetx : Bool)
  /-- `on_new_pdu` with the status report the receiving entity compiles. -/
  | statusReport
  /-- `on_discard_pdu`. -/
  | discardPdu (sn : Nat)
  deriving DecidableEq, Repr

abbrev PdcpTxWindow (cfg : PdcpTxConfig) := SduWindow PdcpTxSduInfo (pdcpWindowSize cfg.snSize)

structure PdcpEntityTx (cfg : PdcpTxConfig) where
  st : PdcpTxState
  txWindow : PdcpTxWindow cfg
  maxCountNotified : Bool
  maxCountOverflow : Bool
  /-- The calls on `lower_dn`, oldest first. -/
  lowerDn : List PdcpTxLowerEvent

/-- The events of the transmitter. -/
inductive PdcpTxEvent
  | sdu (buf : List UInt8)
  | transmitNotification (sn : Nat)
  | deliveryNotification (sn : Nat)
  | discardTimerExpiry (count : Nat)
  | statusReport (buf : List UInt8)
  | dataRecovery
  | reestablish
  deriving DecidableEq, Repr

namespace PdcpEntityTx

variable {cfg : PdcpTxConfig}

def isSrb (cfg : PdcpTxConfig) : Bool := cfg.rbType == .srb

def isUm (cfg : PdcpTxConfig) : Bool := cfg.rlcMode == .um

def isAm (cfg : PdcpTxConfig) : Bool := cfg.rlcMode == .am

/-- The entity as constructed: all state variables 0, the window empty. -/
def create (cfg : PdcpTxConfig) : PdcpEntityTx cfg where
  st := ⟨0, 0, 0⟩
  txWindow := CircularMap.empty
  maxCountNotified := false
  maxCountOverflow := false
  lowerDn := []

/-! ## PDUs -/

/-- `write_data_pdu_header`: the header in front of the SDU. -/
def writeDataPduHeader (cfg : PdcpTxConfig) (sn : Nat) (buf : List UInt8) :
    Except PdcpTxAssertion (List UInt8) :=
  if isSrb cfg && cfg.snSize == .size18bits then .error .invalidSnSizeForSrb else
  let first := if isSrb cfg then 0x00 else 0x80
  match cfg.snSize with
  | .size12bits => .ok (UInt8.ofNat (first ||| (sn &&& 0x00000f00) >>> 8) ::
      UInt8.ofNat (sn &&& 0x000000ff) :: buf)
  | .size18bits => .ok (UInt8.ofNat (first ||| (sn &&& 0x00030000) >>> 16) ::
      UInt8.ofNat ((sn &&& 0x0000ff00) >>> 8) :: UInt8.ofNat (sn &&& 0x000000ff) :: buf)

/-- `apply_ciphering_and_integrity_protection` with NIA0 and NEA0: a zero
MAC-I for SRBs and for DRBs with integrity. -/
def applyCipheringAndIntegrityProtection (cfg : PdcpTxConfig) (buf : List UInt8) : List UInt8 :=
  if isSrb cfg || cfg.integrityEnabled then buf ++ [0, 0, 0, 0] else buf

/-- `write_data_pdu_to_lower_layers`. -/
def writeDataPduToLowerLayers (e : PdcpEntityTx cfg) (count : Nat) (buf : List UInt8)
    (isRetx : Bool) : PdcpEntityTx cfg :=
  { e with lowerDn := e.lowerDn ++ [.dataPdu count buf isRetx] }

def window {α : Type} (x : Except SduWindowAssertion α) : Except PdcpTxAssertion α :=
  x.mapError .window

/-! ## Discarding -/

/-- The loop of `discard_pdu`: step `TX_NEXT_ACK` over the absent COUNTs
below `TX_NEXT`, for at most `k` rounds. -/
def skipAbsent (e : PdcpEntityTx cfg) : Nat → PdcpEntityTx cfg
  | 0 => e
  | k + 1 =>
    if e.st.txNextAck < e.st.txNext ∧ !e.txWindow.hasSn e.st.txNextAck then
      skipAbsent { e with st.txNextAck := (e.st.txNextAck + 1) % 2 ^ 32 } k
    else e

/-- `TX_TRANS` is moved up to `TX_NEXT_ACK` when it falls behind it. -/
def raiseTxTrans (e : PdcpEntityTx cfg) : PdcpEntityTx cfg :=
  if e.st.txTrans < e.st.txNextAck then { e with st.txTrans := e.st.txNextAck } else e

/-- `discard_pdu`. -/
def discardPdu (e : PdcpEntityTx cfg) (count : Nat) : Except PdcpTxAssertion (PdcpEntityTx cfg) := do
  if cfg.discardTimer.isNone then return e
  if count < e.st.txNextAck ∨ count ≥ e.st.txNext then return e
  if !e.txWindow.hasSn count then return e
  let e := { e with lowerDn := e.lowerDn ++ [PdcpTxLowerEvent.discardPdu (pdcpComputeSn count cfg.snSize)] }
  let w ← window (e.txWindow.removeSn count)
  let e := { e with txWindow := w }
  return (e.skipAbsent (e.st.txNext - e.st.txNextAck)).raiseTxTrans

/-- The loop of `stop_discard_timer`: `k` rounds that remove the SDU of
`TX_NEXT_ACK` if stored and step `TX_NEXT_ACK`. -/
def removeAcked (e : PdcpEntityTx cfg) : Nat → Except PdcpTxAssertion (PdcpEntityTx cfg)
  | 0 => .ok e
  | k + 1 => do
    let w ← if e.txWindow.hasSn e.st.txNextAck then window (e.txWindow.removeSn e.st.txNextAck)
      else pure e.txWindow
    removeAcked { e with txWindow := w, st.txNextAck := (e.st.txNextAck + 1) % 2 ^ 32 } k

/-- `stop_discard_timer`: everything up to `highest_count` is done with. -/
def stopDiscardTimer (e : PdcpEntityTx cfg) (highestCount : Nat) :
    Except PdcpTxAssertion (PdcpEntityTx cfg) := do
  if cfg.discardTimer.isNone then return e
  if highestCount < e.st.txNextAck ∨ highestCount ≥ e.st.txNext then return e
  let e ← e.removeAcked (highestCount + 1 - e.st.txNextAck)
  return e.raiseTxTrans

/-! ## SDUs from the upper layer -/

/-- The checks that drop an SDU before it is given a COUNT: an invalid
state, a full RLC queue, a full window. -/
def dropsSdu (e : PdcpEntityTx cfg) : Bool :=
  e.st.txTrans > e.st.txNext || e.st.txNext - e.st.txTrans ≥ cfg.rlcSduQueue ||
    e.st.txNext - e.st.txTrans ≥ pdcpWindowSize cfg.snSize - 1

/-- The discard timer and the window entry of the SDU of `TX_NEXT`, when a
discard timer is configured: the entry of `TX_NEXT` itself, if there is
one, is discarded first. -/
def storeSdu (e : PdcpEntityTx cfg) (sdu : List UInt8) : Except PdcpTxAssertion (PdcpEntityTx cfg) :=
  match cfg.discardTimer with
  | none => .ok e
  | some t => do
    let e ← if e.txWindow.hasSn e.st.txNext then do
        let old ← window (e.txWindow.get e.st.txNext)
        e.discardPdu old.count
      else pure e
    let info : PdcpTxSduInfo :=
      ⟨e.st.txNext, if isAm cfg then sdu else [], t != .infinity⟩
    let w ← window (e.txWindow.addSn e.st.txNext info)
    return { e with txWindow := w }

/-- `handle_sdu`. -/
def handleSdu (e : PdcpEntityTx cfg) (buf : List UInt8) : Except PdcpTxAssertion (PdcpEntityTx cfg) := do
  if e.dropsSdu then return e
  if e.st.txNext ≥ cfg.maxCount.hard then return { e with maxCountOverflow := true }
  let e := if e.st.txNext ≥ cfg.maxCount.notify then { e with maxCountNotified := true } else e
  let pdu ← writeDataPduHeader cfg (pdcpComputeSn e.st.txNext cfg.snSize) buf
  let pdu := applyCipheringAndIntegrityProtection cfg pdu
  let e ← e.storeSdu buf
  let e := e.writeDataPduToLowerLayers e.st.txNext pdu false
  return { e with st.txNext := (e.st.txNext + 1) % 2 ^ 32 }

/-! ## Notifications from the lower layer -/

/-- `notification_count_estimation`: the lower edge is `TX_NEXT_ACK` with
a discard timer and `TX_TRANS` without. -/
def notificationCountEstimation (e : PdcpEntityTx cfg) (sn : Nat) : Nat :=
  countEstimation cfg.snSize (if cfg.discardTimer.isSome then e.st.txNextAck else e.st.txTrans) sn

/-- `handle_transmit_notification`. -/
def handleTransmitNotification (e : PdcpEntityTx cfg) (sn : Nat) :
    Except PdcpTxAssertion (PdcpEntityTx cfg) := do
  if sn ≥ pdcpSnCardinality cfg.snSize then return e
  let count := e.notificationCountEstimation sn
  if count < e.st.txTrans then return e
  if count ≥ e.st.txNext then return e
  let e := { e with st.txTrans := count + 1 }
  if cfg.discardTimer.isNone then return e
  if isUm cfg then e.stopDiscardTimer count else return e

/-- `handle_delivery_notification`. -/
def handleDeliveryNotification (e : PdcpEntityTx cfg) (sn : Nat) :
    Except PdcpTxAssertion (PdcpEntityTx cfg) := do
  if sn ≥ pdcpSnCardinality cfg.snSize then return e
  let count := e.notificationCountEstimation sn
  if count ≥ e.st.txNext then return e
  if cfg.discardTimer.isNone then return e
  if isAm cfg then e.stopDiscardTimer count else return e

/-! ## Status reports -/

/-- `bit_decoder::unpack` as `handle_status_report` reads it: whether it
returned true, the value it left behind and the decoder after it; when it
meets the end of the buffer, the bits read so far stay in the value. -/
def unpackPartial : Nat → BitReader → Nat → Nat → Bool × Nat × BitReader
  | 0, r, val, _ => (true, val, r)
  | fuel + 1, r, val, nBits =>
    if nBits = 0 then (true, val, r) else
    match r.buffer[r.it]? with
    | none => (false, val, r)
    | some c =>
      let (r', val', nBits') := r.unpackStep c val nBits
      unpackPartial fuel r' val' nBits'

/-- `unpack(val, n_bits)` from `val = 0`. -/
def unpackField (r : BitReader) (nBits : Nat) : Bool × Nat × BitReader := unpackPartial nBits r 0 nBits

/-- The bits of a buffer not yet read. -/
def bitsLeft (r : BitReader) : Nat := 8 * r.buffer.length - r.nofBits

/-- The loop over the bitmap: one bit per round while bits are left; a set
bit discards the COUNT after `fmc`, which moves on either way. -/
def discardBitmap (e : PdcpEntityTx cfg) : Nat → BitReader → Nat →
    Except PdcpTxAssertion (PdcpEntityTx cfg)
  | 0, _, _ => .ok e
  | k + 1, r, fmc =>
    match unpackField r 1 with
    | (false, _, _) => .ok e
    | (true, bit, r) => do
      let fmc := (fmc + 1) % 2 ^ 32
      let e ← if bit = 1 then e.discardPdu fmc else pure e
      discardBitmap e k r fmc

/-- The loop that discards every COUNT from `count` for `k` rounds. -/
def discardFrom (e : PdcpEntityTx cfg) : Nat → Nat → Except PdcpTxAssertion (PdcpEntityTx cfg)
  | 0, _ => .ok e
  | k + 1, count => do
    let e ← e.discardPdu count
    discardFrom e k (count + 1)

/-- `handle_status_report`: a control PDU of type status report with clear
reserved bits discards every COUNT below the FMC and every COUNT whose
bitmap bit is set. -/
def handleStatusReport (e : PdcpEntityTx cfg) (status : List UInt8) :
    Except PdcpTxAssertion (PdcpEntityTx cfg) := do
  let r := BitReader.ofBuffer status
  let (_, dc, r) := unpackField r 1
  if dc ≠ 0 then return e
  let (_, cpt, r) := unpackField r 3
  if cpt ≠ 0 then return e
  let (_, reserved, r) := unpackField r 4
  if reserved ≠ 0 then return e
  let (_, fmc, r) := unpackField r 32
  let e ← e.discardFrom (fmc - e.st.txNextAck) e.st.txNextAck
  e.discardBitmap (bitsLeft r) r fmc

/-! ## Retransmission and re-establishment -/

/-- The loop of `retransmit_all_pdus` over `k` COUNTs from `count`. -/
def retransmitFrom (e : PdcpEntityTx cfg) : Nat → Nat → Except PdcpTxAssertion (PdcpEntityTx cfg)
  | 0, _ => .ok e
  | k + 1, count => do
    let e ← if e.txWindow.hasSn count then do
        let info ← window (e.txWindow.get count)
        let pdu ← writeDataPduHeader cfg (pdcpComputeSn info.count cfg.snSize) info.sdu
        pure (e.writeDataPduToLowerLayers info.count (applyCipheringAndIntegrityProtection cfg pdu) true)
      else pure e
    retransmitFrom e k (count + 1)

/-- `retransmit_all_pdus`: AM with a discard timer only; `TX_TRANS` goes
back to `TX_NEXT_ACK`. -/
def retransmitAllPdus (e : PdcpEntityTx cfg) : Except PdcpTxAssertion (PdcpEntityTx cfg) := do
  if cfg.discardTimer.isNone then return e
  if !isAm cfg then return e
  let e := { e with st.txTrans := e.st.txNextAck }
  e.retransmitFrom (e.st.txNext - e.st.txNextAck) e.st.txNextAck

/-- `data_recovery`, for AM DRBs. -/
def dataRecovery (e : PdcpEntityTx cfg) : Except PdcpTxAssertion (PdcpEntityTx cfg) := do
  if !(cfg.rbType == .drb && isAm cfg) then throw .invalidBearerForDataRecovery
  let e := if cfg.statusReportRequired then { e with lowerDn := e.lowerDn ++ [.statusReport] } else e
  e.retransmitAllPdus

/-- `reestablish`: SRBs and UM DRBs `reset`, AM bearers retransmit. -/
def reestablish (e : PdcpEntityTx cfg) : Except PdcpTxAssertion (PdcpEntityTx cfg) := do
  let e := if isSrb cfg || isUm cfg then { e with st := ⟨0, 0, 0⟩, txWindow := CircularMap.empty }
    else e
  if isAm cfg then e.retransmitAllPdus else return e

/-- One event. A discard timer expires only while its SDU info is stored
with a running timer. -/
def step (e : PdcpEntityTx cfg) : PdcpTxEvent → Except PdcpTxAssertion (PdcpEntityTx cfg)
  | .sdu buf => e.handleSdu buf
  | .transmitNotification sn => e.handleTransmitNotification sn
  | .deliveryNotification sn => e.handleDeliveryNotification sn
  | .discardTimerExpiry count =>
    match CircularMap.get? e.txWindow count with
    | some info => if info.discardTimerRunning then e.discardPdu count else .ok e
    | none => .ok e
  | .statusReport buf => e.handleStatusReport buf
  | .dataRecovery => e.dataRecovery
  | .reestablish => e.reestablish

/-- The entity states some run of events reaches from creation. -/
def Reachable (cfg : PdcpTxConfig) : PdcpEntityTx cfg → Prop :=
  Transition.Reachable step (create cfg)

end PdcpEntityTx

end SrsRan.Pdcp
