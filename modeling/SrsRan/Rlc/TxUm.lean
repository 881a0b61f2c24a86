import SrsRan.Rlc.UmPdu
import SrsRan.Rlc.SduQueue
import SrsRan.Lib.Transition

/-!
The UM transmitting entity (`rlc_tx_um_entity.cpp`, TS 38.322 5.2.2.1): the
SDU queue, the SDU being sent with its `next_so`, the state variable
`TX_Next`, and `pull_pdu`, which builds one PDU for a grant: a full SDU when
it fits, else the next segment of it. `TX_Next` moves on after the last
segment of an SDU, so a full SDU takes no SN of its own. The PDUs returned
to the lower layer are logged in the state; the notifications to the upper
layer, the metrics and the buffer-state reports are left out.
-/

namespace SrsRan.Rlc

/-- `rlc_tx_um_config`. -/
structure RlcTxUmConfig where
  snFieldLength : RlcUmSnSize
  pdcpSnLen : Pdcp.PdcpSnSize
  queueSize : Nat

def rlcUmPduHeaderSizeCompleteSdu : Nat := 1

/-- `rlc_um_pdu_header_size_no_so`. -/
def rlcUmPduHeaderSizeNoSo : RlcUmSnSize → Nat
  | .size6bits => 1
  | .size12bits => 2

/-- `rlc_um_pdu_header_size_with_so`. -/
def rlcUmPduHeaderSizeWithSo : RlcUmSnSize → Nat
  | .size6bits => 3
  | .size12bits => 4

structure RlcTxUmEntity (cfg : RlcTxUmConfig) where
  txNext : Nat
  sduQueue : RlcSduQueue
  /-- The SDU being sent; an empty buffer when there is none. -/
  sdu : RlcSdu
  /-- The offset of the next segment of `sdu`. -/
  nextSo : Nat
  /-- The PDUs returned by `pull_pdu`, oldest first. -/
  pdus : List (List UInt8)

/-- The events of the transmitter. -/
inductive RlcTxUmEvent
  | sdu (buf : List UInt8) (isRetx : Bool)
  | discardSdu (pdcpSn : Nat)
  | pullPdu (grantLen : Nat)
  deriving DecidableEq, Repr

/-- What the UM transmitter can fail with: the assertion of `get_pdcp_sn`,
or a fault of the SDU queue. -/
inductive RlcTxUmAssertion
  | pdcpSn (a : GetPdcpSnAssertion)
  | sduQueue (f : SduQueueFault)
  deriving DecidableEq, Repr

namespace RlcTxUmEntity

variable {cfg : RlcTxUmConfig}

/-- The SN modulus `mod`. -/
def mod (cfg : RlcTxUmConfig) : Nat := cardinality cfg.snFieldLength.toNumber

def headLenFull : Nat := rlcUmPduHeaderSizeCompleteSdu

def headLenFirst (cfg : RlcTxUmConfig) : Nat := rlcUmPduHeaderSizeNoSo cfg.snFieldLength

def headLenNotFirst (cfg : RlcTxUmConfig) : Nat := rlcUmPduHeaderSizeWithSo cfg.snFieldLength

def create (cfg : RlcTxUmConfig) : RlcTxUmEntity cfg where
  txNext := 0
  sduQueue := RlcSduQueue.create cfg.queueSize
  sdu := { buf := [] }
  nextSo := 0
  pdus := []

/-- `handle_sdu`: the SDU is queued with the PDCP SN read from it; the
retransmission flag is ignored in UM, and a refused SDU is dropped. -/
def handleSdu (e : RlcTxUmEntity cfg) (buf : List UInt8) (_isRetx : Bool) :
    Except RlcTxUmAssertion (RlcTxUmEntity cfg) := do
  let pdcpSn ← (getPdcpSn buf cfg.pdcpSnLen).mapError .pdcpSn
  let (_, q) ← (e.sduQueue.write { buf, pdcpSn }).mapError .sduQueue
  return { e with sduQueue := q }

/-- `discard_sdu`. -/
def discardSdu (e : RlcTxUmEntity cfg) (pdcpSn : Nat) : Except RlcTxUmAssertion (RlcTxUmEntity cfg) := do
  let (_, q) ← (e.sduQueue.tryDiscard pdcpSn).mapError .sduQueue
  return { e with sduQueue := q }

/-- `get_si_and_expected_header_size`: the SI and the header length of a PDU
from offset `so` of an SDU of `sduLen` octets, `none` when no payload fits
the grant. The member `next_so` is read beside the argument `so`. -/
def getSiAndExpectedHeaderSize (e : RlcTxUmEntity cfg) (so sduLen grantLen : Nat) :
    Option (RlcSiField × Nat) :=
  if so = 0 then
    if sduLen ≤ grantLen - headLenFull then some (.fullSdu, headLenFull)
    else if grantLen ≤ headLenFirst cfg then none
    else some (.firstSegment, headLenFirst cfg)
  else if grantLen ≤ headLenNotFirst cfg then none
  else if sduLen - e.nextSo ≤ grantLen - headLenNotFirst cfg then
    some (.lastSegment, headLenNotFirst cfg)
  else some (.middleSegment, headLenNotFirst cfg)

/-- The SDU to send from: the one being sent, or else the next one read
from the queue; `false` when there is none. -/
def takeSdu (e : RlcTxUmEntity cfg) : RlcTxUmEntity cfg × Bool :=
  if e.sdu.buf.isEmpty then
    match e.sduQueue.read with
    | (some sdu, q) => ({ e with sdu, sduQueue := q }, true)
    | (none, q) => ({ e with sduQueue := q }, false)
  else (e, true)

/-- The header of the next PDU: its SN is `TX_Next` and its SO `next_so`,
taken as a `uint16_t`. -/
def pduHeader (e : RlcTxUmEntity cfg) (si : RlcSiField) : RlcUmPduHeader :=
  ⟨si, cfg.snFieldLength, e.txNext, UInt16.ofNat e.nextSo⟩

/-- The PDU for a grant, once the SDU is taken: the header, then as much of
the SDU from `next_so` as fits. -/
def buildPdu (e : RlcTxUmEntity cfg) (grantLen : Nat) : RlcTxUmEntity cfg × List UInt8 :=
  match e.getSiAndExpectedHeaderSize e.nextSo e.sdu.buf.length grantLen with
  | none => (e, [])
  | some (si, _) =>
    let headerBytes := rlcUmWriteDataPduHeader (e.pduHeader si)
    let space := grantLen - headerBytes.length
    let payloadLen :=
      if space ≥ e.sdu.buf.length - e.nextSo then e.sdu.buf.length - e.nextSo else space
    let payload := copySegments (byteBufferView e.sdu.buf e.nextSo payloadLen) space
    if payload.length = 0 ∨ payload.length ≠ payloadLen then (e, [])
    else
      let e := if si = .fullSdu ∨ si = .lastSegment then
          { e with sdu := { e.sdu with buf := [] }, nextSo := 0 }
        else { e with nextSo := e.nextSo + payloadLen }
      let e := if si = .lastSegment then { e with txNext := (e.txNext + 1) % mod cfg } else e
      (e, headerBytes ++ payload)

/-- `pull_pdu`: the entity and the PDU written, empty when none is. -/
def pullPdu (e : RlcTxUmEntity cfg) (grantLen : Nat) : RlcTxUmEntity cfg × List UInt8 :=
  if grantLen ≤ headLenFull then (e, [])
  else
    let (e, found) := e.takeSdu
    if !found then (e, []) else e.buildPdu grantLen

/-- One event; a PDU written goes to the log. -/
def step (e : RlcTxUmEntity cfg) : RlcTxUmEvent → Except RlcTxUmAssertion (RlcTxUmEntity cfg)
  | .sdu buf isRetx => e.handleSdu buf isRetx
  | .discardSdu pdcpSn => e.discardSdu pdcpSn
  | .pullPdu grantLen =>
    let (e, pdu) := e.pullPdu grantLen
    .ok (if pdu.isEmpty then e else { e with pdus := e.pdus ++ [pdu] })

/-- The entity states some run of events reaches from creation. -/
def Reachable (cfg : RlcTxUmConfig) : RlcTxUmEntity cfg → Prop :=
  Transition.Reachable step (create cfg)

end RlcTxUmEntity

end SrsRan.Rlc
