import SrsRan.Ran.SlotPoint

/-!
HARQ processes of the UE scheduler (`harq_process.h`, `harq_process.cpp`).
A process holds transport blocks that move between `empty`, `waiting_ack`
and `pending_retx` on a new transmission, a retransmission, HARQ-ACK or CRC
feedback, a slot indication and a cancellation. A DL process has two TBs
and counts the PUCCH HARQ-ACKs it still expects; an UL process has one TB.
`harq_entity` owns the processes of a UE and routes feedback to the one it
is meant for.

An `srsran_assert` on a precondition is an error of the step. A TB index
is a `Fin`, which holds its bound check. Logging, the NTN history
(`ntn_cs_koffset = 0`) and the allocation parameters kept for link
adaptation are left out, but for the TBS that `crc_info` returns.
-/

set_option linter.constructorNameAsVariable false

namespace SrsRan.Sched

open SrsRan.Ran

/-- `transport_block::state_t`. -/
inductive TbState
  | empty
  | pendingRetx
  | waitingAck
  deriving DecidableEq, Repr

/-- `harq_process::transport_block`, with its default member values. -/
structure TransportBlock where
  state : TbState := .empty
  ndi : Bool := false
  nofRetxs : Nat := 0
  maxNofHarqRetxs : Nat := 0
  harqBitIdx : UInt8 := 0
  ackOnTimeout : Bool := false
  deriving DecidableEq, Repr

/-- `transport_block::empty`. -/
def TransportBlock.empty (tb : TransportBlock) : Bool := tb.state == .empty

/-- `harq_process::DEFAULT_ACK_TIMEOUT_SLOTS`. -/
def defaultAckTimeoutSlots : UInt32 := 256

/-- `harq_process::SHORT_ACK_TIMEOUT_DTX`. -/
def shortAckTimeoutDtx : UInt32 := 8

/-- `harq_process::MAX_NOF_TBS`. -/
def maxNofTbs (isDownlink : Bool) : Nat := if isDownlink then 2 else 1

instance (isDownlink : Bool) : NeZero (maxNofTbs isDownlink) := ⟨by cases isDownlink <;> decide⟩

/-- The assertions of the HARQ processes. -/
inductive HarqAssertion
  /-- "Cannot allocate newTx non-empty HARQ TB" -/
  | newTxNonEmpty
  /-- "Cannot allocate reTx in HARQ without a pending reTx" -/
  | retxWithoutPending
  /-- "This function should only be called when 2 TBs are active" -/
  | tx2TbSize
  /-- "At least one TB must be enabled in a HARQ allocation" -/
  | tx2TbNoneEnabled
  deriving DecidableEq, Repr

/-- `detail::harq_process<IsDownlink>`: the process id, its ACK wait, the
slots of the last indication, transmission, expected ACK and ACK timeout,
and its `MAX_NOF_TBS` transport blocks. -/
structure HarqProcess (isDownlink : Bool) where
  id : Nat
  maxAckWaitInSlots : UInt32
  lastSlotInd : SlotPoint
  lastSlotTx : SlotPoint
  lastSlotAck : SlotPoint
  slotAckTimeout : SlotPoint
  tbArray : List TransportBlock
  length_tbArray : tbArray.length = maxNofTbs isDownlink

/-- The constructor `harq_process(h_id, logger, timeout_notif,
max_ack_wait_in_slots)`: invalid slots, empty TBs. -/
def harqProcess (isDownlink : Bool) (hId : Nat) (maxAckWaitInSlots : UInt32) : HarqProcess isDownlink where
  id := hId
  maxAckWaitInSlots := maxAckWaitInSlots
  lastSlotInd := .invalid
  lastSlotTx := .invalid
  lastSlotAck := .invalid
  slotAckTimeout := .invalid
  tbArray := List.replicate (maxNofTbs isDownlink) {}
  length_tbArray := List.length_replicate

namespace HarqProcess

variable {d : Bool}

/-- `tb(tb_idx)`. -/
def tb (h : HarqProcess d) (i : Fin (maxNofTbs d)) : TransportBlock :=
  h.tbArray.get (i.cast h.length_tbArray.symm)

/-- `tb_array[tb_idx] = tb`. -/
def setTb (h : HarqProcess d) (i : Fin (maxNofTbs d)) (tb : TransportBlock) : HarqProcess d :=
  { h with
    tbArray := h.tbArray.set i tb
    length_tbArray := by rw [List.length_set]; exact h.length_tbArray }

/-- `empty(tb_idx)`. -/
def empty (h : HarqProcess d) (i : Fin (maxNofTbs d)) : Bool := (h.tb i).empty

/-- `has_pending_retx(tb_idx)`. -/
def hasPendingRetx (h : HarqProcess d) (i : Fin (maxNofTbs d)) : Bool := (h.tb i).state == .pendingRetx

/-- `is_waiting_ack(tb_idx)`. -/
def isWaitingAck (h : HarqProcess d) (i : Fin (maxNofTbs d)) : Bool := (h.tb i).state == .waitingAck

/-! ### `slot_indication` -/

/-- One TB of the loop of `slot_indication`, `last_slot_ind` already set to
`slotTx`. `none` is the `return` of a process whose ACK timeout has not
passed; otherwise the TB after the slot and whether the timeout was
notified. -/
def slotIndicationTb (h : HarqProcess d) (slotTx : SlotPoint) (tb : TransportBlock) :
    Except SlotAssertion (Option (TransportBlock × Bool)) :=
  if tb.empty then .ok (some (tb, false))
  else
    match h.slotAckTimeout.gt h.lastSlotInd with
    | .error e => .error e
    | .ok true => .ok none
    | .ok false =>
      if tb.state = .pendingRetx then
        -- [Implementation-defined] the time the policy is given to retransmit
        let maxNofSlotsForRetx : UInt32 := UInt32.ofNat (h.lastSlotAck.nofSlotsPerSystemFrame / 4)
        match slotTx.ge (h.lastSlotAck.addUnsigned maxNofSlotsForRetx) with
        | .error e => .error e
        | .ok discard => .ok (some (if discard then { tb with state := .empty } else tb, false))
      else
        -- still waiting for HARQ-ACKs: emptied, and the timeout reported with
        -- NACK unless one positive ACK came
        .ok (some ({ tb with state := .empty }, !tb.ackOnTimeout))

/-- The loop of `slot_indication` over the TBs, with the number of timeouts
notified. -/
def slotIndicationTbs (h : HarqProcess d) (slotTx : SlotPoint) :
    List TransportBlock → Except SlotAssertion (List TransportBlock × Nat)
  | [] => .ok ([], 0)
  | tb :: rest =>
    match slotIndicationTb h slotTx tb with
    | .error e => .error e
    | .ok none => .ok (tb :: rest, 0)
    | .ok (some (tb', notified)) =>
      match slotIndicationTbs h slotTx rest with
      | .error e => .error e
      | .ok (rest', n) => .ok (tb' :: rest', (if notified then 1 else 0) + n)

theorem length_of_slotIndicationTbs {h : HarqProcess d} {slotTx : SlotPoint} :
    ∀ {tbs tbs' : List TransportBlock} {n : Nat}, slotIndicationTbs h slotTx tbs = .ok (tbs', n) →
      tbs'.length = tbs.length
  | [], _, _, hrun => by cases hrun; rfl
  | tb :: rest, tbs', n, hrun => by
    unfold slotIndicationTbs at hrun
    split at hrun
    · cases hrun
    · cases hrun; rfl
    · split at hrun
      · cases hrun
      · rename_i hrest
        cases hrun
        exact congrArg (· + 1) (length_of_slotIndicationTbs hrest)

/-- `slot_indication(slot_tx)`: the process and the timeouts it notified. -/
def slotIndication (h : HarqProcess d) (slotTx : SlotPoint) : Except SlotAssertion (HarqProcess d × Nat) :=
  let h := { h with lastSlotInd := slotTx }
  match hrun : slotIndicationTbs h slotTx h.tbArray with
  | .error e => .error e
  | .ok (tbs, n) =>
    .ok ({ h with
            tbArray := tbs
            length_tbArray := (length_of_slotIndicationTbs hrun).trans h.length_tbArray }, n)

/-! ### Feedback, transmissions and cancellation -/

/-- `ack_info_common(tb_idx, ack)`: `false` on an empty TB; else the TB is
emptied on an ACK, and on a NACK waits for a retransmission while retxs are
left. -/
def ackInfoCommon (h : HarqProcess d) (i : Fin (maxNofTbs d)) (ack : Bool) : HarqProcess d × Bool :=
  if h.empty i then (h, false)
  else
    let tb := h.tb i
    (h.setTb i { tb with
        state := if ack then .empty else if tb.nofRetxs < tb.maxNofHarqRetxs then .pendingRetx else .empty },
      true)

/-- What `reset_tb` writes in a TB. -/
def resetBlock (tb : TransportBlock) : TransportBlock :=
  { tb with state := .empty, nofRetxs := 0, ackOnTimeout := false }

/-- `reset_tb(tb_idx)`. -/
def resetTb (h : HarqProcess d) (i : Fin (maxNofTbs d)) : HarqProcess d := h.setTb i (resetBlock (h.tb i))

/-- `reset()`: `reset_tb` of every TB. -/
def reset (h : HarqProcess d) : HarqProcess d :=
  { h with
    tbArray := h.tbArray.map resetBlock
    length_tbArray := by rw [List.length_map]; exact h.length_tbArray }

/-- `cancel_harq_retxs(tb_idx)`: no retransmission beyond those made. -/
def cancelHarqRetxs (h : HarqProcess d) (i : Fin (maxNofTbs d)) : HarqProcess d :=
  if h.empty i then h else h.setTb i { h.tb i with maxNofHarqRetxs := (h.tb i).nofRetxs }

/-- `tx_common(slot_tx, slot_ack)`. -/
def txCommon (h : HarqProcess d) (slotTx slotAck : SlotPoint) : HarqProcess d :=
  { h with
    lastSlotTx := slotTx
    lastSlotAck := slotAck
    slotAckTimeout := slotAck.addUnsigned h.maxAckWaitInSlots }

/-- `new_tx_tb_common(tb_idx, max_nof_harq_retxs, harq_bit_idx)`. -/
def newTxTbCommon (h : HarqProcess d) (i : Fin (maxNofTbs d)) (maxNofHarqRetxs : Nat) (harqBitIdx : UInt8) :
    Except HarqAssertion (HarqProcess d) :=
  if !h.empty i then .error .newTxNonEmpty
  else
    let tb := h.tb i
    .ok (h.setTb i { tb with
      state := .waitingAck
      ndi := !tb.ndi
      maxNofHarqRetxs := maxNofHarqRetxs
      nofRetxs := 0
      harqBitIdx := harqBitIdx
      ackOnTimeout := false })

/-- `new_retx_tb_common(tb_idx, harq_bit_idx)`. -/
def newRetxTbCommon (h : HarqProcess d) (i : Fin (maxNofTbs d)) (harqBitIdx : UInt8) :
    Except HarqAssertion (HarqProcess d) :=
  if (h.tb i).state ≠ .pendingRetx then .error .retxWithoutPending
  else
    let tb := h.tb i
    .ok (h.setTb i { tb with
      state := .waitingAck
      harqBitIdx := harqBitIdx
      nofRetxs := tb.nofRetxs + 1
      ackOnTimeout := false })

end HarqProcess

/-! ## DL HARQ processes -/

/-- `mac_harq_ack_report_status`. -/
inductive MacHarqAckReportStatus
  | nack
  | ack
  | dtx
  deriving DecidableEq, Repr

/-- `dl_harq_process::status_update`. -/
inductive StatusUpdate
  | acked
  | nacked
  | noUpdate
  | error
  deriving DecidableEq, Repr

/-- `dl_harq_process::tb_tx_request`. -/
inductive TbTxRequest
  | newtx
  | retx
  | disabled
  deriving DecidableEq, Repr

/-- `dl_harq_process`: the PUCCH HARQ-ACKs still expected, the HARQ-ACK
chosen so far and the SNR of its PUCCH. -/
structure DlHarqProcess extends HarqProcess true where
  pucchAckToReceive : Nat := 0
  chosenAck : MacHarqAckReportStatus := .dtx
  lastPucchSnr : Option Float := none

namespace DlHarqProcess

/-- `dl_harq_process::empty()`: both TBs empty. -/
def empty (h : DlHarqProcess) : Bool := h.toHarqProcess.empty 0 && h.toHarqProcess.empty 1

/-- `new_tx(pdsch_slot, k1, max_harq_nof_retxs, harq_bit_idx, ...)`: the ACK
expected `k1` slots after the PDSCH, and no HARQ-ACK received yet. -/
def newTx (h : DlHarqProcess) (pdschSlot : SlotPoint) (k1 : UInt32) (maxHarqNofRetxs : Nat) (harqBitIdx : UInt8) :
    Except HarqAssertion DlHarqProcess :=
  match (h.txCommon pdschSlot (pdschSlot.addUnsigned k1)).newTxTbCommon 0 maxHarqNofRetxs harqBitIdx with
  | .error e => .error e
  | .ok b => .ok { h with toHarqProcess := b, pucchAckToReceive := 0, chosenAck := .dtx, lastPucchSnr := none }

/-- `new_retx(pdsch_slot, k1, harq_bit_idx)`. -/
def newRetx (h : DlHarqProcess) (pdschSlot : SlotPoint) (k1 : UInt32) (harqBitIdx : UInt8) :
    Except HarqAssertion DlHarqProcess :=
  match (h.txCommon pdschSlot (pdschSlot.addUnsigned k1)).newRetxTbCommon 0 harqBitIdx with
  | .error e => .error e
  | .ok b => .ok { h with toHarqProcess := b, pucchAckToReceive := 0, chosenAck := .dtx, lastPucchSnr := none }

/-- One TB of the loop of `tx_2_tb`. -/
def tx2TbStep (maxHarqNofRetxs : Nat) (harqBitIdx : UInt8) (b : HarqProcess true) (i : Fin (maxNofTbs true)) :
    TbTxRequest → Except HarqAssertion (HarqProcess true)
  | .newtx => b.newTxTbCommon i maxHarqNofRetxs harqBitIdx
  | .retx => b.newRetxTbCommon i harqBitIdx
  | .disabled => .ok b

/-- `tx_2_tb(pdsch_slot, k1, tb_tx_req, max_harq_nof_retxs, harq_bit_idx)`:
each of the two TBs newly transmitted, retransmitted or left alone. The
PUCCH counter and the chosen HARQ-ACK are left as they were. -/
def tx2Tb (h : DlHarqProcess) (pdschSlot : SlotPoint) (k1 : UInt32) (tbTxReq : List TbTxRequest)
    (maxHarqNofRetxs : Nat) (harqBitIdx : UInt8) : Except HarqAssertion DlHarqProcess :=
  match tbTxReq with
  | [r0, r1] =>
    if r0 = .disabled ∧ r1 = .disabled then .error .tx2TbNoneEnabled
    else
      let b := h.txCommon pdschSlot (pdschSlot.addUnsigned k1)
      match tx2TbStep maxHarqNofRetxs harqBitIdx b 0 r0 with
      | .error e => .error e
      | .ok b =>
        match tx2TbStep maxHarqNofRetxs harqBitIdx b 1 r1 with
        | .error e => .error e
        | .ok b => .ok { h with toHarqProcess := b }
  | _ => .error .tx2TbSize

/-- Whether a HARQ-ACK replaces the chosen one: it is not DTX, and there was
none before or the earlier one had a lower SNR. -/
def isBetterAck (h : DlHarqProcess) (ack : MacHarqAckReportStatus) (pucchSnr : Option Float) : Bool :=
  ack != .dtx &&
    (h.lastPucchSnr.isNone ||
      match h.lastPucchSnr, pucchSnr with
      | some last, some snr => decide (last < snr)
      | _, _ => false)

/-- `ack_info(tb_idx, ack, pucch_snr)`: `error` on a TB not waiting for
HARQ-ACK; the last HARQ-ACK expected applies the chosen one, an earlier one
only lowers the counter, records whether an ACK came and shortens the
timeout. -/
def ackInfo (h : DlHarqProcess) (tbIdx : Fin (maxNofTbs true)) (ack : MacHarqAckReportStatus)
    (pucchSnr : Option Float) : DlHarqProcess × StatusUpdate :=
  if !h.isWaitingAck tbIdx then (h, .error)
  else
    let h := if h.isBetterAck ack pucchSnr then { h with chosenAck := ack, lastPucchSnr := pucchSnr } else h
    if h.pucchAckToReceive ≤ 1 then
      ({ h with toHarqProcess := (h.ackInfoCommon tbIdx (h.chosenAck == .ack)).1 },
        if h.chosenAck = .ack then .acked else .nacked)
    else
      let b := h.setTb tbIdx { h.tb tbIdx with ackOnTimeout := h.chosenAck == .ack }
      ({ h with
          toHarqProcess := { b with slotAckTimeout := h.lastSlotInd.addUnsigned shortAckTimeoutDtx }
          pucchAckToReceive := h.pucchAckToReceive - 1 },
        .noUpdate)

/-- `increment_pucch_counter()`. -/
def incrementPucchCounter (h : DlHarqProcess) : DlHarqProcess :=
  { h with pucchAckToReceive := h.pucchAckToReceive + 1 }

/-- `slot_indication` of a DL process. -/
def slotIndication (h : DlHarqProcess) (slotTx : SlotPoint) : Except SlotAssertion (DlHarqProcess × Nat) :=
  match h.toHarqProcess.slotIndication slotTx with
  | .error e => .error e
  | .ok (b, n) => .ok ({ h with toHarqProcess := b }, n)

/-- `reset()` of a DL process. -/
def reset (h : DlHarqProcess) : DlHarqProcess := { h with toHarqProcess := h.toHarqProcess.reset }

end DlHarqProcess

/-! ## UL HARQ processes -/

/-- `ul_harq_process`: the TBS of the last allocation (`prev_tx_params`) and
whether the process was cancelled. -/
structure UlHarqProcess extends HarqProcess false where
  tbsBytes : Nat := 0
  harqCancelled : Bool := false

namespace UlHarqProcess

/-- `ul_harq_process::empty()`. -/
def empty (h : UlHarqProcess) : Bool := h.toHarqProcess.empty 0

/-- `new_tx(pusch_slot, max_harq_retxs)`: the CRC is expected in the PUSCH
slot, and the allocation parameters are cleared. -/
def newTx (h : UlHarqProcess) (puschSlot : SlotPoint) (maxHarqRetxs : Nat) : Except HarqAssertion UlHarqProcess :=
  match (h.txCommon puschSlot puschSlot).newTxTbCommon 0 maxHarqRetxs 0 with
  | .error e => .error e
  | .ok b => .ok { h with toHarqProcess := b, tbsBytes := 0, harqCancelled := false }

/-- `new_retx(pusch_slot)`. -/
def newRetx (h : UlHarqProcess) (puschSlot : SlotPoint) : Except HarqAssertion UlHarqProcess :=
  match (h.txCommon puschSlot puschSlot).newRetxTbCommon 0 0 with
  | .error e => .error e
  | .ok b => .ok { h with toHarqProcess := b }

/-- `crc_info(ack)`: the TBS on an ACK, 0 on a NACK, -1 on an empty
process. -/
def crcInfo (h : UlHarqProcess) (ack : Bool) : UlHarqProcess × Int :=
  let (b, updated) := h.ackInfoCommon 0 ack
  ({ h with toHarqProcess := b }, if updated then (if ack then (h.tbsBytes : Int) else 0) else -1)

/-- `cancel_harq_retxs()`. -/
def cancelHarqRetxs (h : UlHarqProcess) : UlHarqProcess :=
  { h with toHarqProcess := h.toHarqProcess.cancelHarqRetxs 0, harqCancelled := true }

/-- `slot_indication` of an UL process. -/
def slotIndication (h : UlHarqProcess) (slotTx : SlotPoint) : Except SlotAssertion (UlHarqProcess × Nat) :=
  match h.toHarqProcess.slotIndication slotTx with
  | .error e => .error e
  | .ok (b, n) => .ok ({ h with toHarqProcess := b }, n)

/-- `reset()` of an UL process. -/
def reset (h : UlHarqProcess) : UlHarqProcess := { h with toHarqProcess := h.toHarqProcess.reset }

end UlHarqProcess

/-! ## The HARQ entity of a UE -/

/-- `harq_entity`: the last slot indicated and the DL and UL processes. -/
structure HarqEntity where
  slotTx : SlotPoint
  dlHarqs : List DlHarqProcess
  ulHarqs : List UlHarqProcess

/-- A loop of `harq_entity::slot_indication` over one list of processes,
summing the timeouts notified. -/
def slotIndicationAll {α : Type} (f : α → Except SlotAssertion (α × Nat)) :
    List α → Except SlotAssertion (List α × Nat)
  | [] => .ok ([], 0)
  | h :: rest =>
    match f h with
    | .error e => .error e
    | .ok (h', n) =>
      match slotIndicationAll f rest with
      | .error e => .error e
      | .ok (rest', m) => .ok (h' :: rest', n + m)

namespace HarqEntity

/-- `slot_indication(slot_tx)`: every DL process, then every UL process. -/
def slotIndication (e : HarqEntity) (slotTx : SlotPoint) : Except SlotAssertion (HarqEntity × Nat) :=
  match slotIndicationAll (fun h => h.slotIndication slotTx) e.dlHarqs with
  | .error err => .error err
  | .ok (dl, n) =>
    match slotIndicationAll (fun h => h.slotIndication slotTx) e.ulHarqs with
    | .error err => .error err
    | .ok (ul, m) => .ok ({ slotTx := slotTx, dlHarqs := dl, ulHarqs := ul }, n + m)

/-- The loop of `dl_ack_info`: the first process waiting for a HARQ-ACK of
TB 0 in `uci_slot` with the HARQ bit index takes it. -/
def dlAckInfoLoop (uciSlot : SlotPoint) (ack : MacHarqAckReportStatus) (harqBitIdx : UInt8)
    (pucchSnr : Option Float) : List DlHarqProcess → List DlHarqProcess × Option (Nat × StatusUpdate)
  | [] => ([], none)
  | h :: rest =>
    if h.isWaitingAck 0 && h.lastSlotAck.eq uciSlot && (h.tb 0).harqBitIdx == harqBitIdx then
      let (h', update) := h.ackInfo 0 ack pucchSnr
      (h' :: rest, some (h.id, update))
    else
      let (rest', result) := dlAckInfoLoop uciSlot ack harqBitIdx pucchSnr rest
      (h :: rest', result)

/-- `dl_ack_info(uci_slot, ack, harq_bit_idx, pucch_snr)`: the id of the
process and its status update, or none when no process expects it. -/
def dlAckInfo (e : HarqEntity) (uciSlot : SlotPoint) (ack : MacHarqAckReportStatus) (harqBitIdx : UInt8)
    (pucchSnr : Option Float) : HarqEntity × Option (Nat × StatusUpdate) :=
  let (dl, result) := dlAckInfoLoop uciSlot ack harqBitIdx pucchSnr e.dlHarqs
  ({ e with dlHarqs := dl }, result)

/-- `MAX_ACKS_PER_HARQ` of `dl_ack_info_cancelled`. -/
def maxAcksPerHarq : Nat := 4

/-- The inner loop of `dl_ack_info_cancelled`: DTX for TB 0 until the
process reports something, at most `count` times. -/
def ackInfoCancelledLoop (h : DlHarqProcess) : (count : Nat) → DlHarqProcess × StatusUpdate
  | 0 => (h, .noUpdate)
  | count + 1 =>
    let (h', ret) := h.ackInfo 0 .dtx none
    if ret = .noUpdate then ackInfoCancelledLoop h' count else (h', ret)

/-- One process of `dl_ack_info_cancelled`: a busy process expecting
HARQ-ACKs in `uci_slot` gets DTX for them, and is reset if it still waits. -/
def ackInfoCancelled (uciSlot : SlotPoint) (h : DlHarqProcess) : DlHarqProcess :=
  if !h.empty && h.lastSlotAck.eq uciSlot then
    let (h', ret) := ackInfoCancelledLoop h maxAcksPerHarq
    if ret = .noUpdate then h'.reset else h'
  else h

/-- `dl_ack_info_cancelled(uci_slot)`. -/
def dlAckInfoCancelled (e : HarqEntity) (uciSlot : SlotPoint) : HarqEntity :=
  { e with dlHarqs := e.dlHarqs.map (ackInfoCancelled uciSlot) }

end HarqEntity

end SrsRan.Sched
