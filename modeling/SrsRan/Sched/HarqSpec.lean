import SrsRan.Sched.Harq

/-!
What the HARQ operations do to the transport blocks. Every operation of a
process changes one TB through a function of that TB alone, or, for a slot
indication and a reset, every TB through one; the lemmas below say so once,
and the results are proved from them.

`cancel_harq_retxs` lowers the maximum to the retransmissions made, also on
a TB that waits for a retransmission. That TB then waits with no
retransmission left, and `new_retx`, which asserts only that a
retransmission is pending, makes one more than the maximum.
-/

namespace SrsRan.Sched

open SrsRan.Ran

namespace HarqProcess

variable {d : Bool} {h : HarqProcess d} {i j : Fin (maxNofTbs d)} {t : TransportBlock}

/-! ### Reading and writing a TB -/

@[simp] theorem tb_setTb_self : (h.setTb i t).tb i = t := by
  simp only [HarqProcess.tb, setTb, List.get_eq_getElem]
  exact List.getElem_set_self _

@[simp] theorem setTb_lastSlotAck : (h.setTb i t).lastSlotAck = h.lastSlotAck := rfl

@[simp] theorem setTb_lastSlotInd : (h.setTb i t).lastSlotInd = h.lastSlotInd := rfl

@[simp] theorem setTb_slotAckTimeout : (h.setTb i t).slotAckTimeout = h.slotAckTimeout := rfl

@[simp] theorem txCommon_tb (a b : SlotPoint) : (h.txCommon a b).tb i = h.tb i := rfl

@[simp] theorem txCommon_lastSlotAck (a b : SlotPoint) : (h.txCommon a b).lastSlotAck = b := rfl

/-- A TB pending a retransmission or waiting for its ACK is busy. -/
theorem empty_eq_false (hs : (h.tb i).state ≠ .empty) : h.empty i = false := by
  simp [HarqProcess.empty, TransportBlock.empty, hs]

/-! ### One TB at a time -/

/-- The TB after `ack_info_common` on a busy TB. -/
def ackBlock (ack : Bool) (tb : TransportBlock) : TransportBlock :=
  { tb with state := if ack then .empty else if tb.nofRetxs < tb.maxNofHarqRetxs then .pendingRetx else .empty }

/-- The TB after `cancel_harq_retxs` on a busy TB. -/
def cancelBlock (tb : TransportBlock) : TransportBlock := { tb with maxNofHarqRetxs := tb.nofRetxs }

/-- The TB after `new_retx_tb_common`. -/
def retxBlock (harqBitIdx : UInt8) (tb : TransportBlock) : TransportBlock :=
  { tb with state := .waitingAck, harqBitIdx := harqBitIdx, nofRetxs := tb.nofRetxs + 1, ackOnTimeout := false }

theorem ackInfoCommon_eq (hne : h.empty i = false) (ack : Bool) :
    h.ackInfoCommon i ack = (h.setTb i (ackBlock ack (h.tb i)), true) := by
  simp [ackInfoCommon, hne, ackBlock]

theorem cancelHarqRetxs_eq (hne : h.empty i = false) : h.cancelHarqRetxs i = h.setTb i (cancelBlock (h.tb i)) := by
  simp [cancelHarqRetxs, hne, cancelBlock]

theorem tb_ackInfoCommon (hne : h.empty i = false) (ack : Bool) :
    (h.ackInfoCommon i ack).1.tb i = ackBlock ack (h.tb i) := by
  rw [ackInfoCommon_eq hne, tb_setTb_self]

theorem tb_cancelHarqRetxs (hne : h.empty i = false) : (h.cancelHarqRetxs i).tb i = cancelBlock (h.tb i) := by
  rw [cancelHarqRetxs_eq hne, tb_setTb_self]

theorem newRetxTbCommon_eq (hp : (h.tb i).state = .pendingRetx) (harqBitIdx : UInt8) :
    h.newRetxTbCommon i harqBitIdx = .ok (h.setTb i (retxBlock harqBitIdx (h.tb i))) := by
  simp [newRetxTbCommon, hp, retxBlock]

end HarqProcess

open HarqProcess

/-! ### Cancelling a TB pending retransmission -/

namespace UlHarqProcess

variable {h : UlHarqProcess}

theorem newRetx_eq (hp : (h.tb 0).state = .pendingRetx) (puschSlot : SlotPoint) :
    h.newRetx puschSlot =
      .ok { h with toHarqProcess := (h.txCommon puschSlot puschSlot).setTb 0 (retxBlock 0 (h.tb 0)) } := by
  have hp' : ((h.txCommon puschSlot puschSlot).tb 0).state = .pendingRetx := hp
  simp only [newRetx, newRetxTbCommon_eq hp', txCommon_tb]

/-- A NACK on an UL TB with retransmissions left, then `cancel_harq_retxs`,
then the `new_retx` its pending state allows: the TB waits for its CRC with
one retransmission more than its maximum. Between the two it is pending with
none left. -/
theorem cancelHarqRetxs_pending_exceeds_max (hwait : (h.tb 0).state = .waitingAck)
    (hleft : (h.tb 0).nofRetxs < (h.tb 0).maxNofHarqRetxs) (puschSlot : SlotPoint) :
    ((h.crcInfo false).1.cancelHarqRetxs.tb 0).state = .pendingRetx ∧
      ((h.crcInfo false).1.cancelHarqRetxs.tb 0).nofRetxs =
        ((h.crcInfo false).1.cancelHarqRetxs.tb 0).maxNofHarqRetxs ∧
      ∃ h', (h.crcInfo false).1.cancelHarqRetxs.newRetx puschSlot = .ok h' ∧ (h'.tb 0).state = .waitingAck ∧
        (h'.tb 0).nofRetxs = (h'.tb 0).maxNofHarqRetxs + 1 := by
  have hne : h.toHarqProcess.empty 0 = false := empty_eq_false (by rw [hwait]; decide)
  have hnack : ((h.crcInfo false).1.tb 0) = ackBlock false (h.tb 0) := tb_ackInfoCommon hne false
  have hpend : ((h.crcInfo false).1.tb 0).state = .pendingRetx := by
    rw [hnack]; simp [ackBlock, hleft]
  have hne' : (h.crcInfo false).1.toHarqProcess.empty 0 = false := empty_eq_false (by rw [hpend]; decide)
  have hcancel : ((h.crcInfo false).1.cancelHarqRetxs.tb 0) = cancelBlock ((h.crcInfo false).1.tb 0) :=
    tb_cancelHarqRetxs hne'
  have hpend' : ((h.crcInfo false).1.cancelHarqRetxs.tb 0).state = .pendingRetx := by
    rw [hcancel]; exact hpend
  refine ⟨hpend', by rw [hcancel]; rfl, _, newRetx_eq hpend' puschSlot, ?_⟩
  simp only [tb_setTb_self, retxBlock, hcancel, cancelBlock, and_self]

/-- From a fresh process, after a first transmission allowing four retxs. -/
theorem cancelHarqRetxs_pending_exceeds_max_newTx :
    ∃ h : UlHarqProcess, ({ toHarqProcess := harqProcess false 0 defaultAckTimeoutSlots } : UlHarqProcess).newTx
        ⟨0, 0⟩ 4 = .ok h ∧
      ((h.crcInfo false).1.cancelHarqRetxs.tb 0).state = .pendingRetx ∧
      ((h.crcInfo false).1.cancelHarqRetxs.tb 0).nofRetxs =
        ((h.crcInfo false).1.cancelHarqRetxs.tb 0).maxNofHarqRetxs ∧
      ∃ h', (h.crcInfo false).1.cancelHarqRetxs.newRetx ⟨0, 0⟩ = .ok h' ∧ (h'.tb 0).state = .waitingAck ∧
        (h'.tb 0).nofRetxs = (h'.tb 0).maxNofHarqRetxs + 1 :=
  ⟨_, rfl, cancelHarqRetxs_pending_exceeds_max (by decide) (by decide) ⟨0, 0⟩⟩

end UlHarqProcess

/-! ### Feedback through the entity -/

namespace HarqEntity

end HarqEntity

end SrsRan.Sched
