import SrsRan.Pdcp.Common

/-!
The SDU queue of the transmitting RLC entities (`rlc_sdu_queue_lockfree.h`)
and the PDCP SN that keys its SDUs (`get_pdcp_sn`, `pdcp_sn_util.h`).

The queue is a FIFO of at most `capacity` SDUs beside a table of `capacity`
slots indexed by `pdcp_sn % capacity`: a slot is free, marked discarded, or
holds the PDCP SN of the queued SDU that owns it. `write` refuses an SDU
whose slot is taken and any SDU when the FIFO is full; `try_discard` marks
the slot of a queued SDU; `read` pops SDUs, skipping those whose slot no
longer holds their SN and freeing each slot it passes. The totals kept for
buffer-state reports are one 64-bit word, the SDU count in its upper half
and the byte count in its lower half, to which each queued SDU adds
`2^32 + size` and from which each discarded or read SDU takes it again.

The capacity is a `uint16_t`, so a `queue_size` of 65536 makes it 0. The
FIFO is rigtorp's `SPSCQueue`, which holds at least one element; the slot
of a PDCP SN is `pdcp_sn % capacity`, a division by zero at capacity 0,
which the model gives as a fault of `write` and `try_discard`.
-/

namespace SrsRan.Rlc

/-- `rlc_sdu`, without its arrival time. -/
structure RlcSdu where
  buf : List UInt8
  isRetx : Bool := false
  pdcpSn : Option Nat := none
  deriving DecidableEq, Repr

/-- A slot of `sdu_states`: `STATE_FREE`, `STATE_DISCARDED` or the PDCP SN
of the SDU that owns it. -/
inductive SduSlotState
  | free
  | discarded
  | held (sn : Nat)
  deriving DecidableEq, Repr

/-- `rlc_sdu_queue_lockfree`. -/
structure RlcSduQueue where
  capacity : Nat
  /-- The SDUs of the FIFO, oldest first. -/
  queue : List RlcSdu
  sduStates : Nat → SduSlotState
  /-- `sdu_sizes`, by slot. -/
  sduSizes : Nat → Nat
  /-- `state`: the SDU count in the upper 32 bits, the byte count in the lower. -/
  state : Nat

/-- `rlc_sdu_queue_lockfree::state_t`. -/
structure SduQueueState where
  nSdus : Nat
  nBytes : Nat
  deriving DecidableEq, Repr

/-- What the queue does that is undefined: `pdcp_sn % capacity` with a
capacity of 0. -/
inductive SduQueueFault
  | divisionByZero
  deriving DecidableEq, Repr

namespace RlcSduQueue

/-- The constructor: the capacity is taken as a `uint16_t`; the sizes start
zeroed and every slot free. -/
def create (queueSize : Nat) : RlcSduQueue := ⟨queueSize % 2 ^ 16, [], fun _ => .free, fun _ => 0, 0⟩

def setSlot (q : RlcSduQueue) (sn : Nat) (s : SduSlotState) : RlcSduQueue :=
  { q with sduStates := Function.update q.sduStates (sn % q.capacity) s }

/-- `state_change` of `state_add` and `state_sub`: one SDU in the upper half,
its size as a `uint32_t` in the lower. -/
def stateChange (sduSize : Nat) : Nat := 1 <<< 32 ||| sduSize % 2 ^ 32

/-- `state_add`: the change is added to the 64-bit state. -/
def stateAdd (q : RlcSduQueue) (sduSize : Nat) : RlcSduQueue :=
  { q with state := (q.state + stateChange sduSize) % 2 ^ 64 }

/-- `state_sub`: the change is subtracted modulo `2^64`. -/
def stateSub (q : RlcSduQueue) (sduSize : Nat) : RlcSduQueue :=
  { q with state := (q.state + 2 ^ 64 - stateChange sduSize) % 2 ^ 64 }

/-- `get_state`: the two halves of the state. -/
def getState (q : RlcSduQueue) : SduQueueState :=
  { nSdus := (q.state >>> 32) % 2 ^ 32, nBytes := q.state &&& 0xffffffff }

/-- `write`: whether the SDU was queued. -/
def write (q : RlcSduQueue) (sdu : RlcSdu) : Except SduQueueFault (Bool × RlcSduQueue) :=
  let sduSize := sdu.buf.length
  -- `SPSCQueue` rounds a capacity of 0 up to one element
  let full := decide (q.queue.length ≥ max q.capacity 1)
  match sdu.pdcpSn with
  | some sn =>
    if q.capacity = 0 then .error .divisionByZero
    else if q.sduStates (sn % q.capacity) ≠ .free then .ok (false, q)
    else
      -- the size is stored before the push; a failed push frees the slot
      -- again and leaves the size behind
      let q := { q with sduSizes := Function.update q.sduSizes (sn % q.capacity) sduSize }
      if full then .ok (false, q)
      else .ok (true, ({ q.setSlot sn (.held sn) with queue := q.queue ++ [sdu] }).stateAdd sduSize)
  | none =>
    if full then .ok (false, q) else .ok (true, ({ q with queue := q.queue ++ [sdu] }).stateAdd sduSize)

/-- `try_discard`: mark the slot of a queued SDU with this PDCP SN and take
its size off the totals. -/
def tryDiscard (q : RlcSduQueue) (sn : Nat) : Except SduQueueFault (Bool × RlcSduQueue) :=
  if q.capacity = 0 then .error .divisionByZero
  else
    let sduSize := q.sduSizes (sn % q.capacity)
    if q.sduStates (sn % q.capacity) = .held sn then .ok (true, (q.setSlot sn .discarded).stateSub sduSize)
    else .ok (false, q)

/-- The loop of `read` over the SDUs still in the FIFO. At capacity 0 no SDU
with a PDCP SN is ever queued, since `write` faults on it first. -/
def readLoop (q : RlcSduQueue) : List RlcSdu → Option RlcSdu × RlcSduQueue
  | [] => (none, { q with queue := [] })
  | sdu :: rest =>
    match sdu.pdcpSn with
    | none => (some sdu, ({ q with queue := rest }).stateSub sdu.buf.length)
    | some sn =>
      -- `check_and_release`: the slot is freed whatever it held; the totals
      -- are left alone for a discarded SDU, whose size `try_discard` took off
      let sduSize := q.sduSizes (sn % q.capacity)
      let oldState := q.sduStates (sn % q.capacity)
      let q := q.setSlot sn .free
      if oldState = .held sn then (some sdu, ({ q with queue := rest }).stateSub sduSize)
      else if oldState = .discarded then q.readLoop rest
      else (q.stateSub sduSize).readLoop rest

/-- `read`: the oldest SDU not discarded, if any. -/
def read (q : RlcSduQueue) : Option RlcSdu × RlcSduQueue := q.readLoop q.queue

def isEmpty (q : RlcSduQueue) : Bool := q.queue.isEmpty

/-! ## What the FIFO holds -/

section Fields

variable (q : RlcSduQueue) (sn n : Nat) (st : SduSlotState)

@[simp] theorem queue_setSlot : (q.setSlot sn st).queue = q.queue := rfl
@[simp] theorem capacity_setSlot : (q.setSlot sn st).capacity = q.capacity := rfl
@[simp] theorem sduStates_setSlot :
    (q.setSlot sn st).sduStates = Function.update q.sduStates (sn % q.capacity) st := rfl
@[simp] theorem sduSizes_setSlot : (q.setSlot sn st).sduSizes = q.sduSizes := rfl
@[simp] theorem state_setSlot : (q.setSlot sn st).state = q.state := rfl

-- The totals change each field but `state`; each is read off after taking the
-- record apart, since unifying whole records would unfold `state + 2^64` one
-- successor at a time.
@[simp] theorem queue_stateAdd : (q.stateAdd n).queue = q.queue := by cases q; rfl
@[simp] theorem capacity_stateAdd : (q.stateAdd n).capacity = q.capacity := by cases q; rfl
@[simp] theorem sduStates_stateAdd : (q.stateAdd n).sduStates = q.sduStates := by cases q; rfl
@[simp] theorem sduSizes_stateAdd : (q.stateAdd n).sduSizes = q.sduSizes := by cases q; rfl
@[simp] theorem queue_stateSub : (q.stateSub n).queue = q.queue := by cases q; rfl
@[simp] theorem capacity_stateSub : (q.stateSub n).capacity = q.capacity := by cases q; rfl
@[simp] theorem sduStates_stateSub : (q.stateSub n).sduStates = q.sduStates := by cases q; rfl
@[simp] theorem sduSizes_stateSub : (q.stateSub n).sduSizes = q.sduSizes := by cases q; rfl

end Fields

/-- `write` queues at most the SDU written. -/
theorem mem_write {q q' : RlcSduQueue} {sdu x : RlcSdu} {b : Bool} (h : q.write sdu = .ok (b, q'))
    (hx : x ∈ q'.queue) : x ∈ q.queue ∨ x = sdu := by
  unfold write at h
  dsimp only at h
  split at h
  · split_ifs at h <;> cases h
    · exact .inl hx
    · exact .inl hx
    · simp only [queue_stateAdd, List.mem_append, List.mem_singleton] at hx
      exact hx
  · split_ifs at h <;> cases h
    · exact .inl hx
    · simp only [queue_stateAdd, List.mem_append, List.mem_singleton] at hx
      exact hx

/-- `try_discard` leaves the FIFO as it is. -/
theorem queue_tryDiscard {q q' : RlcSduQueue} {sn : Nat} {b : Bool} (h : q.tryDiscard sn = .ok (b, q')) :
    q'.queue = q.queue := by
  unfold tryDiscard at h
  split_ifs at h <;> cases h <;> rfl

/-- The loop of `read` returns and keeps SDUs of the list it walks. Induction
on the list. -/
theorem mem_readLoop (q : RlcSduQueue) (l : List RlcSdu) :
    (∀ x, (q.readLoop l).1 = some x → x ∈ l) ∧ ∀ x ∈ (q.readLoop l).2.queue, x ∈ l := by
  induction l generalizing q with
  | nil => simp [readLoop]
  | cons sdu rest ih =>
    rw [readLoop]
    split
    · simp +contextual
    · dsimp only
      split_ifs
      · simp +contextual
      · obtain ⟨h1, h2⟩ := ih (q.setSlot _ .free)
        exact ⟨fun x hx => List.mem_cons_of_mem _ (h1 x hx), fun x hx => List.mem_cons_of_mem _ (h2 x hx)⟩
      · obtain ⟨h1, h2⟩ := ih ((q.setSlot _ .free).stateSub _)
        exact ⟨fun x hx => List.mem_cons_of_mem _ (h1 x hx), fun x hx => List.mem_cons_of_mem _ (h2 x hx)⟩

theorem mem_read {q : RlcSduQueue} :
    (∀ x, q.read.1 = some x → x ∈ q.queue) ∧ ∀ x ∈ q.read.2.queue, x ∈ q.queue :=
  mem_readLoop q q.queue

end RlcSduQueue

/-- `copy_segments` (`byte_buffer.h`): the octets of `src` that fit a
destination of `dstSize` octets. -/
def copySegments (src : List UInt8) (dstSize : Nat) : List UInt8 := src.take dstSize

/-- `byte_buffer_view{buf, offset, length}`. -/
def byteBufferView (buf : List UInt8) (offset length : Nat) : List UInt8 :=
  (buf.drop offset).take length

/-- The assertion of `get_pdcp_sn`: the SDU is empty, or too short for the
PDCP header its D/C bit announces. -/
inductive GetPdcpSnAssertion
  | emptyPdu
  | cannotReadHeader
  deriving DecidableEq, Repr

/-- `get_pdcp_sn`: the SN of a PDCP data PDU, `none` for a control PDU. -/
def getPdcpSn (pdu : List UInt8) (sz : Pdcp.PdcpSnSize) : Except GetPdcpSnAssertion (Option Nat) :=
  match pdu with
  | [] => .error .emptyPdu
  | b0 :: rest =>
    if b0.toNat >>> 7 = 0 then .ok none
    else
      match sz, rest with
      | .size12bits, b1 :: _ => .ok (some (((b0.toNat &&& 0x0f) <<< 8) ||| b1.toNat))
      | .size18bits, b1 :: b2 :: _ =>
        .ok (some (((b0.toNat &&& 0x03) <<< 16) ||| (b1.toNat <<< 8) ||| b2.toNat))
      | _, _ => .error .cannotReadHeader

end SrsRan.Rlc
