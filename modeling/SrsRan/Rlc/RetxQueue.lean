import Mathlib.Data.List.Perm.Basic
import SrsRan.Lib.Transition

/-!
The ReTx queue of the AM transmitter (`rlc_retx_queue.h`): a ring buffer of
ReTx whose removal by SN is lazy (an element is marked invalid, and dropped
once it reaches the front), beside a state that counts the queued payload
octets and the ReTx with zero and with non-zero SO for the buffer-state
report. The counters are `uint32_t`: `add` wraps them at 2^32, `subtract`
clamps them at 0.

The queue's abstract view is the list of its valid elements (`valid`): each
operation moves it as the list operation of the same name. The state counts
that list exactly (`accounts`) as long as the octets the buffer can hold stay
below 2^32, and then no `subtract` of a queued ReTx takes a clamping branch.
The AM transmitter holds one such queue of `AM_Window_Size` elements.
-/

namespace SrsRan.Rlc

/-- `rlc_tx_amd_retx`: octets `so .. so + length - 1` of the SDU `sn`. -/
structure RlcTxAmdRetx where
  sn : Nat
  so : Nat
  length : Nat
  deriving DecidableEq, Repr

/-- `rlc_tx_amd_retx::includes`, in `uint32_t` arithmetic. -/
def RlcTxAmdRetx.includes (r : RlcTxAmdRetx) (segmentOffset segmentLength : Nat) : Bool :=
  decide (segmentOffset ≥ r.so) &&
    decide ((segmentOffset + segmentLength) % 2 ^ 32 ≤ (r.so + r.length) % 2 ^ 32)

/-- `rlc_retx_queue_state`: the `uint32_t` counters of the queue. -/
structure RlcRetxQueueState where
  retxBytes : Nat := 0
  nRetxSoZero : Nat := 0
  nRetxSoNonzero : Nat := 0
  deriving DecidableEq, Repr

namespace RlcRetxQueueState

def add (st : RlcRetxQueueState) (elem : RlcTxAmdRetx) : RlcRetxQueueState :=
  let st := { st with retxBytes := (st.retxBytes + elem.length) % 2 ^ 32 }
  if elem.so = 0 then { st with nRetxSoZero := (st.nRetxSoZero + 1) % 2 ^ 32 }
  else { st with nRetxSoNonzero := (st.nRetxSoNonzero + 1) % 2 ^ 32 }

def subtract (st : RlcRetxQueueState) (elem : RlcTxAmdRetx) : RlcRetxQueueState :=
  let st := if st.retxBytes ≥ elem.length then { st with retxBytes := st.retxBytes - elem.length }
    else { st with retxBytes := 0 }
  if elem.so = 0 then
    if st.nRetxSoZero > 0 then { st with nRetxSoZero := st.nRetxSoZero - 1 } else st
  else if st.nRetxSoNonzero > 0 then { st with nRetxSoNonzero := st.nRetxSoNonzero - 1 } else st

/-- `subtract` of `elem` takes a clamping branch: the state holds fewer octets,
or no ReTx of the element's kind. -/
def Saturates (st : RlcRetxQueueState) (elem : RlcTxAmdRetx) : Prop :=
  st.retxBytes < elem.length ∨ (elem.so = 0 ∧ st.nRetxSoZero = 0) ∨
    (elem.so ≠ 0 ∧ st.nRetxSoNonzero = 0)

instance (st : RlcRetxQueueState) (elem : RlcTxAmdRetx) : Decidable (st.Saturates elem) := by
  unfold Saturates
  infer_instance

/-- The counters hold their values: none has reached 2^32. -/
def Fits (st : RlcRetxQueueState) : Prop :=
  st.retxBytes < 2 ^ 32 ∧ st.nRetxSoZero < 2 ^ 32 ∧ st.nRetxSoNonzero < 2 ^ 32

end RlcRetxQueueState

/-- `rlc_retx_queue_item`. -/
structure RlcRetxQueueItem where
  invalid : Bool := false
  retx : RlcTxAmdRetx
  deriving DecidableEq, Repr

/-- An element the loop of `remove_sn` marks: a valid one of SN `sn`. -/
def RlcRetxQueueItem.hits (item : RlcRetxQueueItem) (sn : Nat) : Bool :=
  !item.invalid && item.retx.sn == sn

/-- `rlc_retx_queue`. -/
structure RlcRetxQueue where
  /-- `max_size()` of the ring buffer: the capacity it was built with,
  rounded up to a power of 2. -/
  maxSize : Nat
  /-- The ring buffer, front first. -/
  queue : List RlcRetxQueueItem
  st : RlcRetxQueueState
  deriving DecidableEq, Repr

/-- The assertions of `front` and `replace_front`. -/
inductive RlcRetxQueueAssertion
  /-- "Cannot return/replace front element of empty queue." -/
  | emptyQueue
  /-- "Cannot return/replace front element. The front is invalid." -/
  | invalidFront
  deriving DecidableEq, Repr

/-- The operations that change the queue. -/
inductive RlcRetxQueueOp
  | tryPush (retx : RlcTxAmdRetx)
  | pop
  | replaceFront (retx : RlcTxAmdRetx)
  | removeSn (sn : Nat)
  | clear
  deriving DecidableEq, Repr

/-- `clean_invalid_front`: the buffer from its first valid element on. -/
def cleanInvalidFront : List RlcRetxQueueItem → List RlcRetxQueueItem
  | [] => []
  | item :: rest => if item.invalid then cleanInvalidFront rest else item :: rest

/-- The valid elements of a buffer, front first. -/
def validRetx : List RlcRetxQueueItem → List RlcTxAmdRetx
  | [] => []
  | item :: rest => if item.invalid then validRetx rest else item.retx :: validRetx rest

namespace RlcRetxQueue

def create (maxSize : Nat) : RlcRetxQueue := ⟨maxSize, [], {}⟩

/-- `try_push`: refused when the ring buffer is full, invalid elements
included. -/
def tryPush (q : RlcRetxQueue) (retx : RlcTxAmdRetx) : Bool × RlcRetxQueue :=
  if q.queue.length = q.maxSize then (false, q)
  else (true, { q with queue := q.queue ++ [{ retx }], st := q.st.add retx })

/-- `pop`: the front element leaves the state, then the invalid elements
after it leave the buffer. -/
def pop (q : RlcRetxQueue) : RlcRetxQueue :=
  match q.queue with
  | [] => q
  | top :: rest => { q with queue := cleanInvalidFront rest, st := q.st.subtract top.retx }

def front (q : RlcRetxQueue) : Except RlcRetxQueueAssertion RlcTxAmdRetx :=
  match q.queue with
  | [] => .error .emptyQueue
  | top :: _ => if top.invalid then .error .invalidFront else .ok top.retx

def replaceFront (q : RlcRetxQueue) (retx : RlcTxAmdRetx) : Except RlcRetxQueueAssertion RlcRetxQueue :=
  match q.queue with
  | [] => .error .emptyQueue
  | top :: rest =>
    if top.invalid then .error .invalidFront
    else .ok { q with queue := { retx } :: rest, st := (q.st.subtract top.retx).add retx }

def clear (q : RlcRetxQueue) : RlcRetxQueue := { q with queue := [], st := {} }

def size (q : RlcRetxQueue) : Nat := q.queue.length

def empty (q : RlcRetxQueue) : Bool := q.queue.isEmpty

def state (q : RlcRetxQueue) : RlcRetxQueueState := q.st

/-- `has_sn(sn)`. -/
def hasSn (q : RlcRetxQueue) (sn : Nat) : Bool := q.queue.any (·.hits sn)

/-- `has_sn(sn, so, length)`. -/
def hasSnIncluding (q : RlcRetxQueue) (sn so length : Nat) : Bool :=
  q.queue.any fun item => item.hits sn && item.retx.includes so length

/-- `remove_sn`. Its loop walks the buffer once: each element it hits is
subtracted from the state, in buffer order, and marked invalid (the source
loop stays on a marked element for one more round, which then skips it). -/
def removeSn (q : RlcRetxQueue) (sn : Nat) : Bool × RlcRetxQueue :=
  if q.queue.isEmpty then (false, q)
  else
    let st := q.queue.foldl (fun st item => if item.hits sn then st.subtract item.retx else st) q.st
    let items := q.queue.map fun item => if item.hits sn then { item with invalid := true } else item
    (q.queue.any (·.hits sn), { q with queue := cleanInvalidFront items, st })

def step (q : RlcRetxQueue) : RlcRetxQueueOp → Except RlcRetxQueueAssertion RlcRetxQueue
  | .tryPush retx => .ok (q.tryPush retx).2
  | .pop => .ok q.pop
  | .replaceFront retx => q.replaceFront retx
  | .removeSn sn => .ok (q.removeSn sn).2
  | .clear => .ok q.clear

/-- The ReTx the queue holds. -/
def valid (q : RlcRetxQueue) : List RlcTxAmdRetx := validRetx q.queue

end RlcRetxQueue

end SrsRan.Rlc
