import SrsRan.Lib.Fallible

/-!
`byte_buffer` (`byte_buffer.h`, `byte_buffer.cpp`, `byte_buffer_segment.h`,
`byte_buffer_segment_list.h`): a byte sequence kept in a singly linked list
of segments, each a payload window inside a memory block of a pool. The
list's head and tail pointers and the byte count `pkt_len` sit in a control
block, which shares its memory block with the first segment.

The memory is explicit: segments live at addresses of a heap and the
control block names them by address. Destroying a segment takes it out of
the heap, and a later use of its address, like a use of a null pointer, is
a fault (undefined behaviour in the source), as is a failed
`srsran_assert`. Fresh blocks hold zeros. A block comes from the pool, or
in fallback mode from the heap; allocation fails when neither is possible.
Each walk along the list gets one round per address handed out so far,
which is enough for any list without a cycle.
-/

namespace SrsRan

/-- What goes wrong inside a `byte_buffer` operation. -/
inductive ByteBufferFault
  /-- `byte_buffer_segment::resize`: "There is not enough space for provided size" -/
  | segmentResize
  /-- `byte_buffer_segment::append` of a range: "There is not enough tailroom for append." -/
  | segmentAppend
  /-- `byte_buffer_segment::append` of one byte: "There is not enough tailroom space." -/
  | segmentTailroom
  /-- `prepend`, `reserve_prepend`, `trim_head` and `trim_tail` of a segment:
  "There is not enough headroom space." -/
  | segmentHeadroom
  /-- `byte_buffer::trim_head`: "Trying to trim more bytes than those available" -/
  | trimHeadTooMany
  /-- `byte_buffer::trim_tail`: "Trimming too many bytes from byte_buffer" -/
  | trimTailTooMany
  /-- The span iterator of `segments()`: "Positive offset or length for empty segment" -/
  | emptySegmentRange
  /-- The control block pointer is null where the source dereferences it. -/
  | nullControlBlock
  /-- A null pointer, or the address of a destroyed segment, is dereferenced. -/
  | invalidSegment (addr : Option Nat)
  /-- A walk along the list does not reach its end. -/
  | endlessList
  deriving DecidableEq, Repr

/-- Overwrite the octets of `buf` from `off` on with `bytes`. -/
def writeAt (buf : List UInt8) (off : Nat) (bytes : List UInt8) : List UInt8 :=
  buf.take off ++ bytes ++ buf.drop (off + bytes.length)

theorem length_writeAt {buf : List UInt8} {off : Nat} {bytes : List UInt8}
    (h : off + bytes.length ≤ buf.length) : (writeAt buf off bytes).length = buf.length := by
  simp only [writeAt, List.length_append, List.length_take, List.length_drop]
  omega

/-- `byte_buffer_segment_list::node_t`: a memory block, the payload window
inside it, `headroom` octets from its start, and the link to the next node.
The window always fits the block. -/
structure ByteBufferSegment where
  buffer : List UInt8
  headroom : Nat
  length : Nat
  next : Option Nat
  fits : headroom + length ≤ buffer.length

namespace ByteBufferSegment

/-- The constructor `node_t(span, std::min(headroom, segment_size))` on a
fresh block of `capacity` octets. -/
def create (capacity headroom : Nat) : ByteBufferSegment :=
  ⟨List.replicate capacity 0, min headroom capacity, 0, none, by simp⟩

def capacity (s : ByteBufferSegment) : Nat := s.buffer.length

def tailroom (s : ByteBufferSegment) : Nat := s.capacity - s.headroom - s.length

/-- The payload octets. -/
def payload (s : ByteBufferSegment) : List UInt8 := (s.buffer.drop s.headroom).take s.length

/-- `resize`: the payload gets `n` octets from its start, whatever the block holds there. -/
def resize (s : ByteBufferSegment) (n : Nat) : Except ByteBufferFault ByteBufferSegment :=
  if h : n ≤ s.capacity - s.headroom then
    .ok { s with length := n, fits := by have := s.fits; unfold capacity at h; omega }
  else .error .segmentResize

/-- `append` of a range of octets after the payload. -/
def append (s : ByteBufferSegment) (bytes : List UInt8) : Except ByteBufferFault ByteBufferSegment :=
  if h : bytes.length ≤ s.tailroom then
    .ok { s with
      buffer := writeAt s.buffer (s.headroom + s.length) bytes
      length := s.length + bytes.length
      fits := by
        have := s.fits
        unfold tailroom capacity at h
        rw [length_writeAt (by omega)]
        omega }
  else .error .segmentAppend

/-- `append` of one octet. -/
def appendByte (s : ByteBufferSegment) (byte : UInt8) : Except ByteBufferFault ByteBufferSegment :=
  if s.tailroom ≥ 1 then
    (s.append [byte]).mapError fun _ => .segmentTailroom
  else .error .segmentTailroom

/-- `prepend`: the octets go right before the payload. -/
def prepend (s : ByteBufferSegment) (bytes : List UInt8) : Except ByteBufferFault ByteBufferSegment :=
  if h : bytes.length ≤ s.headroom then
    .ok { s with
      buffer := writeAt s.buffer (s.headroom - bytes.length) bytes
      headroom := s.headroom - bytes.length
      length := s.length + bytes.length
      fits := by
        have := s.fits
        rw [length_writeAt (by omega)]
        omega }
  else .error .segmentHeadroom

/-- `reserve_prepend`: the payload grows by `n` octets at its front. -/
def reservePrepend (s : ByteBufferSegment) (n : Nat) : Except ByteBufferFault ByteBufferSegment :=
  if h : n ≤ s.headroom then
    .ok { s with headroom := s.headroom - n, length := s.length + n, fits := by have := s.fits; omega }
  else .error .segmentHeadroom

def trimHead (s : ByteBufferSegment) (n : Nat) : Except ByteBufferFault ByteBufferSegment :=
  if h : n ≤ s.length then
    .ok { s with headroom := s.headroom + n, length := s.length - n, fits := by have := s.fits; omega }
  else .error .segmentHeadroom

def trimTail (s : ByteBufferSegment) (n : Nat) : Except ByteBufferFault ByteBufferSegment :=
  if h : n ≤ s.length then
    .ok { s with length := s.length - n, fits := by have := s.fits; omega }
  else .error .segmentHeadroom

def setNext (s : ByteBufferSegment) (next : Option Nat) : ByteBufferSegment := { s with next }

end ByteBufferSegment

/-- The pool's block layout: the payload room of the segment that shares
its block with the control block, and of any other segment (what is left
of `memory_block_size` after the control block and the node header). -/
structure ByteBufferPoolConfig where
  cbSegmentSize : Nat
  segmentSize : Nat
  segmentSize_pos : 0 < segmentSize

/-- The memory of the segments: the live ones by address, which addresses
are blocks of the pool (`owns_segment`), the next address to hand out, the
blocks left in the pool, and the addresses destroyed so far, in order. -/
structure SegmentHeap where
  nodes : Nat → Option ByteBufferSegment
  pooled : Nat → Bool
  nextAddr : Nat
  freeBlocks : Nat
  released : List Nat

/-- `byte_buffer::control_block`, without its reference count. -/
structure ByteBufferControlBlock where
  head : Option Nat
  tail : Option Nat
  pktLen : Nat
  segmentInCbMemoryBlock : Option Nat
  mallocFallback : Bool
  deriving DecidableEq, Repr

/-- A `byte_buffer` whose control block no other buffer shares, with the
segment memory. -/
structure ByteBuffer where
  heap : SegmentHeap
  ctrl : Option ByteBufferControlBlock

namespace ByteBuffer

variable (pc : ByteBufferPoolConfig)

/-- A default-constructed buffer over a pool of `freeBlocks` blocks. -/
def empty (freeBlocks : Nat) : ByteBuffer :=
  ⟨⟨fun _ => none, fun _ => false, 0, freeBlocks, []⟩, none⟩

def length (b : ByteBuffer) : Nat :=
  match b.ctrl with
  | some c => c.pktLen
  | none => 0

def isEmpty (b : ByteBuffer) : Bool := b.length == 0

def hasCtrlBlock (b : ByteBuffer) : Bool := b.ctrl.isSome

def cb (b : ByteBuffer) : Except ByteBufferFault ByteBufferControlBlock :=
  match b.ctrl with
  | some c => .ok c
  | none => .error .nullControlBlock

def setCb (b : ByteBuffer) (c : ByteBufferControlBlock) : ByteBuffer := { b with ctrl := some c }

/-- Dereference a segment pointer. -/
def node (b : ByteBuffer) : Option Nat → Except ByteBufferFault ByteBufferSegment
  | none => .error (.invalidSegment none)
  | some a =>
    match b.heap.nodes a with
    | some s => .ok s
    | none => .error (.invalidSegment (some a))

def setNode (b : ByteBuffer) (a : Nat) (s : ByteBufferSegment) : ByteBuffer :=
  { b with heap.nodes := Function.update b.heap.nodes a (some s) }

/-- Change the segment a pointer names in place. -/
def modifyNode (b : ByteBuffer) (p : Option Nat)
    (f : ByteBufferSegment → Except ByteBufferFault ByteBufferSegment) :
    Except ByteBufferFault ByteBuffer := do
  let s ← b.node p
  let s ← f s
  match p with
  | some a => return b.setNode a s
  | none => throw (.invalidSegment none)

/-! ## Segment memory -/

/-- `allocate_node` of the pool, or `new uint8_t[]` in fallback mode. -/
def allocateBlock (h : SegmentHeap) (useFallback : Bool) : Option (Nat × SegmentHeap) :=
  if 0 < h.freeBlocks then
    some (h.nextAddr, { h with nextAddr := h.nextAddr + 1, freeBlocks := h.freeBlocks - 1,
                               pooled := Function.update h.pooled h.nextAddr true })
  else if useFallback then some (h.nextAddr, { h with nextAddr := h.nextAddr + 1 })
  else none

/-- `control_block::destroy_node`: the segment is destroyed; its block goes
back to the pool unless it is the control block's own. -/
def destroyNode (b : ByteBuffer) (a : Nat) : ByteBuffer :=
  let own := (b.ctrl.bind ByteBufferControlBlock.segmentInCbMemoryBlock) = some a
  let h := b.heap
  let h := { h with nodes := Function.update h.nodes a none, released := h.released ++ [a] }
  let h := if !own ∧ h.pooled a then { h with freeBlocks := h.freeBlocks + 1 } else h
  { b with heap := h }

/-- `add_head_segment`: a new control block sharing its block with the first
segment, which is the whole list. -/
def addHeadSegment (b : ByteBuffer) (headroom : Nat) (useFallback : Bool) : Option ByteBuffer := do
  let (a, h) ← allocateBlock b.heap useFallback
  let b : ByteBuffer := { b with heap := h }
  let b := b.setNode a (ByteBufferSegment.create pc.cbSegmentSize headroom)
  return b.setCb { head := some a, tail := some a, pktLen := 0, segmentInCbMemoryBlock := some a,
                   mallocFallback := useFallback }

/-- `create_segment`: a segment outside the list. -/
def createSegment (b : ByteBuffer) (c : ByteBufferControlBlock) (headroom : Nat) :
    Option (Nat × ByteBuffer) := do
  let (a, h) ← allocateBlock b.heap c.mallocFallback
  let b : ByteBuffer := { b with heap := h }
  return (a, b.setNode a (ByteBufferSegment.create pc.segmentSize headroom))

/-- `byte_buffer_segment_list::push_back`. -/
def pushBack (b : ByteBuffer) (c : ByteBufferControlBlock) (a : Nat) : Except ByteBufferFault ByteBuffer := do
  let b ← b.modifyNode (some a) fun s => pure (s.setNext none)
  if c.head.isSome then
    let b ← b.modifyNode c.tail fun s => pure (s.setNext (some a))
    return b.setCb { c with tail := some a }
  else return b.setCb { c with head := some a, tail := some a }

/-- `byte_buffer_segment_list::push_front`. -/
def pushFront (b : ByteBuffer) (c : ByteBufferControlBlock) (a : Nat) : Except ByteBufferFault ByteBuffer := do
  let b ← b.modifyNode (some a) fun s => pure (s.setNext c.head)
  let c := if c.tail.isNone then { c with tail := some a } else c
  return b.setCb { c with head := some a }

/-- `append_segment`: whether a segment could be added at the end. -/
def appendSegment (b : ByteBuffer) (headroomSuggestion : Nat) : Except ByteBufferFault (Bool × ByteBuffer) :=
  match b.ctrl with
  | none =>
    match addHeadSegment pc b headroomSuggestion false with
    | some b => .ok (true, b)
    | none => .ok (false, b)
  | some c =>
    match createSegment pc b c headroomSuggestion with
    | some (a, b) => (pushBack b c a).map fun b => (true, b)
    | none => .ok (false, b)

/-- `prepend_segment`: whether a segment could be added at the front. -/
def prependSegment (b : ByteBuffer) (headroomSuggestion : Nat) : Except ByteBufferFault (Bool × ByteBuffer) :=
  match b.ctrl with
  | none =>
    match addHeadSegment pc b headroomSuggestion false with
    | some b => .ok (true, b)
    | none => .ok (false, b)
  | some c =>
    match createSegment pc b c headroomSuggestion with
    | some (a, b) => (pushFront b c a).map fun b => (true, b)
    | none => .ok (false, b)

/-- `DEFAULT_FIRST_SEGMENT_HEADROOM`. -/
def defaultFirstSegmentHeadroom : Nat := 16

/-! ## Walking the list -/

/-- The addresses of the list from `p` on, following `next` up to null. -/
def chainFrom (b : ByteBuffer) : Nat → Option Nat → Except ByteBufferFault (List Nat)
  | _, none => .ok []
  | 0, some _ => .error .endlessList
  | fuel + 1, some a => do
    let s ← b.node (some a)
    let rest ← b.chainFrom fuel s.next
    return a :: rest

/-- The addresses of the list, from the head. -/
def chain (b : ByteBuffer) : Except ByteBufferFault (List Nat) :=
  match b.ctrl with
  | none => .ok []
  | some c => b.chainFrom (b.heap.nextAddr + 1) c.head

/-- The constructors of the byte and span iterators: skip the empty
segments at the front. -/
def skipEmpty (b : ByteBuffer) : Nat → Option Nat → Except ByteBufferFault (Option Nat)
  | _, none => .ok none
  | 0, some _ => .error .endlessList
  | fuel + 1, some a => do
    let s ← b.node (some a)
    if s.length = 0 then skipEmpty b fuel s.next else return some a

/-- The walk of the byte iterator from a segment on. `operator++` moves to
the next segment without skipping empty ones: at an empty segment the
iterator reads the octet at its payload's start before it moves on. -/
def iterFrom (b : ByteBuffer) : Nat → Option Nat → Except ByteBufferFault (List UInt8)
  | _, none => .ok []
  | 0, some _ => .error .endlessList
  | fuel + 1, some a => do
    let s ← b.node (some a)
    let here := if s.length = 0 then (s.buffer.drop s.headroom).take 1 else s.payload
    let rest ← iterFrom b fuel s.next
    return here ++ rest

/-- The octets from `begin()` to `end()`. -/
def bytes (b : ByteBuffer) : Except ByteBufferFault (List UInt8) :=
  match b.ctrl with
  | none => .ok []
  | some c => do
    let start ← b.skipEmpty (b.heap.nextAddr + 1) c.head
    b.iterFrom (b.heap.nextAddr + 1) start

/-- The walk of the span iterator: spans of at most `rem` octets in all; it
stops once they are read, or at the end of the list. -/
def spanWalk (b : ByteBuffer) : Nat → Nat → Option Nat → Except ByteBufferFault (List UInt8)
  | _, _, none => .ok []
  | 0, _, some _ => .error .endlessList
  | fuel + 1, rem, some a => do
    let s ← b.node (some a)
    let span := s.payload.take rem
    if rem - span.length = 0 then return span
    let rest ← spanWalk b fuel (rem - span.length) s.next
    return span ++ rest

/-- The octets of the spans of `segments()`, `length()` octets in all. -/
def segmentBytes (b : ByteBuffer) : Except ByteBufferFault (List UInt8) := do
  let start ← match b.ctrl with
    | none => pure none
    | some c => b.skipEmpty (b.heap.nextAddr + 1) c.head
  if start.isNone ∧ b.length ≠ 0 then throw .emptySegmentRange
  b.spanWalk (b.heap.nextAddr + 1) b.length start

/-! ## Operations -/

/-- The copy loop of `append(span)`: fill the tail, adding a segment when it is full. -/
def appendLoop (b : ByteBuffer) : Nat → List UInt8 → Except ByteBufferFault (Bool × ByteBuffer)
  | _, [] => .ok (true, b)
  | 0, _ :: _ => .error .endlessList
  | fuel + 1, bytes@(_ :: _) => do
    let c ← b.cb
    let tail ← b.node c.tail
    let (ok, b) ← if tail.tailroom = 0 then appendSegment pc b 0 else pure (true, b)
    if !ok then return (false, b)
    let c ← b.cb
    let tail ← b.node c.tail
    let toWrite := min tail.tailroom bytes.length
    let b ← b.modifyNode c.tail fun s => s.append (bytes.take toWrite)
    let c ← b.cb
    let b := b.setCb { c with pktLen := c.pktLen + toWrite }
    appendLoop b fuel (bytes.drop toWrite)

/-- `append(span<const uint8_t>)`. -/
def append (b : ByteBuffer) (bytes : List UInt8) : Except ByteBufferFault (Bool × ByteBuffer) := do
  if bytes.isEmpty then return (true, b)
  let (ok, b) ← if !b.hasCtrlBlock then appendSegment pc b defaultFirstSegmentHeadroom
    else pure (true, b)
  if !ok then return (false, b)
  appendLoop pc b bytes.length bytes

/-- `append(uint8_t)`. -/
def appendByte (b : ByteBuffer) (byte : UInt8) : Except ByteBufferFault (Bool × ByteBuffer) := do
  let full ← if b.isEmpty then pure true
    else do
      let c ← b.cb
      let tail ← b.node c.tail
      pure (tail.tailroom = 0)
  let (ok, b) ← if full then appendSegment pc b defaultFirstSegmentHeadroom else pure (true, b)
  if !ok then return (false, b)
  let c ← b.cb
  let b ← b.modifyNode c.tail fun s => s.appendByte byte
  let c ← b.cb
  return (true, b.setCb { c with pktLen := c.pktLen + 1 })

/-- The copy loop of `prepend(span)`: fill the head's headroom from the
back of the remaining octets, adding a segment in front when it is full. -/
def prependLoop (b : ByteBuffer) : Nat → List UInt8 → Except ByteBufferFault (Bool × ByteBuffer)
  | _, [] => .ok (true, b)
  | 0, _ :: _ => .error .endlessList
  | fuel + 1, bytes@(_ :: _) => do
    let c ← b.cb
    let head ← b.node c.head
    let (ok, b) ← if head.headroom = 0 then prependSegment pc b bytes.length else pure (true, b)
    if !ok then return (false, b)
    let c ← b.cb
    let head ← b.node c.head
    let toWrite := min head.headroom bytes.length
    let b ← b.modifyNode c.head fun s => s.prepend (bytes.drop (bytes.length - toWrite))
    let c ← b.cb
    let b := b.setCb { c with pktLen := c.pktLen + toWrite }
    prependLoop b fuel (bytes.take (bytes.length - toWrite))

/-- `prepend(span<const uint8_t>)`; into an empty buffer it appends. -/
def prepend (b : ByteBuffer) (bytes : List UInt8) : Except ByteBufferFault (Bool × ByteBuffer) :=
  if b.isEmpty then append pc b bytes else prependLoop pc b bytes.length bytes

/-- The loop of `reserve_prepend`: grow the head's payload into its
headroom, adding a segment in front while the buffer is empty or the head
has no headroom. -/
def reservePrependLoop (b : ByteBuffer) : Nat → Nat → Except ByteBufferFault (Bool × ByteBuffer)
  | 0, _ => .ok (true, b)
  | _, 0 => .error .endlessList
  | rem + 1, fuel + 1 => do
    let needSegment ← if b.isEmpty then pure true
      else do
        let c ← b.cb
        let head ← b.node c.head
        pure (head.headroom = 0)
    let (ok, b) ← if needSegment then prependSegment pc b (rem + 1) else pure (true, b)
    if !ok then return (false, b)
    let c ← b.cb
    let head ← b.node c.head
    let toReserve := min head.headroom (rem + 1)
    let b ← b.modifyNode c.head fun s => s.reservePrepend toReserve
    reservePrependLoop b (rem + 1 - toReserve) fuel

/-- `reserve_prepend`: whether `n` octets were reserved in front (the source
returns an empty view when not). -/
def reservePrepend (b : ByteBuffer) (n : Nat) : Except ByteBufferFault (Bool × ByteBuffer) := do
  let (ok, b) ← reservePrependLoop pc b n (n + 1)
  if !ok then return (false, b)
  if n = 0 then return (true, b)
  let c ← b.cb
  return (true, b.setCb { c with pktLen := c.pktLen + n })

/-- The loop of `trim_head`: trim the head segment, and drop it once it is
empty. -/
def trimHeadLoop (b : ByteBuffer) (n : Nat) : Nat → Nat → Except ByteBufferFault ByteBuffer
  | _, 0 => .error .endlessList
  | trimmed, fuel + 1 =>
    if trimmed = n then .ok b
    else do
      let c ← b.cb
      let head ← b.node c.head
      let toTrim := min (n - trimmed) head.length
      let b ← b.modifyNode c.head fun s => s.trimHead toTrim
      let c := { c with pktLen := c.pktLen - toTrim }
      let b := b.setCb c
      let head ← b.node c.head
      let b ← if head.length = 0 then
          -- the head moves on; the tail is left as it is
          match c.head with
          | some a => pure ((b.setCb { c with head := head.next }).destroyNode a)
          | none => throw (.invalidSegment none)
        else pure b
      trimHeadLoop b n (trimmed + toTrim) fuel

/-- `trim_head`. -/
def trimHead (b : ByteBuffer) (n : Nat) : Except ByteBufferFault ByteBuffer :=
  if b.length ≥ n then trimHeadLoop b n 0 (n + b.heap.nextAddr + 1) else .error .trimHeadTooMany

/-- The walk of `pop_back` to the node before the tail. -/
def findBefore (b : ByteBuffer) (tail : Option Nat) : Nat → Option Nat → Except ByteBufferFault (Option Nat)
  | 0, _ => .error .endlessList
  | fuel + 1, p => do
    let s ← b.node p
    if s.next = tail then return p else findBefore b tail fuel s.next

/-- `pop_last_segment`. -/
def popLastSegment (b : ByteBuffer) : Except ByteBufferFault ByteBuffer := do
  let c ← b.cb
  match c.tail with
  | none => return b
  | some a =>
    let tail ← b.node (some a)
    let c := { c with pktLen := c.pktLen - tail.length }
    -- `segments.pop_back()`
    let (b, c) ← if c.head = c.tail then pure (b, { c with head := none, tail := none })
      else do
        let newTail ← findBefore b c.tail (b.heap.nextAddr + 1) c.head
        let b ← b.modifyNode newTail fun s => pure (s.setNext none)
        pure (b, { c with tail := newTail })
    return (b.setCb c).destroyNode a

/-- Destroy the segments from `p` on. -/
def destroyFrom (b : ByteBuffer) : Nat → Option Nat → Except ByteBufferFault ByteBuffer
  | _, none => .ok b
  | 0, some _ => .error .endlessList
  | fuel + 1, some a => do
    let s ← b.node (some a)
    destroyFrom (b.destroyNode a) fuel s.next

/-- The walk of `trim_tail` to the segment that becomes the tail. -/
def trimTailWalk (b : ByteBuffer) (newLen : Nat) : Nat → Nat → Option Nat →
    Except ByteBufferFault ByteBuffer
  | _, _, none => .ok b
  | 0, _, some _ => .error .endlessList
  | fuel + 1, count, some a => do
    let s ← b.node (some a)
    if count + s.length ≥ newLen then
      let b ← destroyFrom b (b.heap.nextAddr + 1) s.next
      let b ← b.modifyNode (some a) fun s => (s.setNext none).resize (newLen - count)
      let c ← b.cb
      return b.setCb { c with tail := some a, pktLen := newLen }
    else trimTailWalk b newLen fuel (count + s.length) s.next

/-- `trim_tail`. -/
def trimTail (b : ByteBuffer) (n : Nat) : Except ByteBufferFault ByteBuffer := do
  if b.length < n then throw .trimTailTooMany
  if n = 0 then return b
  let c ← b.cb
  let tail ← b.node c.tail
  if tail.length ≥ n then
    let b ← b.modifyNode c.tail fun s => s.trimTail n
    let c := { c with pktLen := c.pktLen - n }
    let b := b.setCb c
    let tail ← b.node c.tail
    if tail.length = 0 then popLastSegment b else return b
  else
    trimTailWalk b (b.length - n) (b.heap.nextAddr + 1) 0 c.head

/-- The loop of `linearize`: move the octets of each later segment into the
head and destroy that segment. -/
def linearizeLoop (b : ByteBuffer) : Nat → Option Nat → Except ByteBufferFault ByteBuffer
  | _, none => .ok b
  | 0, some _ => .error .endlessList
  | fuel + 1, some a => do
    let c ← b.cb
    let s ← b.node (some a)
    let b ← b.modifyNode c.head fun h => h.append s.payload
    linearizeLoop (b.destroyNode a) fuel s.next

/-- `linearize`: whether the octets now sit in one segment. -/
def linearize (b : ByteBuffer) : Except ByteBufferFault (Bool × ByteBuffer) := do
  if b.isEmpty then return (true, b)
  let c ← b.cb
  if c.head = c.tail then return (true, b)
  let head ← b.node c.head
  if b.length > head.capacity - head.headroom then return (false, b)
  let b ← linearizeLoop b (b.heap.nextAddr + 1) head.next
  let b ← b.modifyNode c.head fun s => pure (s.setNext none)
  let c ← b.cb
  return (true, b.setCb { c with tail := c.head })

/-- The growing loop of `resize`: the tail's payload is set to the octets
added in this round, or a segment is added when the tail is full. -/
def resizeGrowLoop (b : ByteBuffer) : Nat → Nat → Except ByteBufferFault (Bool × ByteBuffer)
  | 0, _ => .ok (true, b)
  | _, 0 => .error .endlessList
  | toAdd + 1, fuel + 1 => do
    let full ← if !b.hasCtrlBlock then pure true
      else do
        let c ← b.cb
        let tail ← b.node c.tail
        pure (tail.tailroom = 0)
    let (ok, b) ← if full then appendSegment pc b 0 else pure (true, b)
    if !ok then return (false, b)
    let c ← b.cb
    let tail ← b.node c.tail
    let added := min tail.tailroom (toAdd + 1)
    let b ← b.modifyNode c.tail fun s => s.resize added
    resizeGrowLoop b (toAdd + 1 - added) fuel

/-- The shrinking walk of `resize`: cut each segment to what is left to
keep, and make the segment where the count is reached the tail. -/
def resizeShrinkWalk (b : ByteBuffer) (newSz : Nat) : Nat → Nat → Option Nat →
    Except ByteBufferFault ByteBuffer
  | 0, _, _ => .error .endlessList
  | fuel + 1, count, p =>
    if count < newSz then do
      let s ← b.node p
      let newSegLen := min s.length (newSz - count)
      let b ← if newSegLen ≠ s.length then b.modifyNode p fun s => s.resize newSegLen else pure b
      let count := count + newSegLen
      let b ← if count = newSz then do
          let b ← b.modifyNode p fun s => pure (s.setNext none)
          let c ← b.cb
          pure (b.setCb { c with tail := p })
        else pure b
      let s ← b.node p
      resizeShrinkWalk b newSz fuel count s.next
    else .ok b

/-- `resize`: whether the buffer now holds `newSz` octets. -/
def resize (b : ByteBuffer) (newSz : Nat) : Except ByteBufferFault (Bool × ByteBuffer) := do
  let prevLen := b.length
  if newSz = prevLen then return (true, b)
  let b ← if newSz > prevLen then do
      let (ok, b) ← resizeGrowLoop pc b (newSz - prevLen) (newSz - prevLen + 1)
      if !ok then return (false, b)
      pure b
    else do
      let c ← b.cb
      if 0 < newSz then resizeShrinkWalk b newSz (b.heap.nextAddr + 1) 0 c.head else pure b
  let c ← b.cb
  return (true, b.setCb { c with pktLen := newSz })

end ByteBuffer

end SrsRan
