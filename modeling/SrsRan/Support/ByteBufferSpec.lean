import SrsRan.Support.ByteBuffer

/-!
What the `byte_buffer` operations do to a buffer whose list is a single
segment, and two places where the list falls out of step with `pkt_len`:
`trim_head` of every octet moves the head to null but leaves the tail on
the destroyed segment, and growing with `resize` sets the tail's payload to
the octets added instead of adding them to it.
-/

namespace SrsRan

/-- Writing after the first `l` octets of a window extends the window. -/
theorem take_drop_writeAt {buf bytes : List UInt8} {h l : Nat} (hfit : h + l + bytes.length ≤ buf.length) :
    ((writeAt buf (h + l) bytes).drop h).take (l + bytes.length) = (buf.drop h).take l ++ bytes := by
  have hl : ((buf.drop h).take l).length = l := by simp; omega
  rw [writeAt, List.append_assoc, List.drop_append_of_le_length (by simp; omega), List.drop_take,
    Nat.add_sub_cancel_left, ← List.append_assoc, List.take_append_of_le_length (by simp; omega)]
  exact List.take_of_length_le (by rw [List.length_append, hl])

namespace ByteBufferSegment

theorem append_ok {s : ByteBufferSegment} {bytes : List UInt8} (h : bytes.length ≤ s.tailroom) :
    ∃ s', s.append bytes = .ok s' ∧ s'.headroom = s.headroom ∧ s'.length = s.length + bytes.length ∧
      s'.next = s.next ∧ s'.capacity = s.capacity ∧ s'.payload = s.payload ++ bytes := by
  have := s.fits
  unfold tailroom capacity at h
  have hcap : (writeAt s.buffer (s.headroom + s.length) bytes).length = s.buffer.length :=
    length_writeAt (by omega)
  refine ⟨_, dif_pos h, rfl, rfl, rfl, hcap, ?_⟩
  dsimp only [payload]
  exact take_drop_writeAt (by omega)

@[simp] theorem length_payload (s : ByteBufferSegment) : s.payload.length = s.length := by
  have := s.fits
  simp [payload]
  omega

theorem resize_ok {s : ByteBufferSegment} {n : Nat} (h : n ≤ s.capacity - s.headroom) :
    ∃ s', s.resize n = .ok s' ∧ s'.buffer = s.buffer ∧ s'.headroom = s.headroom ∧ s'.length = n ∧
      s'.next = s.next :=
  ⟨_, dif_pos h, rfl, rfl, rfl, rfl⟩

theorem trimHead_ok {s : ByteBufferSegment} {n : Nat} (h : n ≤ s.length) :
    ∃ s', s.trimHead n = .ok s' ∧ s'.length = s.length - n ∧ s'.next = s.next :=
  ⟨_, dif_pos h, rfl, rfl⟩

end ByteBufferSegment

namespace ByteBuffer

variable {pc : ByteBufferPoolConfig}

@[simp] theorem cb_setCb (b : ByteBuffer) (c : ByteBufferControlBlock) : (b.setCb c).cb = .ok c := rfl

@[simp] theorem ctrl_setCb (b : ByteBuffer) (c : ByteBufferControlBlock) : (b.setCb c).ctrl = some c := rfl

@[simp] theorem heap_setCb (b : ByteBuffer) (c : ByteBufferControlBlock) : (b.setCb c).heap = b.heap := rfl

@[simp] theorem setCb_setCb (b : ByteBuffer) (c c' : ByteBufferControlBlock) :
    (b.setCb c).setCb c' = b.setCb c' := rfl

@[simp] theorem node_setCb (b : ByteBuffer) (c : ByteBufferControlBlock) (p : Option Nat) :
    (b.setCb c).node p = b.node p := rfl

@[simp] theorem ctrl_setNode (b : ByteBuffer) (a : Nat) (s : ByteBufferSegment) :
    (b.setNode a s).ctrl = b.ctrl := rfl

@[simp] theorem cb_setNode (b : ByteBuffer) (a : Nat) (s : ByteBufferSegment) :
    (b.setNode a s).cb = b.cb := rfl

@[simp] theorem nextAddr_setNode (b : ByteBuffer) (a : Nat) (s : ByteBufferSegment) :
    (b.setNode a s).heap.nextAddr = b.heap.nextAddr := rfl

@[simp] theorem nodes_setNode_self (b : ByteBuffer) (a : Nat) (s : ByteBufferSegment) :
    (b.setNode a s).heap.nodes a = some s := by
  simp [setNode]

@[simp] theorem ctrl_destroyNode (b : ByteBuffer) (a : Nat) : (b.destroyNode a).ctrl = b.ctrl := rfl

@[simp] theorem nodes_destroyNode_self (b : ByteBuffer) (a : Nat) : (b.destroyNode a).heap.nodes a = none := by
  unfold destroyNode
  dsimp only
  split <;> simp

@[simp] theorem node_setNode_self (b : ByteBuffer) (a : Nat) (s : ByteBufferSegment) :
    (b.setNode a s).node (some a) = .ok s := by
  simp [node]

theorem cb_of_ctrl {b : ByteBuffer} {c : ByteBufferControlBlock} (h : b.ctrl = some c) : b.cb = .ok c := by
  simp [cb, h]

theorem length_of_ctrl {b : ByteBuffer} {c : ByteBufferControlBlock} (h : b.ctrl = some c) :
    b.length = c.pktLen := by
  simp [length, h]

theorem node_of_nodes {b : ByteBuffer} {a : Nat} {s : ByteBufferSegment} (h : b.heap.nodes a = some s) :
    b.node (some a) = .ok s := by
  simp [node, h]

/-- A write through a pointer to a live segment. -/
theorem modifyNode_some {b : ByteBuffer} {a : Nat} {s s' : ByteBufferSegment}
    {f : ByteBufferSegment → Except ByteBufferFault ByteBufferSegment}
    (hs : b.heap.nodes a = some s) (hf : f s = .ok s') : b.modifyNode (some a) f = .ok (b.setNode a s') := by
  simp [modifyNode, node_of_nodes hs, hf]

@[simp] theorem appendLoop_nil (b : ByteBuffer) (fuel : Nat) : appendLoop pc b fuel [] = .ok (true, b) := by
  cases fuel <;> rfl

@[simp] theorem trimHeadLoop_done (b : ByteBuffer) (n fuel : Nat) : trimHeadLoop b n n (fuel + 1) = .ok b := by
  simp [trimHeadLoop]

@[simp] theorem resizeGrowLoop_zero (b : ByteBuffer) (fuel : Nat) : resizeGrowLoop pc b 0 fuel = .ok (true, b) := by
  cases fuel <;> rfl

@[simp] theorem iterFrom_none (b : ByteBuffer) (fuel : Nat) : b.iterFrom fuel none = .ok [] := by
  cases fuel <;> rfl

/-- The list of `b` is the one live segment `s` at address `a`. -/
structure Single (b : ByteBuffer) (c : ByteBufferControlBlock) (a : Nat) (s : ByteBufferSegment) : Prop where
  ctrl_eq : b.ctrl = some c
  head_eq : c.head = some a
  tail_eq : c.tail = some a
  node_eq : b.heap.nodes a = some s
  next_eq : s.next = none

theorem Single.of_setNode (b : ByteBuffer) {a : Nat} {s' : ByteBufferSegment} (hnext : s'.next = none)
    {c' : ByteBufferControlBlock} (hhead : c'.head = some a) (htail : c'.tail = some a) :
    Single ((b.setNode a s').setCb c') c' a s' :=
  ⟨rfl, hhead, htail, nodes_setNode_self b a s', hnext⟩

/-! ## A buffer of one segment -/

variable (pc) in
/-- The first segment of a fresh buffer, from a pool with a free block. -/
theorem appendSegment_empty {n : Nat} (hn : 0 < n) (headroom : Nat) :
    ∃ b c, appendSegment pc (empty n) headroom = .ok (true, b) ∧
      Single b c 0 (ByteBufferSegment.create pc.cbSegmentSize headroom) ∧ c.pktLen = 0 := by
  simp only [appendSegment, empty, addHeadSegment, allocateBlock, hn, if_true, Option.pure_def, Option.bind_eq_bind,
    Option.bind_some]
  refine ⟨_, ⟨some 0, some 0, 0, some 0, false⟩, rfl, ?_, rfl⟩
  exact ⟨rfl, rfl, rfl, nodes_setNode_self _ _ _, rfl⟩

variable (pc) in
/-- The copy loop of `append` when the octets fit the tail. -/
theorem appendLoop_fits {b : ByteBuffer} {c : ByteBufferControlBlock} {a : Nat} {s : ByteBufferSegment}
    (hb : Single b c a s) {bytes : List UInt8} (hne : bytes ≠ []) (hfit : bytes.length ≤ s.tailroom)
    (fuel : Nat) :
    ∃ b' s', appendLoop pc b (fuel + 1) bytes = .ok (true, b') ∧
      Single b' { c with pktLen := c.pktLen + bytes.length } a s' ∧ s'.headroom = s.headroom ∧
      s'.length = s.length + bytes.length ∧ s'.capacity = s.capacity ∧ s'.payload = s.payload ++ bytes := by
  obtain ⟨s', happ, hh, hl, hn, hcap, hpay⟩ := s.append_ok hfit
  have hroom : s.tailroom ≠ 0 := by
    have := List.length_pos_iff.mpr hne
    omega
  have hmin : min s.tailroom bytes.length = bytes.length := Nat.min_eq_right hfit
  refine ⟨_, s', ?_, Single.of_setNode b (hn.trans hb.next_eq) hb.head_eq hb.tail_eq, hh, hl, hcap, hpay⟩
  obtain ⟨x, xs, rfl⟩ := List.exists_cons_of_ne_nil hne
  rw [appendLoop]
  simp only [cb_of_ctrl hb.ctrl_eq, Fallible.ok_bind, hb.tail_eq, node_of_nodes hb.node_eq, hroom, if_false,
    Fallible.pure_eq_ok, Bool.not_true, hmin, List.take_length,
    modifyNode_some (f := fun t => t.append (x :: xs)) hb.node_eq happ, List.drop_length,
    cb_setNode, Bool.false_eq_true, appendLoop_nil]

variable (pc) in
/-- `append` to a fresh buffer of octets that fit its first segment. -/
theorem append_empty {n : Nat} (hn : 0 < n) {bytes : List UInt8} (hne : bytes ≠ [])
    (hfit : defaultFirstSegmentHeadroom + bytes.length ≤ pc.cbSegmentSize) :
    ∃ b c s, append pc (empty n) bytes = .ok (true, b) ∧ Single b c 0 s ∧ c.pktLen = bytes.length ∧
      s.payload = bytes ∧ s.headroom = defaultFirstSegmentHeadroom ∧ s.capacity = pc.cbSegmentSize := by
  obtain ⟨b₀, c₀, hseg, hb₀, hlen₀⟩ := appendSegment_empty pc hn defaultFirstSegmentHeadroom
  have hh : (ByteBufferSegment.create pc.cbSegmentSize defaultFirstSegmentHeadroom).headroom =
      defaultFirstSegmentHeadroom := by
    simp only [ByteBufferSegment.create]
    omega
  have hroom : bytes.length ≤ (ByteBufferSegment.create pc.cbSegmentSize defaultFirstSegmentHeadroom).tailroom := by
    simp only [ByteBufferSegment.tailroom, ByteBufferSegment.capacity, hh]
    simp [ByteBufferSegment.create]
    omega
  have hpos : bytes.length = (bytes.length - 1) + 1 := by
    have := List.length_pos_iff.mpr hne
    omega
  obtain ⟨b, s, hloop, hb, hsh, _, hcap, hpay⟩ := appendLoop_fits pc hb₀ hne hroom (bytes.length - 1)
  refine ⟨b, _, s, ?_, hb, by simp [hlen₀], ?_, hsh.trans hh, hcap.trans (by simp [ByteBufferSegment.create,
    ByteBufferSegment.capacity])⟩
  · have hempty : bytes.isEmpty = false := by simpa using hne
    simp only [append, hempty, hasCtrlBlock, empty, Option.isSome_none, Bool.not_false, if_true]
    rw [show (ByteBuffer.mk ⟨fun _ => none, fun _ => false, 0, n, []⟩ none) = empty n from rfl, hseg]
    simp only [Fallible.ok_bind, Bool.not_true, Bool.false_eq_true, if_false]
    rw [hpos]
    exact hloop
  · rw [hpay]
    simp [ByteBufferSegment.payload, ByteBufferSegment.create]

/-- Iterating a buffer of one non-empty segment reads its payload. -/
theorem bytes_single {b : ByteBuffer} {c : ByteBufferControlBlock} {a : Nat} {s : ByteBufferSegment}
    (hb : Single b c a s) (hpos : 0 < s.length) : b.bytes = .ok s.payload := by
  simp [bytes, hb.ctrl_eq, hb.head_eq, skipEmpty, iterFrom, node_of_nodes hb.node_eq, hpos.ne', hb.next_eq,
    Fallible.ok_bind]

/-! ## `trim_head` of every octet -/

/-- `trim_head` of every octet of a one-segment buffer destroys the segment
and moves the head to null; the tail still names the destroyed segment. -/
theorem trimHead_single {b : ByteBuffer} {c : ByteBufferControlBlock} {a : Nat} {s : ByteBufferSegment}
    (hb : Single b c a s) (hlen : c.pktLen = s.length) (hpos : 0 < s.length) :
    ∃ b', trimHead b s.length = .ok b' ∧ b'.ctrl = some { c with head := none, pktLen := 0 } ∧
      b'.heap.nodes a = none := by
  obtain ⟨s', htrim, hl', hn'⟩ := s.trimHead_ok (Nat.le_refl s.length)
  have hl0 : s'.length = 0 := by omega
  obtain ⟨k, hk⟩ : ∃ k, s.length + b.heap.nextAddr = k + 1 := ⟨_, (Nat.succ_pred_eq_of_pos (by omega)).symm⟩
  refine ⟨((b.setNode a s').setCb { c with head := none, pktLen := 0 }).destroyNode a, ?_, rfl,
    nodes_destroyNode_self _ _⟩
  rw [trimHead, if_pos (by simp [length_of_ctrl hb.ctrl_eq, hlen]), hk, trimHeadLoop]
  simp only [hpos.ne, if_false, cb_of_ctrl hb.ctrl_eq, Fallible.ok_bind, hb.head_eq, node_of_nodes hb.node_eq,
    Nat.sub_zero, min_self, modifyNode_some (f := fun t => t.trimHead s.length) hb.node_eq htrim,
    node_setCb, node_setNode_self, hl0, if_true, Fallible.pure_eq_ok, Nat.zero_add, trimHeadLoop_done,
    setCb_setCb, hn', hb.next_eq, hlen, Nat.sub_self]

/-- A span `append` once the tail names a destroyed segment. -/
theorem appendLoop_dangling {b : ByteBuffer} {c : ByteBufferControlBlock} {a : Nat} (hc : b.ctrl = some c)
    (ht : c.tail = some a) (hn : b.heap.nodes a = none) (x : UInt8) (xs : List UInt8) (fuel : Nat) :
    appendLoop pc b (fuel + 1) (x :: xs) = .error (.invalidSegment (some a)) := by
  simp [appendLoop, cb_of_ctrl hc, ht, node, hn, Fallible.ok_bind, Fallible.error_bind]

/-- A span `append` to a buffer that has a control block goes straight to the copy loop. -/
theorem append_of_ctrl {b : ByteBuffer} {c : ByteBufferControlBlock} (hc : b.ctrl = some c) {bytes : List UInt8}
    (hne : bytes ≠ []) : append pc b bytes = appendLoop pc b bytes.length bytes := by
  have hempty : bytes.isEmpty = false := by simpa using hne
  simp [append, hempty, hasCtrlBlock, hc, Fallible.ok_bind]

/-! ## `resize` to a larger size -/

variable (pc) in
/-- The growing loop of `resize` on one segment with room: the segment's
length is set to the number of octets added. -/
theorem resizeGrowLoop_single {b : ByteBuffer} {c : ByteBufferControlBlock} {a : Nat} {s : ByteBufferSegment}
    (hb : Single b c a s) {k : Nat} (hk : 0 < k) (hroom : k ≤ s.tailroom) :
    ∃ s', resizeGrowLoop pc b k (k + 1) = .ok (true, b.setNode a s') ∧ s'.buffer = s.buffer ∧
      s'.headroom = s.headroom ∧ s'.length = k ∧ s'.next = s.next := by
  have hfit : k ≤ s.capacity - s.headroom := by
    unfold ByteBufferSegment.tailroom at hroom
    omega
  obtain ⟨s', hres, hbuf, hh, hl, hn⟩ := s.resize_ok hfit
  refine ⟨s', ?_, hbuf, hh, hl, hn⟩
  obtain ⟨j, rfl⟩ : ∃ j, k = j + 1 := ⟨k - 1, by omega⟩
  have hfull : (s.tailroom = 0) = False := by simp; omega
  rw [resizeGrowLoop]
  simp only [hasCtrlBlock, hb.ctrl_eq, Option.isSome_some, Bool.not_true, Bool.false_eq_true, if_false,
    cb_of_ctrl hb.ctrl_eq, hb.tail_eq, node_of_nodes hb.node_eq, Fallible.ok_bind, Fallible.pure_eq_ok, hfull,
    decide_false, Nat.min_eq_right hroom, modifyNode_some (f := fun t => t.resize (j + 1)) hb.node_eq hres,
    Nat.sub_self, resizeGrowLoop_zero]

variable (pc) in
/-- `resize` of a one-segment buffer to a larger size that fits the segment
leaves the payload as the first `k` octets of the segment's block, where `k`
is the number of octets added. -/
theorem resize_grow_single {b : ByteBuffer} {c : ByteBufferControlBlock} {a : Nat} {s : ByteBufferSegment}
    (hb : Single b c a s) (hlen : c.pktLen = s.length) {k : Nat} (hk : 0 < k) (hroom : k ≤ s.tailroom) :
    ∃ b' s', resize pc b (s.length + k) = .ok (true, b') ∧ Single b' { c with pktLen := s.length + k } a s' ∧
      s'.length = k ∧ s'.payload = (s.buffer.drop s.headroom).take k := by
  obtain ⟨s', hloop, hbuf, hh, hl, hn⟩ := resizeGrowLoop_single pc hb hk hroom
  refine ⟨_, s', ?_, Single.of_setNode b (hn.trans hb.next_eq) hb.head_eq hb.tail_eq, hl, ?_⟩
  · have hgt : (s.length + k > s.length) = True := by simp; omega
    simp only [resize, length_of_ctrl hb.ctrl_eq, hlen, Nat.add_eq_left, hk.ne', if_false, hgt, if_true,
      Nat.add_sub_cancel_left, hloop, Fallible.ok_bind, Bool.not_true, Bool.false_eq_true, Fallible.pure_eq_ok,
      cb_setNode, cb_of_ctrl hb.ctrl_eq]
  · simp [ByteBufferSegment.payload, hbuf, hh, hl]

/-! ## Where the list and `pkt_len` part -/

variable (pc) in
/-- Two runs of `byte_buffer` operations that all succeed and still leave the
segment list out of step with `pkt_len`. After `append` of one octet to an
empty buffer and `trim_head` of it, the head is null while the tail names the
destroyed segment, so the next span `append` goes through the dangling tail.
After `append` of three octets and `resize` to five, `pkt_len` is five but the
list holds two octets: the segment's length was set to the two octets added. -/
theorem trimHead_dangles_tail_and_resize_cuts_tail {n : Nat} (hn : 0 < n)
    (hcap : defaultFirstSegmentHeadroom + 5 ≤ pc.cbSegmentSize) (x y z : UInt8) :
    (∃ b b' c', append pc (empty n) [x] = .ok (true, b) ∧ trimHead b 1 = .ok b' ∧ b'.ctrl = some c' ∧
      c'.pktLen = 0 ∧ c'.head = none ∧ c'.tail = some 0 ∧
      append pc b' [y] = .error (.invalidSegment (some 0))) ∧
    (∃ b b', append pc (empty n) [x, y, z] = .ok (true, b) ∧ resize pc b 5 = .ok (true, b') ∧
      b'.length = 5 ∧ b'.bytes = .ok [x, y]) := by
  constructor
  · obtain ⟨b, c, s, happ, hb, hlen, hpay, -, -⟩ :=
      append_empty pc hn (show [x] ≠ [] by simp) (by simp; omega)
    have hsl : s.length = 1 := by rw [← s.length_payload, hpay]; rfl
    obtain ⟨b', htrim, hc', hgone⟩ := trimHead_single hb (hlen.trans hsl.symm) (by omega)
    rw [hsl] at htrim
    refine ⟨b, b', _, happ, htrim, hc', rfl, rfl, hb.tail_eq, ?_⟩
    rw [append_of_ctrl hc' (by simp)]
    exact appendLoop_dangling hc' hb.tail_eq hgone y [] 0
  · obtain ⟨b, c, s, happ, hb, hlen, hpay, hh, hcapS⟩ :=
      append_empty pc hn (show [x, y, z] ≠ [] by simp) (by simp; omega)
    have hsl : s.length = 3 := by rw [← s.length_payload, hpay]; rfl
    have hroom : 2 ≤ s.tailroom := by
      simp only [ByteBufferSegment.tailroom, hh, hcapS, hsl]
      omega
    obtain ⟨b', s', hres, hb', hl', hpay'⟩ := resize_grow_single pc hb (hlen.trans hsl.symm) (k := 2)
      (by decide) hroom
    have hkept : s'.payload = [x, y] := by
      have : s'.payload = s.payload.take 2 := by
        rw [hpay', ByteBufferSegment.payload, List.take_take, Nat.min_eq_left (by omega)]
      rw [this, hpay]
      rfl
    rw [hsl] at hres hb'
    exact ⟨b, b', happ, hres, length_of_ctrl hb'.ctrl_eq, hkept ▸ bytes_single hb' (by omega)⟩

theorem trimHead_dangles_tail_and_resize_cuts_tail_pool21 :
    let pc : ByteBufferPoolConfig := ⟨21, 1, Nat.one_pos⟩
    0 < 1 ∧ defaultFirstSegmentHeadroom + 5 ≤ pc.cbSegmentSize ∧
    (∃ b b' c', append pc (empty 1) [1] = .ok (true, b) ∧ trimHead b 1 = .ok b' ∧ b'.ctrl = some c' ∧
      c'.pktLen = 0 ∧ c'.head = none ∧ c'.tail = some 0 ∧
      append pc b' [2] = .error (.invalidSegment (some 0))) ∧
    (∃ b b', append pc (empty 1) [1, 2, 3] = .ok (true, b) ∧ resize pc b 5 = .ok (true, b') ∧
      b'.length = 5 ∧ b'.bytes = .ok [1, 2]) :=
  ⟨Nat.one_pos, by decide, trimHead_dangles_tail_and_resize_cuts_tail ⟨21, 1, Nat.one_pos⟩ Nat.one_pos
    (by decide) 1 2 3⟩

end ByteBuffer
end SrsRan
