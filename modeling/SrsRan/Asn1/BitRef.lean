import SrsRan.Support.BitEncoding

/-!
`asn1::bit_ref` and `cbit_ref` (`asn1_utils.cpp`): the writer and reader
loops of `bit_encoder` and `bit_decoder`, with `SRSASN_CODE` results. They
differ from those in the bound `pack` asserts (`n_bits < 64`) and in the
aligned case of `unpack_bytes`, which copies the buffer from its start to its
end into the span, wherever the reader stands and however short the span is.
Off that case the two readers agree, so the round trip of `bit_ref` and
`cbit_ref` holds for every sequence of calls whose non-empty `pack_bytes`
start off an octet boundary; one that starts on a boundary past the first
octet is read back as more octets than were written.
-/

namespace SrsRan

/-- `SRSASN_CODE`, less `SRSASN_SUCCESS`. -/
inductive SrsasnCode
  | srsasnError
  | srsasnErrorEncodeFail
  | srsasnErrorDecodeFail
  deriving DecidableEq, Repr

/-- How a call of the ASN.1 coders fails: it returns an error code, or an
`srsran_assert` aborts. -/
inductive AsnError
  | code (c : SrsasnCode)
  | assertion
  deriving DecidableEq, Repr

namespace BitRef

/-- `bit_ref::pack`. -/
def pack (w : BitWriter) (val : UInt64) (nBits : Nat) : Except AsnError BitWriter :=
  if nBits < 64 then .ok (w.packBits val.toNat nBits) else .error .assertion

/-- `bit_ref::pack_bytes`. -/
def packBytes (w : BitWriter) (bytes : List UInt8) : Except AsnError BitWriter :=
  if bytes.isEmpty then .ok w
  else if w.offset = 0 then .ok (w.appendBytes bytes)
  else bytes.foldlM (fun w b => pack w b.toUInt64 8) w

/-- A call on a `bit_ref`. -/
def apply (w : BitWriter) : BitOp → Except AsnError BitWriter
  | .pack val nBits => pack w val nBits
  | .packBytes bytes => packBytes w bytes
  | .alignBytes => .ok w.alignBytesZero

/-- The writer after each call in turn, with `distance()` after each. -/
def run (w : BitWriter) : List BitOp → Except AsnError (BitWriter × List Nat)
  | [] => .ok (w, [])
  | op :: ops => do
    let w ← apply w op
    let (w', ds) ← run w ops
    pure (w', w.nofBits :: ds)

end BitRef

namespace CbitRef

/-- `cbit_ref::unpack` into a type of `tBits` bits. -/
def unpack (r : BitReader) (tBits nBits : Nat) : Except AsnError (Nat × BitReader) :=
  if nBits ≤ tBits then
    match r.unpackBits nBits with
    | some res => .ok res
    | none => .error (.code .srsasnErrorDecodeFail)
  else .error .assertion

/-- `cbit_ref::unpack_bytes` into a span of `k` octets: the octets written
from the span's start on, and the reader after them. In the aligned case
`std::copy(buffer.begin(), buffer.end(), bytes.begin())` writes the whole
buffer. -/
def unpackBytes (r : BitReader) (k : Nat) : Except AsnError (List UInt8 × BitReader) :=
  if k = 0 then .ok ([], r)
  else if k > r.buffer.length - r.it then .error (.code .srsasnErrorDecodeFail)
  else if r.offset = 0 then .ok (r.buffer, { r with it := r.it + k })
  else
    match r.unpackOctets k with
    | some res => .ok res
    | none => .error (.code .srsasnErrorDecodeFail)

/-- `cbit_ref::align_bytes`. -/
def alignBytes (r : BitReader) : Except AsnError BitReader :=
  if r.offset ≠ 0 then
    if r.it = r.buffer.length then .error (.code .srsasnErrorDecodeFail)
    else .ok { r with it := r.it + 1, offset := 0 }
  else .ok r

/-- The counterpart of a call on a `cbit_ref`; values are read into a
`uint64_t`. -/
def apply (r : BitReader) : BitOp → Except AsnError (BitRead × BitReader)
  | .pack _ nBits => do
    let (v, r) ← unpack r 64 nBits
    pure (.value v, r)
  | .packBytes bytes => do
    let (bs, r) ← unpackBytes r bytes.length
    pure (.bytes bs, r)
  | .alignBytes => do
    let r ← alignBytes r
    pure (.aligned, r)

/-- The counterparts of a sequence of calls, with `distance()` after each. -/
def replay (r : BitReader) : List BitOp → Except AsnError (List (BitRead × Nat))
  | [] => .ok []
  | op :: ops => do
    let (x, r) ← apply r op
    let xs ← replay r ops
    pure ((x, r.nofBits) :: xs)

end CbitRef

/-! ## The writer -/

namespace BitRef

open BitString

theorem pack_eq {w : BitWriter} {val : UInt64} {nBits : Nat} (h : nBits < 64) :
    pack w val nBits = .ok (w.packBits val.toNat nBits) := if_pos h

theorem packBytes_foldlM (w : BitWriter) (bytes : List UInt8) :
    bytes.foldlM (fun w b => pack w b.toUInt64 8) w =
      .ok (bytes.foldl (fun w b => w.packBits b.toNat 8) w) := by
  have hf : (fun w b => pack w b.toUInt64 8) =
      fun w (b : UInt8) => (pure (w.packBits b.toNat 8) : Except AsnError BitWriter) := by
    funext w b
    rw [pack_eq (by decide), UInt8.toNat_toUInt64]
    rfl
  rw [hf, List.foldlM_pure]
  rfl

theorem encoder_packBytes_foldlM (w : BitWriter) (bytes : List UInt8) :
    bytes.foldlM (fun w b => BitEncoder.pack w b.toUInt64 8) w =
      .ok (bytes.foldl (fun w b => w.packBits b.toNat 8) w) := by
  have hf : (fun w b => BitEncoder.pack w b.toUInt64 8) =
      fun w (b : UInt8) => (pure (w.packBits b.toNat 8) : Except BitCoderError BitWriter) := by
    funext w b
    rw [BitEncoder.pack, if_pos (by decide), UInt8.toNat_toUInt64]
    rfl
  rw [hf, List.foldlM_pure]
  rfl

/-- Below 64 bits, a `bit_ref` writes what a `bit_encoder` writes. -/
theorem apply_eq_encoder {w : BitWriter} {op : BitOp} {w' : BitWriter}
    (h : BitEncoder.apply w op = .ok w') (hop : op.fitsWidth 63 = true) : apply w op = .ok w' := by
  cases op with
  | pack val nBits =>
    simp only [BitOp.fitsWidth, decide_eq_true_eq] at hop
    simp only [BitEncoder.apply, BitEncoder.pack, show nBits ≤ 64 by omega, if_true,
      Except.ok.injEq] at h
    rw [apply, pack_eq (by omega), h]
  | packBytes bytes =>
    simp only [BitEncoder.apply, BitEncoder.packBytes] at h
    simp only [apply, packBytes]
    split_ifs at h ⊢
    · rw [Except.ok.inj h]
    · rw [Except.ok.inj h]
    · rw [encoder_packBytes_foldlM] at h
      rw [packBytes_foldlM, Except.ok.inj h]
  | alignBytes =>
    simp only [BitEncoder.apply, Except.ok.injEq] at h
    rw [apply, h]

theorem run_eq_encoder {w : BitWriter} {ops : List BitOp} {res : BitWriter × List Nat}
    (h : BitEncoder.run w ops = .ok res) (hops : ∀ op ∈ ops, op.fitsWidth 63 = true) :
    run w ops = .ok res := by
  induction ops generalizing w res with
  | nil =>
    simp only [BitEncoder.run, Except.ok.injEq] at h
    rw [run, h]
  | cons op ops ih =>
    simp only [BitEncoder.run] at h
    rcases happ : BitEncoder.apply w op with err | w₁
    · simp [happ] at h
    · rcases hrun : BitEncoder.run w₁ ops with err | ⟨w', ds⟩
      · simp [happ, hrun] at h
      · simp only [happ, hrun, Fallible.ok_bind, Fallible.pure_eq_ok, Except.ok.injEq] at h
        rw [run, apply_eq_encoder happ (hops op List.mem_cons_self), Fallible.ok_bind,
          ih hrun (fun op hop => hops op (List.mem_cons_of_mem _ hop))]
        simp only [Fallible.ok_bind, Fallible.pure_eq_ok, h]

theorem pack_holds {w : BitWriter} {bits : List Bool} (h : w.Holds bits) (val : UInt64)
    {nBits : Nat} (hn : nBits < 64) :
    ∃ w', pack w val nBits = .ok w' ∧ w'.Holds (bits ++ msbBits nBits val.toNat) :=
  ⟨_, pack_eq hn, h.packBits _ _⟩

end BitRef

/-! ## The reader -/

namespace CbitRef

/-- In the aligned case, `unpack_bytes` hands back the whole buffer,
whatever the reader's position and the span's size. -/
theorem unpackBytes_of_aligned {r : BitReader} {k : Nat} (hk : 0 < k)
    (hroom : k ≤ r.buffer.length - r.it) (h0 : r.offset = 0) :
    unpackBytes r k = .ok (r.buffer, { r with it := r.it + k }) := by
  rw [unpackBytes, if_neg (by omega), if_neg (by omega), if_pos h0]

/-- So past the first octet it writes more octets than the span holds. -/
theorem unpackBytes_overruns {r : BitReader} {k : Nat} (hk : 0 < k)
    (hroom : k ≤ r.buffer.length - r.it) (h0 : r.offset = 0) (hit : 0 < r.it) :
    ∃ out r', unpackBytes r k = .ok (out, r') ∧ k < out.length :=
  ⟨_, _, unpackBytes_of_aligned hk hroom h0, by omega⟩

open BitString in
theorem unpack_reads {r : BitReader} {n v : Nat} {rest : List Bool}
    (h : r.Reads (msbBits n v ++ rest)) {tBits : Nat} (hn : n ≤ tBits) :
    ∃ r', unpack r tBits n = .ok (v % 2 ^ n, r') ∧ r'.buffer = r.buffer ∧ r'.Reads rest := by
  obtain ⟨r', h', hbuf, hr'⟩ := h.unpackBits
  exact ⟨r', by rw [unpack, if_pos hn, h'], hbuf, hr'⟩

theorem alignBytes_reads {r : BitReader} {rest : List Bool}
    (h : r.Reads (List.replicate ((8 - r.offset) % 8) false ++ rest)) :
    ∃ r', alignBytes r = .ok r' ∧ r'.buffer = r.buffer ∧ r'.Reads rest := by
  obtain ⟨r', h', hbuf, hr'⟩ := BitDecoder.alignBytes_reads h
  refine ⟨r', ?_, hbuf, hr'⟩
  unfold BitDecoder.alignBytes at h'
  unfold alignBytes
  split_ifs at h' ⊢ <;> simp only [Except.ok.injEq] at h' ⊢ <;> exact h'

/-- Off that case, a `cbit_ref` reads what a `bit_decoder` reads. -/
theorem apply_eq_decoder {r : BitReader} {op : BitOp} {res : BitRead × BitReader}
    (h : BitDecoder.apply r op = .ok res)
    (hop : ∀ bytes, op = .packBytes bytes → bytes = [] ∨ r.offset ≠ 0) : apply r op = .ok res := by
  cases op with
  | pack val nBits =>
    simp only [BitDecoder.apply, BitDecoder.unpack] at h
    simp only [apply, unpack]
    split_ifs at h ⊢
    · rcases hres : r.unpackBits nBits with _ | res'
      · simp [hres] at h
      · simp only [hres, Fallible.ok_bind, Fallible.pure_eq_ok, Except.ok.injEq] at h ⊢
        exact h
    · simp at h
  | packBytes bytes =>
    rcases hop bytes rfl with he | h0
    · subst he
      simp only [BitDecoder.apply, BitDecoder.unpackBytes, List.length_nil, if_true,
        Fallible.ok_bind, Fallible.pure_eq_ok, Except.ok.injEq] at h
      simp only [apply, unpackBytes, List.length_nil, if_true, Fallible.ok_bind,
        Fallible.pure_eq_ok, h]
    · simp only [BitDecoder.apply, BitDecoder.unpackBytes, if_neg h0] at h
      simp only [apply, unpackBytes, if_neg h0]
      split_ifs at h ⊢
      · simp only [Fallible.ok_bind, Fallible.pure_eq_ok, Except.ok.injEq] at h ⊢
        exact h
      · simp at h
      · rcases hres : r.unpackOctets bytes.length with _ | res'
        · simp [hres] at h
        · simp only [hres, Fallible.ok_bind, Fallible.pure_eq_ok, Except.ok.injEq] at h ⊢
          exact h
  | alignBytes =>
    simp only [BitDecoder.apply, BitDecoder.alignBytes] at h
    simp only [apply, alignBytes]
    split_ifs at h ⊢
    · simp at h
    · simp only [Fallible.ok_bind, Fallible.pure_eq_ok, Except.ok.injEq] at h ⊢
      exact h
    · simp only [Fallible.ok_bind, Fallible.pure_eq_ok, Except.ok.injEq] at h ⊢
      exact h

end CbitRef

namespace BitOp

/-- Every non-empty `pack_bytes` among the calls starts off an octet
boundary. -/
def unalignedBytes (bits : List Bool) : List BitOp → Bool
  | [] => true
  | op :: ops =>
    (match op with
      | packBytes bytes => bytes.isEmpty || bits.length % 8 != 0
      | _ => true) && unalignedBytes (bits ++ op.appended bits) ops

end BitOp

namespace CbitRef

open BitString

theorem replay_reads {r : BitReader} {bits pad : List Bool} {ops : List BitOp}
    (h : r.Reads ((BitOp.stream bits ops).drop bits.length ++ pad))
    (hpos : r.nofBits = bits.length) (hops : ∀ op ∈ ops, op.fitsWidth 64 = true)
    (hfree : BitOp.unalignedBytes bits ops = true) :
    replay r ops = .ok (BitOp.trace bits ops) := by
  induction ops generalizing r bits with
  | nil => rfl
  | cons op ops ih =>
    obtain ⟨ys, hys⟩ := BitOp.stream_eq_append (bits ++ op.appended bits) ops
    have hstream : (BitOp.stream bits (op :: ops)).drop bits.length ++ pad =
        op.appended bits ++ ((BitOp.stream (bits ++ op.appended bits) ops).drop
          (bits ++ op.appended bits).length ++ pad) := by
      simp [BitOp.stream, hys]
    rw [hstream] at h
    simp only [BitOp.unalignedBytes, Bool.and_eq_true] at hfree
    obtain ⟨hhead, hfree⟩ := hfree
    obtain ⟨r', happ, -, hr', hpos'⟩ := BitDecoder.apply_reads h hpos (hops op List.mem_cons_self)
    have hcb := apply_eq_decoder happ (by
      rintro bytes rfl
      simp only [Bool.or_eq_true, List.isEmpty_iff, bne_iff_ne] at hhead
      rw [h.offset_eq hpos]
      exact hhead)
    have hrest := ih hr' hpos' (fun op hop => hops op (List.mem_cons_of_mem _ hop)) hfree
    simp [replay, hcb, hrest, BitOp.trace, hpos']

end CbitRef

/-- The round trip of `bit_ref` and `cbit_ref`, for the calls on which
`cbit_ref::unpack_bytes` does not take its aligned case: whatever calls
are made on a `bit_ref` over an empty buffer (`pack` with fewer than 64
bits, each non-empty `pack_bytes` off an octet boundary), every call
succeeds, and replaying their counterparts on a `cbit_ref` over the buffer
produced succeeds at every call, returns each value modulo `2 ^ n_bits` and
each run of octets, and after each call the reader's `distance()` is the
writer's. -/
theorem cbitRef_replays_bitRef (ops : List BitOp) (hops : ∀ op ∈ ops, op.fitsWidth 63 = true)
    (hfree : BitOp.unalignedBytes [] ops = true) :
    ∃ w ds, BitRef.run ⟨[], 0⟩ ops = .ok (w, ds) ∧
      CbitRef.replay (BitReader.ofBuffer w.bytes) ops = .ok ((ops.map BitOp.expected).zip ds) := by
  have hops64 : ∀ op ∈ ops, op.fitsWidth 64 = true := by
    intro op hop
    have := hops op hop
    cases op <;> simp_all [BitOp.fitsWidth]
    omega
  have h0 : BitWriter.Holds ⟨[], 0⟩ [] := BitWriter.holds_aligned []
  obtain ⟨w, hrun, hw⟩ := BitEncoder.run_holds h0 hops64
  refine ⟨w, _, BitRef.run_eq_encoder hrun hops, ?_⟩
  have hr := BitReader.reads_ofBuffer w.bytes
  rw [hw.2] at hr
  have hr' : (BitReader.ofBuffer w.bytes).Reads ((BitOp.stream [] ops).drop ([] : List Bool).length ++
      List.replicate ((8 - (BitOp.stream [] ops).length % 8) % 8) false) := by
    simpa using hr
  rw [CbitRef.replay_reads hr' rfl hops64 hfree, ← BitOp.map_fst_trace [] ops]
  exact congrArg Except.ok (List.zip_of_prod rfl rfl)

/-- Three bits, two octets off the octet boundary, then sixteen bits. -/
theorem cbitRef_replays_bitRef_unaligned :
    ∃ w ds, BitRef.run ⟨[], 0⟩ [.pack 5 3, .packBytes [0xAB, 0xCD], .pack 0x1234 16] = .ok (w, ds) ∧
      CbitRef.replay (BitReader.ofBuffer w.bytes) [.pack 5 3, .packBytes [0xAB, 0xCD], .pack 0x1234 16] =
        .ok (([BitOp.pack 5 3, .packBytes [0xAB, 0xCD], .pack 0x1234 16].map BitOp.expected).zip ds) :=
  cbitRef_replays_bitRef _ (by decide) (by decide)

/-- A `pack(0x12, 8)` then `pack_bytes({0xAB})` on a `bit_ref`, replayed on a
`cbit_ref` over the two octets: `unpack` gives 0x12 back, but the aligned
`unpack_bytes` into a one-octet span writes both octets of the buffer
there, from its start, where a `bit_decoder` gives 0xAB. -/
theorem cbitRef_unpackBytes_copies_whole_buffer :
    BitRef.run ⟨[], 0⟩ [.pack 0x12 8, .packBytes [0xAB]] = .ok (⟨[0x12, 0xAB], 0⟩, [8, 16]) ∧
      CbitRef.replay (BitReader.ofBuffer [0x12, 0xAB]) [.pack 0x12 8, .packBytes [0xAB]] =
        .ok [(.value 0x12, 8), (.bytes [0x12, 0xAB], 16)] ∧
      BitDecoder.replay (BitReader.ofBuffer [0x12, 0xAB]) [.pack 0x12 8, .packBytes [0xAB]] =
        .ok [(.value 0x12, 8), (.bytes [0xAB], 16)] := by
  refine ⟨by decide, by decide, by decide⟩

end SrsRan
