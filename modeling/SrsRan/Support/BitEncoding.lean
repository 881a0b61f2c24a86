import SrsRan.Lib.BitString
import SrsRan.Lib.Fallible

/-!
The bit coders of `bit_encoding.cpp`, `srsran::bit_encoder` and
`bit_decoder`, with the loops they share with `asn1::bit_ref` and
`cbit_ref`. A writer appends the `n_bits` low bits of a value to a byte
buffer, most significant bit first, filling its last octet from `offset`;
a reader walks a buffer with an iterator `it` and an `offset`.

The byte buffer is a list of octets whose `append` never fails. Values and
widths are `Nat`: a value packed is a `uint64_t`, and the accumulator of a
read never overflows its type, since `unpack` asserts that the width fits.

`Holds w bits` says what a writer's octets mean and `Reads r bits` what is
left for a reader; every operation is proved against them, and the round
trip over any sequence of operations follows by induction.
-/

namespace SrsRan

open BitString

/-- A bit writer: the octets of its buffer, and the offset of the next bit
in the last one (0 is the most significant bit). -/
structure BitWriter where
  bytes : List UInt8
  offset : Nat
  deriving DecidableEq, Repr

/-- A bit reader: its buffer, the index `it` of the current octet, and the
offset of the next bit in it. -/
structure BitReader where
  buffer : List UInt8
  it : Nat
  offset : Nat
  deriving DecidableEq, Repr

/-- How a call of `bit_encoder` or `bit_decoder` fails: it returns `false`,
or an `srsran_assert` on its arguments aborts. -/
inductive BitCoderError
  | returnsFalse
  | assertion
  deriving DecidableEq, Repr

namespace BitWriter

/-- `bit_encoder::nof_bits`, and `bit_ref::distance`. -/
def nofBits (w : BitWriter) : Nat :=
  8 * (w.bytes.length - (if w.offset = 0 then 0 else 1)) + w.offset

/-- One turn of the loop of `pack`: open a fresh octet at an octet
boundary, mask the value, and put as many of its bits as fit in the current
octet. Returns the writer, the masked value and the bits left to write. -/
def packStep (w : BitWriter) (val nBits : Nat) : BitWriter × Nat × Nat :=
  let bytes := if w.offset = 0 then w.bytes ++ [0] else w.bytes
  let val := val % 2 ^ nBits
  if 8 - w.offset > nBits then
    let shiftedVal := UInt8.ofNat (val <<< (8 - w.offset - nBits))
    (⟨bytes.modifyLast (· + shiftedVal), w.offset + nBits⟩, val, 0)
  else
    let shiftedVal := UInt8.ofNat (val >>> (nBits + w.offset - 8))
    (⟨bytes.modifyLast (· + shiftedVal), 0⟩, val, nBits - (8 - w.offset))

/-- The `while (n_bits > 0)` loop of `pack`, for at most `fuel` turns. -/
def packLoop : Nat → BitWriter → Nat → Nat → BitWriter
  | 0, w, _, _ => w
  | fuel + 1, w, val, nBits =>
    if nBits = 0 then w else
    let (w', val', nBits') := w.packStep val nBits
    packLoop fuel w' val' nBits'

/-- The loop of `pack` on `n_bits` bits: each turn writes at least one bit,
so `n_bits` turns are enough. -/
def packBits (w : BitWriter) (val nBits : Nat) : BitWriter :=
  packLoop nBits w val nBits

/-- `align_bytes_zero` of `bit_encoder` and of `bit_ref`. -/
def alignBytesZero (w : BitWriter) : BitWriter := { w with offset := 0 }

/-- The aligned case of `pack_bytes`: `writer.append(bytes)`. -/
def appendBytes (w : BitWriter) (bytes : List UInt8) : BitWriter :=
  { w with bytes := w.bytes ++ bytes }

/-- The writer's octets hold `bits` followed by zeros up to an octet
boundary, and `offset` is where the next bit goes. -/
def Holds (w : BitWriter) (bits : List Bool) : Prop :=
  w.offset = bits.length % 8 ∧
    octetBits w.bytes = bits ++ List.replicate ((8 - bits.length % 8) % 8) false

end BitWriter

namespace BitReader

/-- `bit_decoder::nof_bits`, and `cbit_ref::distance`. -/
def nofBits (r : BitReader) : Nat := r.offset + 8 * r.it

/-- The reader at the start of a buffer. -/
def ofBuffer (buffer : List UInt8) : BitReader := ⟨buffer, 0, 0⟩

/-- One turn of the loop of `unpack`, on the current octet `c`: take the
bits wanted from it, or all that is left of it and step to the next one. -/
def unpackStep (r : BitReader) (c : UInt8) (val nBits : Nat) : BitReader × Nat × Nat :=
  if 8 - r.offset > nBits then
    let mask := UInt8.ofNat (1 <<< (8 - r.offset)) - UInt8.ofNat (1 <<< (8 - r.offset - nBits))
    ({ r with offset := r.offset + nBits },
      val + ((c &&& mask).toNat >>> (8 - r.offset - nBits)), 0)
  else
    let mask := UInt8.ofNat ((1 <<< (8 - r.offset)) - 1)
    ({ r with it := r.it + 1, offset := 0 },
      val + ((c &&& mask).toNat <<< (nBits + r.offset - 8)), nBits - (8 - r.offset))

/-- The loop of `unpack`, for at most `fuel` turns; `none` when it meets
the end of the buffer with bits still to read. -/
def unpackLoop : Nat → BitReader → Nat → Nat → Option (Nat × BitReader)
  | 0, r, val, _ => some (val, r)
  | fuel + 1, r, val, nBits =>
    if nBits = 0 then some (val, r) else
    match r.buffer[r.it]? with
    | none => none
    | some c =>
      let (r', val', nBits') := r.unpackStep c val nBits
      unpackLoop fuel r' val' nBits'

/-- The loop of `unpack` on `n_bits` bits, from `val = 0`. -/
def unpackBits (r : BitReader) (nBits : Nat) : Option (Nat × BitReader) :=
  unpackLoop nBits r 0 nBits

/-- The unaligned case of `unpack_bytes`: `unpack(bytes[i], 8)` for each
of `k` octets. -/
def unpackOctets (r : BitReader) : Nat → Option (List UInt8 × BitReader)
  | 0 => some ([], r)
  | k + 1 => do
    let (v, r) ← r.unpackBits 8
    let (bs, r) ← unpackOctets r k
    pure (UInt8.ofNat v :: bs, r)

/-- What is left for the reader to read is `bits`. -/
def Reads (r : BitReader) (bits : List Bool) : Prop :=
  r.offset < 8 ∧ 8 * r.it + r.offset ≤ 8 * r.buffer.length ∧
    (octetBits r.buffer).drop (8 * r.it + r.offset) = bits

end BitReader

/-! ## The writer's loop -/

namespace BitWriter

theorem Holds.offset_lt {w : BitWriter} {bits : List Bool} (h : w.Holds bits) : w.offset < 8 := by
  rw [h.1]
  exact Nat.mod_lt _ (by decide)

theorem Holds.nofBits_eq {w : BitWriter} {bits : List Bool} (h : w.Holds bits) :
    w.nofBits = bits.length := by
  obtain ⟨ho, hb⟩ := h
  have hl := congrArg List.length hb
  simp only [length_octetBits, List.length_append, List.length_replicate] at hl
  unfold nofBits
  split_ifs <;> omega

/-- A writer at an octet boundary over any octets holds their bits. -/
theorem holds_aligned (bytes : List UInt8) : Holds ⟨bytes, 0⟩ (octetBits bytes) := by
  constructor <;> simp [Nat.mul_mod_right]

/-- The octet `pack` writes into: the last one, or a fresh zero octet at an
octet boundary. It holds the last `offset` bits in its high bits. -/
theorem Holds.exists_open {w : BitWriter} {bits : List Bool} (h : w.Holds bits) :
    ∃ init P, (if w.offset = 0 then w.bytes ++ [0] else w.bytes) =
        init ++ [UInt8.ofNat (2 ^ (8 - w.offset) * P)] ∧
      P < 2 ^ w.offset ∧ octetBits init ++ msbBits w.offset P = bits := by
  obtain ⟨ho, hb⟩ := h
  by_cases h0 : w.offset = 0
  · refine ⟨w.bytes, 0, by simp [h0], by simp [h0], ?_⟩
    rw [h0] at ho
    simp [hb, ← ho, h0]
  · rw [if_neg h0]
    rw [show (8 - bits.length % 8) % 8 = 8 - w.offset by omega] at hb
    obtain ⟨init, b, hbytes⟩ : ∃ init b, w.bytes = init ++ [b] := by
      rcases List.eq_nil_or_concat w.bytes with hnil | ⟨init, b, hc⟩
      · have hl := congrArg List.length hb
        simp [hnil] at hl
        omega
      · exact ⟨init, b, by rw [hc, List.concat_eq_append]⟩
    rw [hbytes, octetBits_append, octetBits_cons, octetBits_nil, List.append_nil] at hb
    have hlen : (octetBits init).length = (bits.take (bits.length - w.offset)).length := by
      have hl := congrArg List.length hb
      simp only [List.length_append, length_msbBits, List.length_replicate] at hl
      simp only [List.length_take]
      omega
    rw [← List.take_append_drop (bits.length - w.offset) bits, List.append_assoc] at hb
    obtain ⟨hinit, hlast⟩ := List.append_inj hb hlen
    have hL : (bits.drop (bits.length - w.offset)).length = w.offset := by
      simp only [List.length_drop]
      omega
    have hP := ofMsbBits_lt (bits.drop (bits.length - w.offset))
    have hm := msbBits_ofMsbBits (bits.drop (bits.length - w.offset))
    rw [hL] at hP hm
    refine ⟨init, ofMsbBits (bits.drop (bits.length - w.offset)), ?_, hP, ?_⟩
    · have hval := congrArg ofMsbBits hlast
      rw [ofMsbBits_octet, ofMsbBits_append, List.length_replicate, ofMsbBits_replicate_false,
        Nat.add_zero] at hval
      rw [hbytes, Nat.mul_comm, ← hval, UInt8.ofNat_toNat]
    · rw [hinit, hm, List.take_append_drop]

/-- Filling the open octet with `k` more bits. -/
theorem holds_fill (init : List UInt8) {o k P y : Nat} (hk : 0 < k) (hok : o + k ≤ 8) (hP : P < 2 ^ o)
    (hy : y < 2 ^ k) :
    Holds ⟨init ++ [UInt8.ofNat (2 ^ (8 - o) * P) + UInt8.ofNat (2 ^ (8 - o - k) * y)],
      (o + k) % 8⟩ (octetBits init ++ msbBits o P ++ msbBits k y) := by
  constructor
  · show (o + k) % 8 = (octetBits init ++ msbBits o P ++ msbBits k y).length % 8
    simp only [List.length_append, length_octetBits, length_msbBits]
    omega
  · show octetBits (init ++ _) = _
    have hpad : (8 - (octetBits init ++ msbBits o P ++ msbBits k y).length % 8) % 8 = 8 - o - k := by
      simp only [List.length_append, length_octetBits, length_msbBits]
      omega
    rw [hpad]
    simp only [octetBits_append, octetBits_cons, octetBits_nil, List.append_nil,
      msbBits_fill hok hP hy, List.append_assoc]

theorem Holds.packStep {w : BitWriter} {bits : List Bool} (h : w.Holds bits) {val nBits : Nat}
    (hn : 0 < nBits) {w' : BitWriter} {val' nBits' : Nat}
    (hs : w.packStep val nBits = (w', val', nBits')) :
    w'.Holds (bits ++ msbBits (nBits - nBits') (val / 2 ^ nBits')) ∧
      val' % 2 ^ nBits' = val % 2 ^ nBits' ∧ nBits' < nBits := by
  obtain ⟨init, P, hopen, hP, hbits⟩ := h.exists_open
  have ho := h.offset_lt
  unfold BitWriter.packStep at hs
  simp only [hopen, List.modifyLast_concat] at hs
  split_ifs at hs with hfit
  · -- the bits fit in the open octet
    obtain ⟨rfl, rfl, rfl⟩ := hs
    have hfill := holds_fill init hn (by omega) hP (Nat.mod_lt val (Nat.two_pow_pos nBits))
    rw [Nat.mod_eq_of_lt (show w.offset + nBits < 8 by omega), hbits, msbBits_mod] at hfill
    refine ⟨?_, by simp, hn⟩
    rw [Nat.sub_zero, pow_zero, Nat.div_one, Nat.shiftLeft_eq, Nat.mul_comm (val % 2 ^ nBits)]
    exact hfill
  · -- the open octet is completed
    obtain ⟨rfl, rfl, rfl⟩ := hs
    have hsplit : 2 ^ nBits = 2 ^ (nBits + w.offset - 8) * 2 ^ (8 - w.offset) := by
      rw [← pow_add]
      congr 1
      omega
    have hy : val % 2 ^ nBits / 2 ^ (nBits + w.offset - 8) < 2 ^ (8 - w.offset) := by
      rw [Nat.div_lt_iff_lt_mul (Nat.two_pow_pos _), Nat.mul_comm, ← hsplit]
      exact Nat.mod_lt _ (Nat.two_pow_pos _)
    have hfill := holds_fill init (k := 8 - w.offset) (by omega) (by omega) hP hy
    have htop : msbBits (8 - w.offset) (val % 2 ^ nBits / 2 ^ (nBits + w.offset - 8)) =
        msbBits (8 - w.offset) (val / 2 ^ (nBits + w.offset - 8)) := by
      rw [hsplit, Nat.mod_mul_right_div_self, msbBits_mod]
    rw [show w.offset + (8 - w.offset) = 8 by omega, Nat.mod_self, Nat.sub_self, pow_zero,
      Nat.one_mul, hbits, htop] at hfill
    have hn' : nBits - (8 - w.offset) = nBits + w.offset - 8 := by omega
    refine ⟨?_, ?_, by omega⟩
    · rw [Nat.shiftRight_eq_div_pow, show nBits - (nBits - (8 - w.offset)) = 8 - w.offset by omega,
        hn']
      exact hfill
    · rw [hn']
      exact Nat.mod_mod_of_dvd _ (Nat.pow_dvd_pow 2 (by omega))

theorem Holds.packLoop {w : BitWriter} {bits : List Bool} (h : w.Holds bits) (val nBits : Nat)
    {fuel : Nat} (hf : nBits ≤ fuel) :
    (BitWriter.packLoop fuel w val nBits).Holds (bits ++ msbBits nBits val) := by
  induction fuel generalizing w bits val nBits with
  | zero =>
    obtain rfl : nBits = 0 := by omega
    simpa [BitWriter.packLoop] using h
  | succ fuel ih =>
    unfold BitWriter.packLoop
    by_cases hn : nBits = 0
    · simpa [hn] using h
    · rw [if_neg hn]
      rcases hs : w.packStep val nBits with ⟨w', val', nBits'⟩
      obtain ⟨h', hval, hlt⟩ := h.packStep (Nat.pos_of_ne_zero hn) hs
      have hrest := ih h' val' nBits' (by omega)
      rwa [msbBits_congr hval, List.append_assoc, ← msbBits_add,
        Nat.sub_add_cancel hlt.le] at hrest

theorem Holds.packBits {w : BitWriter} {bits : List Bool} (h : w.Holds bits) (val nBits : Nat) :
    (w.packBits val nBits).Holds (bits ++ msbBits nBits val) :=
  h.packLoop val nBits le_rfl

theorem Holds.alignBytesZero {w : BitWriter} {bits : List Bool} (h : w.Holds bits) :
    w.alignBytesZero.Holds (bits ++ List.replicate ((8 - bits.length % 8) % 8) false) := by
  obtain ⟨ho, hb⟩ := h
  constructor
  · simp only [BitWriter.alignBytesZero, List.length_append, List.length_replicate]
    omega
  · have hpad : (bits.length + (8 - bits.length % 8) % 8) % 8 = 0 := by omega
    simp [BitWriter.alignBytesZero, hb, hpad]

theorem Holds.appendBytes {w : BitWriter} {bits : List Bool} (h : w.Holds bits) (h0 : w.offset = 0)
    (bytes : List UInt8) : (w.appendBytes bytes).Holds (bits ++ octetBits bytes) := by
  obtain ⟨ho, hb⟩ := h
  have hmod : bits.length % 8 = 0 := by omega
  constructor
  · simp only [BitWriter.appendBytes, List.length_append, length_octetBits]
    omega
  · simp only [BitWriter.appendBytes, octetBits_append, hb, hmod, List.length_append,
      length_octetBits]
    simp [Nat.add_mul_mod_self_left, hmod]

end BitWriter

/-! ## The reader's loop -/

namespace BitReader

theorem Reads.nofBits_add {r : BitReader} {bits : List Bool} (h : r.Reads bits) :
    r.nofBits + bits.length = 8 * r.buffer.length := by
  obtain ⟨-, hle, hd⟩ := h
  have hl := congrArg List.length hd
  simp only [List.length_drop, length_octetBits] at hl
  unfold nofBits
  omega

theorem reads_ofBuffer (buffer : List UInt8) : (ofBuffer buffer).Reads (octetBits buffer) := by
  refine ⟨by simp [ofBuffer], by simp [ofBuffer], by simp [ofBuffer]⟩

theorem toNat_mask_high {a b : Nat} (hb : b < a) (ha : a ≤ 8) :
    (UInt8.ofNat (1 <<< a) - UInt8.ofNat (1 <<< b)).toNat = 2 ^ a - 2 ^ b := by
  have hab : 2 ^ b < 2 ^ a := Nat.pow_lt_pow_right (by decide) hb
  have ha8 : 2 ^ a ≤ 2 ^ 8 := Nat.pow_le_pow_right (by decide) ha
  have hb1 : 1 ≤ 2 ^ b := Nat.one_le_two_pow
  have hb8 : 2 ^ b % 2 ^ 8 = 2 ^ b := Nat.mod_eq_of_lt (by omega)
  simp only [UInt8.toNat_sub, UInt8.toNat_ofNat', Nat.one_shiftLeft, hb8]
  rcases Nat.lt_or_ge (2 ^ a) (2 ^ 8) with h8 | h8
  · rw [Nat.mod_eq_of_lt h8]
    omega
  · rw [show 2 ^ a = 2 ^ 8 by omega, Nat.mod_self]
    omega

theorem toNat_mask_low {a : Nat} (ha : a ≤ 8) : (UInt8.ofNat ((1 <<< a) - 1)).toNat = 2 ^ a - 1 := by
  have ha8 : 2 ^ a ≤ 2 ^ 8 := Nat.pow_le_pow_right (by decide) ha
  simp only [UInt8.toNat_ofNat', Nat.one_shiftLeft]
  exact Nat.mod_eq_of_lt (by omega)

theorem Reads.unpackStep {r : BitReader} {bits : List Bool} (h : r.Reads bits) {nBits : Nat}
    (hn : 0 < nBits) (hnb : nBits ≤ bits.length) :
    ∃ c, r.buffer[r.it]? = some c ∧ ∀ {val r' val' nBits'},
      r.unpackStep c val nBits = (r', val', nBits') →
      r'.buffer = r.buffer ∧ r'.Reads (bits.drop (nBits - nBits')) ∧
        val' = val + ofMsbBits (bits.take (nBits - nBits')) * 2 ^ nBits' ∧ nBits' < nBits := by
  obtain ⟨ho, hle, hd⟩ := h
  have hl := congrArg List.length hd
  simp only [List.length_drop, length_octetBits] at hl
  have hit : r.it < r.buffer.length := by omega
  refine ⟨r.buffer[r.it], List.getElem?_eq_getElem hit, ?_⟩
  intro val r' val' nBits' hs
  have hbits := drop_octetBits (List.getElem?_eq_getElem hit) ho.le
  rw [hd] at hbits
  unfold BitReader.unpackStep at hs
  split_ifs at hs with hfit
  · -- the bits wanted lie inside the current octet
    simp only [Prod.mk.injEq] at hs
    obtain ⟨rfl, rfl, rfl⟩ := hs
    have hsplit : 2 ^ (8 - r.offset) = 2 ^ (8 - r.offset - nBits) * 2 ^ nBits := by
      rw [← pow_add]
      congr 1
      omega
    refine ⟨rfl, ⟨by simp only; omega, by simp only; omega, ?_⟩, ?_, by omega⟩
    · simp only [Nat.sub_zero]
      rw [show 8 * r.it + (r.offset + nBits) = 8 * r.it + r.offset + nBits by ring,
        ← List.drop_drop, hd]
    · rw [Nat.sub_zero, pow_zero, Nat.mul_one, hbits,
        List.take_append_of_le_length (by simp; omega), take_msbBits (by omega),
        ofMsbBits_msbBits, UInt8.toNat_and, toNat_mask_high (by omega) (by omega),
        and_two_pow_sub_two_pow_shiftRight _ (by omega), hsplit, Nat.mod_mul_right_div_self]
  · -- the rest of the current octet is taken
    simp only [Prod.mk.injEq] at hs
    obtain ⟨rfl, rfl, rfl⟩ := hs
    have hk : nBits - (nBits - (8 - r.offset)) = 8 - r.offset := by omega
    refine ⟨rfl, ⟨by simp only; omega, ?_, ?_⟩, ?_, ?_⟩
    · simp only
      omega
    · simp only [hk, Nat.add_zero]
      rw [show 8 * (r.it + 1) = 8 * r.it + r.offset + (8 - r.offset) by omega, ← List.drop_drop, hd]
    · rw [hk, hbits, List.take_left' (length_msbBits _ _), ofMsbBits_msbBits, UInt8.toNat_and,
        toNat_mask_low (by omega), Nat.and_two_pow_sub_one_eq_mod, Nat.shiftLeft_eq,
        show nBits + r.offset - 8 = nBits - (8 - r.offset) by omega]
    · omega

theorem Reads.unpackLoop {r : BitReader} {bits : List Bool} (h : r.Reads bits)
    (val nBits : Nat) {fuel : Nat} (hf : nBits ≤ fuel) (hnb : nBits ≤ bits.length) :
    ∃ r', BitReader.unpackLoop fuel r val nBits = some (val + ofMsbBits (bits.take nBits), r') ∧
      r'.buffer = r.buffer ∧ r'.Reads (bits.drop nBits) := by
  induction fuel generalizing r bits val nBits with
  | zero =>
    obtain rfl : nBits = 0 := by omega
    exact ⟨r, by simp [BitReader.unpackLoop], rfl, by simpa using h⟩
  | succ fuel ih =>
    by_cases hn : nBits = 0
    · subst hn
      exact ⟨r, by simp [BitReader.unpackLoop], rfl, by simpa using h⟩
    · obtain ⟨c, hc, hstep⟩ := h.unpackStep (Nat.pos_of_ne_zero hn) hnb
      rcases hs : r.unpackStep c val nBits with ⟨r₁, val₁, n₁⟩
      obtain ⟨hbuf₁, h₁, hval₁, hlt⟩ := hstep hs
      obtain ⟨r', hloop, hbuf', h'⟩ :=
        ih h₁ val₁ n₁ (by omega) (by simp only [List.length_drop]; omega)
      have hv : val₁ + ofMsbBits ((bits.drop (nBits - n₁)).take n₁) =
          val + ofMsbBits (bits.take nBits) := by
        have hlen : ((bits.drop (nBits - n₁)).take n₁).length = n₁ := by
          simp only [List.length_take, List.length_drop]
          omega
        rw [show bits.take nBits = bits.take (nBits - n₁ + n₁) by rw [Nat.sub_add_cancel hlt.le],
          List.take_add, ofMsbBits_append, hlen, hval₁]
        ring
      refine ⟨r', ?_, hbuf'.trans hbuf₁, ?_⟩
      · simp only [BitReader.unpackLoop, hn, if_false, hc, hs, hloop, hv]
      · rwa [List.drop_drop, Nat.sub_add_cancel hlt.le] at h'

/-- Reading a field of `n` bits gives its value. -/
theorem Reads.unpackBits {r : BitReader} {n v : Nat} {rest : List Bool}
    (h : r.Reads (msbBits n v ++ rest)) :
    ∃ r', r.unpackBits n = some (v % 2 ^ n, r') ∧ r'.buffer = r.buffer ∧ r'.Reads rest := by
  obtain ⟨r', hloop, hbuf, h'⟩ := h.unpackLoop 0 n le_rfl (by simp)
  rw [List.take_left' (length_msbBits _ _), ofMsbBits_msbBits, Nat.zero_add] at hloop
  rw [List.drop_left' (length_msbBits _ _)] at h'
  exact ⟨r', hloop, hbuf, h'⟩

theorem Reads.unpackOctets {r : BitReader} {bs : List UInt8} {rest : List Bool}
    (h : r.Reads (octetBits bs ++ rest)) :
    ∃ r', r.unpackOctets bs.length = some (bs, r') ∧ r'.buffer = r.buffer ∧ r'.Reads rest := by
  induction bs generalizing r with
  | nil => exact ⟨r, rfl, rfl, by simpa using h⟩
  | cons b bs ih =>
    rw [octetBits_cons, List.append_assoc] at h
    obtain ⟨r₁, h₁, hbuf₁, hr₁⟩ := h.unpackBits
    obtain ⟨r', h', hbuf', hr'⟩ := ih hr₁
    refine ⟨r', ?_, hbuf'.trans hbuf₁, hr'⟩
    rw [Nat.mod_eq_of_lt b.toNat_lt] at h₁
    simp [BitReader.unpackOctets, h₁, h']

/-- At an octet boundary, the octets ahead of the reader are those of the
bits it has left. -/
theorem Reads.take_octets {r : BitReader} {bs : List UInt8} {rest : List Bool}
    (h : r.Reads (octetBits bs ++ rest)) (h0 : r.offset = 0) :
    bs.length ≤ r.buffer.length - r.it ∧ (r.buffer.drop r.it).take bs.length = bs := by
  obtain ⟨-, hle, hd⟩ := h
  rw [h0, Nat.add_zero] at hle hd
  have hit : r.it ≤ r.buffer.length := by omega
  have hsplit : octetBits r.buffer =
      octetBits (r.buffer.take r.it) ++ octetBits (r.buffer.drop r.it) := by
    rw [← octetBits_append, List.take_append_drop]
  have hahead : octetBits (r.buffer.drop r.it) = octetBits bs ++ rest := by
    rw [← hd, hsplit, List.drop_left' (by simp; omega)]
  have hlen := congrArg List.length hahead
  simp only [length_octetBits, List.length_append, List.length_drop] at hlen
  refine ⟨by omega, ?_⟩
  rw [← List.take_append_drop bs.length (r.buffer.drop r.it), octetBits_append] at hahead
  exact octetBits_injective (List.append_inj hahead (by simp; omega)).1

theorem Reads.nofBits_of_drop {r r' : BitReader} {xs rest : List Bool} (h : r.Reads (xs ++ rest))
    (h' : r'.Reads rest) (hbuf : r'.buffer = r.buffer) : r'.nofBits = r.nofBits + xs.length := by
  have e := h.nofBits_add
  have e' := h'.nofBits_add
  rw [hbuf] at e'
  simp only [List.length_append] at e
  omega

theorem Reads.offset_eq {r : BitReader} {bits : List Bool} (h : r.Reads bits) {n : Nat}
    (hpos : r.nofBits = n) : r.offset = n % 8 := by
  have := h.1
  unfold nofBits at hpos
  omega

end BitReader

/-! ## `bit_encoder` and `bit_decoder` -/

namespace BitEncoder

/-- `bit_encoder::pack`. Its mask is skipped at 64 bits, where it would
keep every bit of the `uint64_t` anyway. -/
def pack (w : BitWriter) (val : UInt64) (nBits : Nat) : Except BitCoderError BitWriter :=
  if nBits ≤ 64 then .ok (w.packBits val.toNat nBits) else .error .assertion

/-- `bit_encoder::pack_bytes`. -/
def packBytes (w : BitWriter) (bytes : List UInt8) : Except BitCoderError BitWriter :=
  if bytes.isEmpty then .ok w
  else if w.offset = 0 then .ok (w.appendBytes bytes)
  else bytes.foldlM (fun w b => pack w b.toUInt64 8) w

end BitEncoder

namespace BitDecoder

/-- `bit_decoder::unpack` into a type of `tBits` bits. -/
def unpack (r : BitReader) (tBits nBits : Nat) : Except BitCoderError (Nat × BitReader) :=
  if nBits ≤ tBits then
    match r.unpackBits nBits with
    | some res => .ok res
    | none => .error .returnsFalse
  else .error .assertion

/-- `bit_decoder::unpack_bytes` into a span of `k` octets: the octets it
writes there, and the reader after them. -/
def unpackBytes (r : BitReader) (k : Nat) : Except BitCoderError (List UInt8 × BitReader) :=
  if k = 0 then .ok ([], r)
  else if k > r.buffer.length - r.it then .error .returnsFalse
  else if r.offset = 0 then .ok ((r.buffer.drop r.it).take k, { r with it := r.it + k })
  else
    match r.unpackOctets k with
    | some res => .ok res
    | none => .error .returnsFalse

/-- `bit_decoder::align_bytes`; its sanity check is an assertion. -/
def alignBytes (r : BitReader) : Except BitCoderError BitReader :=
  if r.offset ≠ 0 then
    if r.it = r.buffer.length then .error .assertion
    else .ok { r with it := r.it + 1, offset := 0 }
  else .ok r

end BitDecoder

/-! ## Calls on a writer, and their meaning as a bit stream -/

/-- A call on a bit writer: `pack(val, n_bits)`, `pack_bytes(bytes)` or
`align_bytes_zero()`. -/
inductive BitOp
  | pack (val : UInt64) (nBits : Nat)
  | packBytes (bytes : List UInt8)
  | alignBytes
  deriving DecidableEq, Repr

/-- What the reader's counterpart of a call returns: the value of
`unpack`, the octets of `unpack_bytes`, nothing for `align_bytes`. -/
inductive BitRead
  | value (v : Nat)
  | bytes (bs : List UInt8)
  | aligned
  deriving DecidableEq, Repr

namespace BitOp

/-- The bits a call appends to a stream holding `bits`. -/
def appended (bits : List Bool) : BitOp → List Bool
  | pack val nBits => msbBits nBits val.toNat
  | packBytes bytes => octetBits bytes
  | alignBytes => List.replicate ((8 - bits.length % 8) % 8) false

/-- What the counterpart of a call should return. -/
def expected : BitOp → BitRead
  | pack val nBits => .value (val.toNat % 2 ^ nBits)
  | packBytes bytes => .bytes bytes
  | alignBytes => .aligned

/-- `pack` is given at most `m` bits. -/
def fitsWidth (m : Nat) : BitOp → Bool
  | pack _ nBits => nBits ≤ m
  | _ => true

/-- The stream after a sequence of calls. -/
def stream (bits : List Bool) : List BitOp → List Bool
  | [] => bits
  | op :: ops => stream (bits ++ op.appended bits) ops

/-- What each counterpart should return, with the length of the stream
after each call. -/
def trace (bits : List Bool) : List BitOp → List (BitRead × Nat)
  | [] => []
  | op :: ops =>
    (op.expected, (bits ++ op.appended bits).length) :: trace (bits ++ op.appended bits) ops

theorem stream_eq_append (bits : List Bool) (ops : List BitOp) :
    ∃ ys, stream bits ops = bits ++ ys := by
  induction ops generalizing bits with
  | nil => exact ⟨[], by simp [stream]⟩
  | cons op ops ih =>
    obtain ⟨ys, hys⟩ := ih (bits ++ op.appended bits)
    exact ⟨op.appended bits ++ ys, by simp [stream, hys]⟩

theorem map_fst_trace (bits : List Bool) (ops : List BitOp) :
    (trace bits ops).map Prod.fst = ops.map expected := by
  induction ops generalizing bits with
  | nil => rfl
  | cons op ops ih => simp [trace, ih]

end BitOp

/-! ## The encoder and the decoder against the stream -/

namespace BitEncoder

/-- A call on a `bit_encoder`. -/
def apply (w : BitWriter) : BitOp → Except BitCoderError BitWriter
  | .pack val nBits => pack w val nBits
  | .packBytes bytes => packBytes w bytes
  | .alignBytes => .ok w.alignBytesZero

/-- The encoder after each call in turn, with `nof_bits()` after each. -/
def run (w : BitWriter) : List BitOp → Except BitCoderError (BitWriter × List Nat)
  | [] => .ok (w, [])
  | op :: ops => do
    let w ← apply w op
    let (w', ds) ← run w ops
    pure (w', w.nofBits :: ds)

theorem packBytes_foldlM {w : BitWriter} {bits : List Bool} (h : w.Holds bits) (bytes : List UInt8) :
    ∃ w', bytes.foldlM (fun w b => pack w b.toUInt64 8) w = .ok w' ∧
      w'.Holds (bits ++ octetBits bytes) := by
  induction bytes generalizing w bits with
  | nil => exact ⟨w, rfl, by simpa using h⟩
  | cons b bytes ih =>
    have hb := h.packBits b.toUInt64.toNat 8
    rw [UInt8.toNat_toUInt64] at hb
    obtain ⟨w', hw', h'⟩ := ih hb
    refine ⟨w', ?_, by simpa using h'⟩
    simp only [List.foldlM_cons, pack, show (8 : Nat) ≤ 64 by decide, if_true, Fallible.ok_bind]
    exact hw'

theorem apply_holds {w : BitWriter} {bits : List Bool} (h : w.Holds bits) {op : BitOp}
    (hop : op.fitsWidth 64 = true) :
    ∃ w', apply w op = .ok w' ∧ w'.Holds (bits ++ op.appended bits) := by
  cases op with
  | pack val nBits =>
    simp only [BitOp.fitsWidth, decide_eq_true_eq] at hop
    exact ⟨_, by simp [apply, pack, hop], h.packBits _ _⟩
  | packBytes bytes =>
    simp only [apply, packBytes, BitOp.appended]
    by_cases he : bytes.isEmpty
    · rw [List.isEmpty_iff] at he
      subst he
      exact ⟨w, rfl, by simpa using h⟩
    · rw [if_neg he]
      by_cases h0 : w.offset = 0
      · exact ⟨_, by rw [if_pos h0], h.appendBytes h0 bytes⟩
      · rw [if_neg h0]
        exact packBytes_foldlM h bytes
  | alignBytes => exact ⟨_, rfl, h.alignBytesZero⟩

theorem run_holds {w : BitWriter} {bits : List Bool} (h : w.Holds bits) {ops : List BitOp}
    (hops : ∀ op ∈ ops, op.fitsWidth 64 = true) :
    ∃ w', run w ops = .ok (w', (BitOp.trace bits ops).map Prod.snd) ∧
      w'.Holds (BitOp.stream bits ops) := by
  induction ops generalizing w bits with
  | nil => exact ⟨w, rfl, h⟩
  | cons op ops ih =>
    obtain ⟨w₁, hw₁, h₁⟩ := apply_holds h (hops op List.mem_cons_self)
    obtain ⟨w', hw', h'⟩ := ih h₁ (fun op hop => hops op (List.mem_cons_of_mem _ hop))
    refine ⟨w', ?_, h'⟩
    simp [run, hw₁, hw', BitOp.trace, h₁.nofBits_eq]

end BitEncoder

namespace BitDecoder

/-- The counterpart of a call on a `bit_decoder`; values are read into a
`uint64_t`. -/
def apply (r : BitReader) : BitOp → Except BitCoderError (BitRead × BitReader)
  | .pack _ nBits => do
    let (v, r) ← unpack r 64 nBits
    pure (.value v, r)
  | .packBytes bytes => do
    let (bs, r) ← unpackBytes r bytes.length
    pure (.bytes bs, r)
  | .alignBytes => do
    let r ← alignBytes r
    pure (.aligned, r)

/-- The counterparts of a sequence of calls, with `nof_bits()` after each. -/
def replay (r : BitReader) : List BitOp → Except BitCoderError (List (BitRead × Nat))
  | [] => .ok []
  | op :: ops => do
    let (x, r) ← apply r op
    let xs ← replay r ops
    pure ((x, r.nofBits) :: xs)

theorem unpackBytes_reads {r : BitReader} {bytes : List UInt8} {rest : List Bool}
    (h : r.Reads (octetBits bytes ++ rest)) :
    ∃ r', unpackBytes r bytes.length = .ok (bytes, r') ∧ r'.buffer = r.buffer ∧ r'.Reads rest := by
  unfold unpackBytes
  by_cases he : bytes.length = 0
  · rw [List.length_eq_zero_iff] at he
    subst he
    exact ⟨r, rfl, rfl, by simpa using h⟩
  · rw [if_neg he]
    have hroom : bytes.length ≤ r.buffer.length - r.it := by
      have := h.nofBits_add
      simp only [List.length_append, length_octetBits, BitReader.nofBits] at this
      omega
    rw [if_neg (by omega)]
    by_cases h0 : r.offset = 0
    · rw [if_pos h0, (h.take_octets h0).2]
      refine ⟨_, rfl, rfl, ?_⟩
      obtain ⟨-, hle, hd⟩ := h
      refine ⟨by simp [h0], by simp only; omega, ?_⟩
      simp only [h0, Nat.add_zero] at hd ⊢
      rw [Nat.mul_add, ← List.drop_drop, hd, List.drop_left' (by simp)]
    · rw [if_neg h0]
      obtain ⟨r', h', hbuf, hr'⟩ := h.unpackOctets
      exact ⟨r', by rw [h'], hbuf, hr'⟩

theorem alignBytes_reads {r : BitReader} {rest : List Bool}
    (h : r.Reads (List.replicate ((8 - r.offset) % 8) false ++ rest)) :
    ∃ r', alignBytes r = .ok r' ∧ r'.buffer = r.buffer ∧ r'.Reads rest := by
  unfold alignBytes
  by_cases h0 : r.offset = 0
  · rw [if_neg (not_not.mpr h0)]
    exact ⟨r, rfl, rfl, by simpa [h0] using h⟩
  · obtain ⟨ho, hle, hd⟩ := h
    rw [if_pos h0, if_neg (by omega)]
    refine ⟨_, rfl, rfl, by simp, by simp only; omega, ?_⟩
    simp only
    rw [show 8 * (r.it + 1) + 0 = 8 * r.it + r.offset + (8 - r.offset) by omega, ← List.drop_drop,
      hd, List.drop_left' (by simp; omega)]

theorem apply_reads {r : BitReader} {bits rest : List Bool} {op : BitOp}
    (h : r.Reads (op.appended bits ++ rest)) (hpos : r.nofBits = bits.length)
    (hop : op.fitsWidth 64 = true) :
    ∃ r', apply r op = .ok (op.expected, r') ∧ r'.buffer = r.buffer ∧ r'.Reads rest ∧
      r'.nofBits = (bits ++ op.appended bits).length := by
  suffices hs : ∃ r', apply r op = .ok (op.expected, r') ∧ r'.buffer = r.buffer ∧ r'.Reads rest by
    obtain ⟨r', happ, hbuf, h'⟩ := hs
    refine ⟨r', happ, hbuf, h', ?_⟩
    rw [h.nofBits_of_drop h' hbuf, hpos, List.length_append]
  cases op with
  | pack val nBits =>
    simp only [BitOp.fitsWidth, decide_eq_true_eq] at hop
    obtain ⟨r', h', hbuf, hr'⟩ := h.unpackBits
    exact ⟨r', by simp [apply, unpack, hop, h', BitOp.expected], hbuf, hr'⟩
  | packBytes bytes =>
    obtain ⟨r', h', hbuf, hr'⟩ := unpackBytes_reads h
    exact ⟨r', by simp [apply, h', BitOp.expected], hbuf, hr'⟩
  | alignBytes =>
    rw [BitOp.appended, ← h.offset_eq hpos] at h
    obtain ⟨r', h', hbuf, hr'⟩ := alignBytes_reads h
    exact ⟨r', by simp [apply, h', BitOp.expected], hbuf, hr'⟩

theorem replay_reads {r : BitReader} {bits pad : List Bool} {ops : List BitOp}
    (h : r.Reads ((BitOp.stream bits ops).drop bits.length ++ pad))
    (hpos : r.nofBits = bits.length) (hops : ∀ op ∈ ops, op.fitsWidth 64 = true) :
    replay r ops = .ok (BitOp.trace bits ops) := by
  induction ops generalizing r bits with
  | nil => rfl
  | cons op ops ih =>
    obtain ⟨ys, hys⟩ := BitOp.stream_eq_append (bits ++ op.appended bits) ops
    have hstream : (BitOp.stream bits (op :: ops)).drop bits.length ++ pad =
        op.appended bits ++ ((BitOp.stream (bits ++ op.appended bits) ops).drop
          (bits ++ op.appended bits).length ++ pad) := by
      simp [BitOp.stream, hys]
    rw [hstream] at h
    obtain ⟨r', happ, -, hr', hpos'⟩ := apply_reads h hpos (hops op List.mem_cons_self)
    have hrest := ih hr' hpos' (fun op hop => hops op (List.mem_cons_of_mem _ hop))
    simp [replay, happ, hrest, BitOp.trace, hpos']

end BitDecoder

/-- The round trip of `bit_encoder` and `bit_decoder`: whatever calls are
made on an encoder over an empty buffer (`pack` with at most 64 bits), every
call succeeds, and replaying their counterparts on a decoder over the
buffer produced succeeds at every call, returns each value modulo
`2 ^ n_bits` and each run of octets, and after each call the decoder has read
as many bits as the encoder had written. -/
theorem bitDecoder_replays_bitEncoder (ops : List BitOp)
    (hops : ∀ op ∈ ops, op.fitsWidth 64 = true) :
    ∃ w ds, BitEncoder.run ⟨[], 0⟩ ops = .ok (w, ds) ∧
      BitDecoder.replay (BitReader.ofBuffer w.bytes) ops = .ok ((ops.map BitOp.expected).zip ds) := by
  have h0 : BitWriter.Holds ⟨[], 0⟩ [] := BitWriter.holds_aligned []
  obtain ⟨w, hrun, hw⟩ := BitEncoder.run_holds h0 hops
  refine ⟨w, _, hrun, ?_⟩
  have hr := BitReader.reads_ofBuffer w.bytes
  rw [hw.2] at hr
  have hr' : (BitReader.ofBuffer w.bytes).Reads ((BitOp.stream [] ops).drop ([] : List Bool).length ++
      List.replicate ((8 - (BitOp.stream [] ops).length % 8) % 8) false) := by
    simpa using hr
  rw [BitDecoder.replay_reads hr' rfl hops, ← BitOp.map_fst_trace [] ops]
  exact congrArg Except.ok (List.zip_of_prod rfl rfl)

/-- Three bits, the padding to the octet, an octet, then 64 bits. -/
theorem bitDecoder_replays_bitEncoder_aligned :
    ∃ w ds, BitEncoder.run ⟨[], 0⟩ [.pack 5 3, .alignBytes, .packBytes [0xAB], .pack 0x0123456789ABCDEF 64] =
        .ok (w, ds) ∧
      BitDecoder.replay (BitReader.ofBuffer w.bytes)
          [.pack 5 3, .alignBytes, .packBytes [0xAB], .pack 0x0123456789ABCDEF 64] =
        .ok (([BitOp.pack 5 3, .alignBytes, .packBytes [0xAB], .pack 0x0123456789ABCDEF 64].map
          BitOp.expected).zip ds) :=
  bitDecoder_replays_bitEncoder _ (by decide)

/-! ## One call at a time -/

/-- `pack` on a writer appends the `n` low bits of the value. -/
theorem pack_holds {w : BitWriter} {bits : List Bool} (h : w.Holds bits) (val : UInt64) {n : Nat}
    (hn : n ≤ 64) :
    BitEncoder.pack w val n = .ok (w.packBits val.toNat n) ∧
      (w.packBits val.toNat n).Holds (bits ++ msbBits n val.toNat) :=
  ⟨by simp [BitEncoder.pack, hn], h.packBits _ _⟩

theorem packBytes_holds {w : BitWriter} {bits : List Bool} (h : w.Holds bits) (bytes : List UInt8) :
    ∃ w', BitEncoder.packBytes w bytes = .ok w' ∧ w'.Holds (bits ++ octetBits bytes) :=
  @BitEncoder.apply_holds w bits h (.packBytes bytes) rfl

/-- `unpack` on a reader reads the next `n` bits. -/
theorem unpack_reads {r : BitReader} {n t v : Nat} {rest : List Bool}
    (h : r.Reads (msbBits n v ++ rest)) (ht : n ≤ t) :
    ∃ r', BitDecoder.unpack r t n = .ok (v % 2 ^ n, r') ∧ r'.buffer = r.buffer ∧ r'.Reads rest := by
  obtain ⟨r', h', hbuf, hr'⟩ := h.unpackBits
  exact ⟨r', by simp [BitDecoder.unpack, ht, h'], hbuf, hr'⟩

/-- A writer begun on whole octets keeps them in front of what it wrote. -/
theorem Holds.bytes_append {w : BitWriter} {pre : List UInt8} {bits : List Bool}
    (h : w.Holds (octetBits pre ++ bits)) :
    ∃ core, w.bytes = pre ++ core ∧
      octetBits core = bits ++ List.replicate ((8 - bits.length % 8) % 8) false := by
  obtain ⟨-, hb⟩ := h
  have hpad : (octetBits pre ++ bits).length % 8 = bits.length % 8 := by
    simp only [List.length_append, length_octetBits]
    omega
  rw [hpad, List.append_assoc] at hb
  have hlen : pre.length ≤ w.bytes.length := by
    have := congrArg List.length hb
    simp only [length_octetBits, List.length_append] at this
    omega
  have hsplit := congrArg octetBits (List.take_append_drop pre.length w.bytes)
  rw [octetBits_append, hb] at hsplit
  obtain ⟨htake, hdrop⟩ := List.append_inj hsplit (by simp; omega)
  refine ⟨w.bytes.drop pre.length, ?_, hdrop⟩
  calc w.bytes = w.bytes.take pre.length ++ w.bytes.drop pre.length := (List.take_append_drop _ _).symm
    _ = pre ++ w.bytes.drop pre.length := by rw [octetBits_injective htake]

/-- A writer holding whole octets has exactly those octets. -/
theorem Holds.bytes_eq {w : BitWriter} {bs : List UInt8} (h : w.Holds (octetBits bs)) : w.bytes = bs := by
  obtain ⟨-, hb⟩ := h
  rw [length_octetBits, Nat.mul_mod_right, Nat.sub_zero, Nat.mod_self, List.replicate_zero,
    List.append_nil] at hb
  exact octetBits_injective hb

/-! ## Calls whose result is not checked

`gtpu_dissect_pdu` ignores the flag of `unpack` and takes the view that
`unpack_aligned_bytes` returns, empty or not. -/

namespace BitReader

/-- `bit_decoder::nof_bytes`: the octets read, the one being read included. -/
def nofBytes (r : BitReader) : Nat := r.it + if r.offset ≠ 0 then 1 else 0

/-- The loop of `unpack` as a caller that ignores its flag sees it: at the
end of the buffer it stops with the value accumulated so far and the reader
where it stands. -/
def unpackLoopUnchecked : Nat → BitReader → Nat → Nat → Nat × BitReader
  | 0, r, val, _ => (val, r)
  | fuel + 1, r, val, nBits =>
    if nBits = 0 then (val, r) else
    match r.buffer[r.it]? with
    | none => (val, r)
    | some c =>
      let (r', val', nBits') := r.unpackStep c val nBits
      unpackLoopUnchecked fuel r' val' nBits'

theorem unpackLoopUnchecked_of_unpackLoop {fuel : Nat} {r : BitReader} {val nBits : Nat}
    {res : Nat × BitReader} (h : unpackLoop fuel r val nBits = some res) :
    unpackLoopUnchecked fuel r val nBits = res := by
  induction fuel generalizing r val nBits with
  | zero => exact Option.some.inj h
  | succ fuel ih =>
    unfold unpackLoop at h
    unfold unpackLoopUnchecked
    by_cases hn : nBits = 0
    · rw [if_pos hn] at h ⊢
      exact Option.some.inj h
    · rw [if_neg hn] at h ⊢
      cases hc : r.buffer[r.it]? with
      | none => simp [hc] at h
      | some c =>
        simp only [hc] at h ⊢
        exact ih h

theorem drop_octetBits_mul (bs : List UInt8) (i : Nat) :
    (octetBits bs).drop (8 * i) = octetBits (bs.drop i) := by
  induction bs generalizing i with
  | nil => simp
  | cons b bs ih =>
    cases i with
    | zero => rfl
    | succ i =>
      rw [octetBits_cons, show 8 * (i + 1) = 8 + 8 * i by ring, ← List.drop_drop,
        List.drop_left' (length_msbBits _ _), ih]
      rfl

/-- A reader at an octet boundary has the octets after it left to read. -/
theorem reads_at (buffer : List UInt8) {pos : Nat} (h : pos ≤ buffer.length) :
    (⟨buffer, pos, 0⟩ : BitReader).Reads (octetBits (buffer.drop pos)) :=
  ⟨Nat.zero_lt_succ _, by simp only; omega, by simp only [Nat.add_zero]; exact drop_octetBits_mul _ _⟩

/-- What a reader has left to read fixes where it stands. -/
theorem Reads.eq_at {r : BitReader} {pos : Nat} (h : r.Reads (octetBits (r.buffer.drop pos)))
    (hpos : pos ≤ r.buffer.length) : r = ⟨r.buffer, pos, 0⟩ := by
  have e := h.nofBits_add
  have ho := h.1
  simp only [length_octetBits, List.length_drop, nofBits] at e
  obtain ⟨buffer, it, offset⟩ := r
  simp only at e ho hpos ⊢
  have : offset = 0 := by omega
  subst this
  have : it = pos := by omega
  subst this
  rfl

end BitReader

namespace BitDecoder

/-- `bit_decoder::unpack` into a type of `tBits` bits, for a caller that
ignores the flag it returns. -/
def unpackUnchecked (r : BitReader) (tBits nBits : Nat) : Except BitCoderError (Nat × BitReader) :=
  if nBits ≤ tBits then .ok (r.unpackLoopUnchecked nBits 0 nBits) else .error .assertion

/-- `bit_decoder::unpack_aligned_bytes`: after aligning, a view of `n_bytes`
octets, or an empty view and the reader left in place when they run past the
buffer. A view is modelled by the octets it shows. -/
def unpackAlignedBytes (r : BitReader) (nBytes : Nat) :
    Except BitCoderError (List UInt8 × BitReader) := do
  let r ← alignBytes r
  if nBytes = 0 then return ([], r)
  if nBytes > r.buffer.length - r.it then return ([], r)
  return ((r.buffer.drop r.it).take nBytes, { r with it := r.it + nBytes })

theorem unpackUnchecked_reads {r : BitReader} {n t v : Nat} {rest : List Bool}
    (h : r.Reads (msbBits n v ++ rest)) (ht : n ≤ t) :
    ∃ r', unpackUnchecked r t n = .ok (v % 2 ^ n, r') ∧ r'.buffer = r.buffer ∧ r'.Reads rest := by
  obtain ⟨r', hloop, hbuf, h'⟩ := h.unpackBits
  exact ⟨r', by rw [unpackUnchecked, if_pos ht, BitReader.unpackLoopUnchecked_of_unpackLoop hloop],
    hbuf, h'⟩

/-- Reading `k` whole octets at an octet boundary. -/
theorem unpackUnchecked_octets {buffer : List UInt8} {pos k t : Nat}
    (hk : pos + k ≤ buffer.length) (ht : 8 * k ≤ t) :
    unpackUnchecked ⟨buffer, pos, 0⟩ t (8 * k) =
      .ok (ofMsbBits (octetBits ((buffer.drop pos).take k)), ⟨buffer, pos + k, 0⟩) := by
  have hsplit : octetBits (buffer.drop pos) =
      msbBits (8 * k) (ofMsbBits (octetBits ((buffer.drop pos).take k))) ++
        octetBits (buffer.drop (pos + k)) := by
    have hlen : (octetBits ((buffer.drop pos).take k)).length = 8 * k := by
      simp only [length_octetBits, List.length_take, List.length_drop]
      omega
    rw [← hlen, msbBits_ofMsbBits, ← octetBits_append, ← List.drop_drop, List.take_append_drop]
  have h : (⟨buffer, pos, 0⟩ : BitReader).Reads (octetBits (buffer.drop pos)) :=
    BitReader.reads_at buffer (by omega)
  rw [hsplit] at h
  obtain ⟨r', hr, hbuf, h'⟩ := unpackUnchecked_reads h ht
  have hb : r'.buffer = buffer := hbuf
  rw [← hb] at h'
  rw [hr, Nat.mod_eq_of_lt (ofMsbBits_lt _ |>.trans_eq (by simp; omega)),
    h'.eq_at (by rw [hb]; omega), hb]

/-- Reading at the end of the buffer leaves the value 0 and the reader in place. -/
theorem unpackUnchecked_of_end {buffer : List UInt8} {pos n t : Nat} (hend : buffer.length ≤ pos)
    (hn : 0 < n) (ht : n ≤ t) : unpackUnchecked ⟨buffer, pos, 0⟩ t n = .ok (0, ⟨buffer, pos, 0⟩) := by
  obtain ⟨n, rfl⟩ : ∃ m, n = m + 1 := ⟨n - 1, by omega⟩
  simp [unpackUnchecked, ht, BitReader.unpackLoopUnchecked, List.getElem?_eq_none hend]

/-- `unpack_aligned_bytes` at an octet boundary: the view when the octets are
there, an empty view otherwise, and the reader after the view or in place. -/
theorem unpackAlignedBytes_at (buffer : List UInt8) (pos nBytes : Nat) :
    unpackAlignedBytes ⟨buffer, pos, 0⟩ nBytes =
      if nBytes ≤ buffer.length - pos then
        .ok ((buffer.drop pos).take nBytes, ⟨buffer, pos + nBytes, 0⟩)
      else .ok ([], ⟨buffer, pos, 0⟩) := by
  by_cases h0 : nBytes = 0
  · subst h0
    simp [unpackAlignedBytes, alignBytes]
  · by_cases hle : nBytes ≤ buffer.length - pos
    · simp [unpackAlignedBytes, alignBytes, h0, hle]
    · simp [unpackAlignedBytes, alignBytes, h0, hle, Nat.lt_of_not_le hle]

end BitDecoder

end SrsRan
