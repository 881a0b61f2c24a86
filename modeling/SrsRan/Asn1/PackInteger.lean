import SrsRan.Asn1.Length

/-!
Integers (X.691 12): `pack_integer` and `unpack_integer` of
`asn1_utils.cpp` for the unsigned `IntType`s of `w` bits, with the
unconstrained whole numbers they write outside the bounds.

An unsigned type is always lower bounded, and upper bounded unless `ub` is
its maximum. A value within upper-bounded bounds is a constrained whole
number; one outside them, behind an extension marker, is a length
determinant and then `unconstrained_whole_number_length(n)` octets,
computed in single precision as `ceilf((log2f(n) + 1) / 8)`. Two cases
write nothing past the marker, a range of one value and a value within
bounds whose upper bound is the type's maximum (the semi-constrained case,
left to do); the decoder then leaves `n` as it found it.

The octet count is not bounded by the type: where `(float)n` rounds up to
`2 ^ w`, as for `2^32 - 1` in a `uint32_t`, it is one octet more than the
type holds, and `cbit_ref::unpack` asserts on it. A decoder meets the same
assertion on any input whose length determinant announces more octets than
the type holds.
-/

namespace SrsRan

open BinaryFloat BitString

/-- `unconstrained_whole_number_length(n)`: `ceilf((log2f(n) + 1) / 8.0f)`,
each step in single precision, converted back to the unsigned type. At
`n = 0`, `log2f` gives `-inf`, whose conversion C leaves undefined; the
model takes whatever `Libm` gives there. -/
def unconstrainedWholeNumberLength (libm : Libm) (n : Nat) : Nat :=
  (⌈roundBinary 24 (roundBinary 24 (libm.log2f (roundBinary 24 n) + 1) / 8)⌉).toNat

/-- `pack_unconstrained_whole_number`. -/
def packUnconstrainedWholeNumber (libm : Libm) (bref : BitWriter) (n : Nat) (aligned : Bool) :
    Except AsnError BitWriter :=
  let len := unconstrainedWholeNumberLength libm n
  let bref := if aligned then bref.alignBytesZero else bref
  BitRef.pack bref (UInt64.ofNat n) (len * 8)

/-- `unpack_unconstrained_whole_number` into an unsigned type of `w` bits. -/
def unpackUnconstrainedWholeNumber (w : Nat) (bref : BitReader) (len : Nat) (aligned : Bool) :
    Except AsnError (Nat × BitReader) := do
  let bref ← if aligned then CbitRef.alignBytes bref else pure bref
  CbitRef.unpack bref w (len * 8)

/-- What `pack_integer` writes after the extension marker. -/
def packIntegerValue (libm : Libm) (w : Nat) (bref : BitWriter) (n lb ub : Nat) (aligned : Bool) :
    Except AsnError BitWriter :=
  let withinBounds := decide (lb ≤ n ∧ n ≤ ub)
  let upperBounded := ub != 2 ^ w - 1
  if withinBounds && upperBounded then
    if lb = ub then .ok bref else packConstrainedWholeNumber libm bref n lb ub aligned
  else if !withinBounds then do
    let bref ← packLength bref (unconstrainedWholeNumberLength libm n) aligned
    packUnconstrainedWholeNumber libm bref n aligned
  else .ok bref

/-- `pack_integer` for an unsigned type of `w` bits. -/
def packInteger (libm : Libm) (w : Nat) (bref : BitWriter) (n lb ub : Nat) (hasExt aligned : Bool) :
    Except AsnError BitWriter :=
  let withinBounds := decide (lb ≤ n ∧ n ≤ ub)
  if hasExt then do
    let bref ← BitRef.pack bref (if withinBounds then 0 else 1) 1
    packIntegerValue libm w bref n lb ub aligned
  else if !withinBounds then .error (.code .srsasnErrorEncodeFail)
  else packIntegerValue libm w bref n lb ub aligned

/-- What `unpack_integer` reads after the extension marker, into an unsigned
type of `w` bits that holds `n` before the call. -/
def unpackIntegerValue (libm : Libm) (w n : Nat) (bref : BitReader) (lb ub : Nat)
    (withinBounds aligned : Bool) : Except AsnError (Nat × BitReader) :=
  let upperBounded := ub != 2 ^ w - 1
  if withinBounds && upperBounded then
    if lb = ub then .ok (n, bref) else unpackConstrainedWholeNumber libm w bref lb ub aligned
  else if !withinBounds then do
    let (len, bref) ← unpackLength bref aligned
    unpackUnconstrainedWholeNumber w bref len aligned
  else .ok (n, bref)

/-- `unpack_integer` into an unsigned type of `w` bits that holds `n` before
the call: the value after it, and the reader. The marker is read into a
`bool`. -/
def unpackInteger (libm : Libm) (w n : Nat) (bref : BitReader) (lb ub : Nat) (hasExt aligned : Bool) :
    Except AsnError (Nat × BitReader) :=
  if hasExt then do
    let (ext, bref) ← CbitRef.unpack bref 8 1
    unpackIntegerValue libm w n bref lb ub (decide (ext = 0)) aligned
  else unpackIntegerValue libm w n bref lb ub true aligned

/-! ## The octet count -/

/-- Where `(float)n` is `2 ^ k`, the count is `ceil((k + 1) / 8)`: the sum
and the quotient are exact. -/
theorem unconstrainedWholeNumberLength_of_round (libm : Libm) {n k : Nat}
    (hn : roundBinary 24 n = 2 ^ k) (hk : k + 1 < 2 ^ 24) :
    unconstrainedWholeNumberLength libm n = (k + 8) / 8 := by
  have hsum : roundBinary 24 ((k : ℚ) + 1) = (k : ℚ) + 1 := by
    exact_mod_cast roundBinary_natCast_of_lt hk
  have hquot : roundBinary 24 (((k : ℚ) + 1) / 8) = ((k : ℚ) + 1) / 8 := by
    rw [show (8 : ℚ) = 2 ^ 3 by norm_num, roundBinary_div_two_pow 24 (by positivity) 3, hsum]
  rw [unconstrainedWholeNumberLength, hn, libm.log2f_two_pow, hsum, hquot,
    show ((k : ℚ) + 1) / 8 = ((k + 1 : Nat) : ℚ) / ((8 : Nat) : ℚ) by push_cast; ring,
    Rat.ceil_natCast_div_natCast]
  omega

/-- `(float)(2 ^ 32 - 1)` rounds to `2 ^ 32`, so the count is five octets,
one more than a `uint32_t` takes. -/
theorem unconstrainedWholeNumberLength_uint32_max (libm : Libm) :
    unconstrainedWholeNumberLength libm 4294967295 = 5 :=
  unconstrainedWholeNumberLength_of_round libm roundBinary_uint32_max (by norm_num)

theorem unconstrainedWholeNumberLength_two_pow (libm : Libm) {k : Nat} (hk : k + 1 < 2 ^ 24) :
    unconstrainedWholeNumberLength libm (2 ^ k) = (k + 8) / 8 :=
  unconstrainedWholeNumberLength_of_round libm (by push_cast; exact roundBinary_two_pow 24 k) hk

/-! ## Unconstrained whole numbers -/

/-- The widths the extended encoding needs: the octet count fits the length
determinant, the value fits the octets, and the octets fit the type and
`pack`. -/
def ExtensionFits (libm : Libm) (w n : Nat) : Prop :=
  let len := unconstrainedWholeNumberLength libm n
  len < asn16K ∧ n < 2 ^ (len * 8) ∧ len * 8 ≤ w ∧ len * 8 < 64

theorem unconstrainedWholeNumber_roundTrip (libm : Libm) {w n : Nat} (aligned : Bool)
    (hval : n < 2 ^ (unconstrainedWholeNumberLength libm n * 8))
    (hw : unconstrainedWholeNumberLength libm n * 8 ≤ w)
    (h64 : unconstrainedWholeNumberLength libm n * 8 < 64) :
    FieldRoundTrip (fun bref => packUnconstrainedWholeNumber libm bref n aligned)
      (fun r => unpackUnconstrainedWholeNumber w r (unconstrainedWholeNumberLength libm n) aligned) n := by
  cases aligned with
  | false =>
    refine (fieldRoundTrip_pack hval h64 hw).transport (fun _ => rfl) (fun r r' hd => ?_)
    simpa only [unpackUnconstrainedWholeNumber, Bool.false_eq_true, ↓reduceIte, Fallible.pure_eq_ok,
      Fallible.ok_bind] using hd
  | true =>
    have hv64 : n < 2 ^ 64 := lt_of_lt_of_le hval (Nat.pow_le_pow_right (by decide) h64.le)
    apply FieldRoundTrip.of_reads
    intro bref bits h
    obtain ⟨b₁, hp₁, h₁⟩ := pack_ofNat_holds h.alignBytesZero hv64 h64
    refine ⟨b₁, _ ++ msbBits _ n, hp₁, by simpa only [List.append_assoc] using h₁, fun hr ho => ?_⟩
    rw [List.append_assoc, ← ho] at hr
    obtain ⟨r₁, ha₁, hbuf₁, hr₁⟩ := CbitRef.alignBytes_reads hr
    obtain ⟨r₂, hu₂, hbuf₂, hr₂⟩ := CbitRef.unpack_reads hr₁ hw
    rw [Nat.mod_eq_of_lt hval] at hu₂
    refine ⟨r₂, ?_, hbuf₂.trans hbuf₁, hr₂⟩
    simp only [unpackUnconstrainedWholeNumber, ↓reduceIte, ha₁, Fallible.ok_bind]
    exact hu₂

/-- A reader with bits left in its octet is not at the end of its buffer,
so `align_bytes` succeeds. -/
theorem alignBytes_ok_of_reads {r : BitReader} {bits : List Bool} (h : r.Reads bits) :
    ∃ r', CbitRef.alignBytes r = .ok r' := by
  obtain ⟨ho, hle, -⟩ := h
  unfold CbitRef.alignBytes
  split_ifs with h0 hend
  · omega
  · exact ⟨_, rfl⟩
  · exact ⟨_, rfl⟩

/-- Announced octets wider than the type reach the assertion, wherever the
reader stands. -/
theorem unpackUnconstrainedWholeNumber_asserts {w len : Nat} (aligned : Bool) {r : BitReader}
    {bits : List Bool} (h : r.Reads bits) (hwide : w < len * 8) :
    unpackUnconstrainedWholeNumber w r len aligned = .error .assertion := by
  have hunpack : ∀ r' : BitReader, CbitRef.unpack r' w (len * 8) = .error .assertion := by
    intro r'
    rw [CbitRef.unpack, if_neg (by omega)]
  cases aligned with
  | false => exact hunpack r
  | true =>
    obtain ⟨r', ha⟩ := alignBytes_ok_of_reads h
    simp only [unpackUnconstrainedWholeNumber, ↓reduceIte, ha, Fallible.ok_bind]
    exact hunpack r'

/-! ## Integers -/

theorem unpackInteger_marker (libm : Libm) (w n : Nat) (r : BitReader) (lb ub : Nat) (aligned : Bool) :
    unpackInteger libm w n r lb ub true aligned =
      CbitRef.unpack r 8 1 >>= fun p => unpackIntegerValue libm w n p.2 lb ub (decide (p.1 = 0)) aligned :=
  rfl

/-- Outside the bounds the value is a length determinant and its octets. -/
theorem unpackIntegerValue_outside (libm : Libm) (w n : Nat) (r : BitReader) (lb ub : Nat)
    (aligned : Bool) :
    unpackIntegerValue libm w n r lb ub false aligned =
      unpackLength r aligned >>= fun p => unpackUnconstrainedWholeNumber w p.2 p.1 aligned := by
  simp only [unpackIntegerValue, Bool.false_and, Bool.not_false, Bool.false_eq_true, ↓reduceIte]

/-- Within bounds with an upper bound below the type's maximum and more than
one value, in either variant and with or without an extension marker,
`pack_integer` succeeds whenever the float widths fit, and `unpack_integer`
reads `n` back and stops right after it, whatever the variable held. -/
theorem integer_roundTrip_constrained (libm : Libm) {w n lb ub : Nat} (n₀ : Nat)
    (hasExt aligned : Bool) (hn : lb ≤ n ∧ n ≤ ub) (hlu : lb < ub) (hmax : ub < 2 ^ w - 1)
    (hw64 : w ≤ 64) (hfit : WidthsFit libm w n lb ub aligned) :
    FieldRoundTrip (fun bref => packInteger libm w bref n lb ub hasExt aligned)
      (fun r => unpackInteger libm w n₀ r lb ub hasExt aligned) n := by
  have hra : ub - lb + 1 < 2 ^ 64 :=
    lt_of_lt_of_le (by omega) (Nat.pow_le_pow_right (by decide) hw64)
  have hvalue := constrainedWholeNumber_roundTrip libm aligned hn (by omega) hra hfit
  have hwb : decide (lb ≤ n ∧ n ≤ ub) = true := decide_eq_true hn
  have hup : (ub != 2 ^ w - 1) = true := bne_iff_ne.mpr (by omega)
  have hpack : ∀ bref, packIntegerValue libm w bref n lb ub aligned =
      packConstrainedWholeNumber libm bref n lb ub aligned := by
    intro bref
    simp only [packIntegerValue, hwb, hup, Bool.and_self, ↓reduceIte]
    exact if_neg (by omega)
  have hunpack : ∀ r, unpackIntegerValue libm w n₀ r lb ub true aligned =
      unpackConstrainedWholeNumber libm w r lb ub aligned := by
    intro r
    simp only [unpackIntegerValue, hup, Bool.and_self, ↓reduceIte]
    exact if_neg (by omega)
  cases hasExt with
  | false =>
    refine hvalue.transport (fun bref => ?_) (fun r r' hd => ?_)
    · simp only [packInteger, hwb, Bool.not_true, Bool.false_eq_true, ↓reduceIte, hpack]
    · rw [unpackInteger, if_neg Bool.false_ne_true, hunpack]
      exact hd
  | true =>
    have hmarker := (fieldRoundTrip_pack (t := 0) (k := 1) (w := 8) (by decide) (by decide)
      (by decide)).bind (fun p => unpackIntegerValue libm w n₀ p.2 lb ub (decide (p.1 = 0))
        aligned) (hvalue.transport (fun _ => rfl) (fun r r' hd => by
          show unpackIntegerValue libm w n₀ r lb ub true aligned = _
          rw [hunpack]
          exact hd))
    refine hmarker.transport (fun bref => ?_) (fun r r' hd => ?_)
    · simp only [packInteger, hwb, ↓reduceIte, hpack]
      rfl
    · rw [unpackInteger_marker]
      exact hd

/-- `200` in `0..255` of a `uint16_t`, behind a `0` extension marker. -/
theorem integer_roundTrip_constrained_marker :
    FieldRoundTrip (fun bref => packInteger Libm.floorLog2 16 bref 200 0 255 true false)
      (fun r => unpackInteger Libm.floorLog2 16 0 r 0 255 true false) 200 :=
  @integer_roundTrip_constrained Libm.floorLog2 16 200 0 255 0 true false (by decide) (by decide) (by decide)
    (by decide) (widthsFit_two_pow Libm.floorLog2 (k := 8) (by decide) (by decide) (by decide))

/-- Outside the bounds, behind the extension marker, `pack_integer`
succeeds whenever the widths fit, and `unpack_integer` reads `n` back and
stops right after it, whatever the variable held. -/
theorem integer_roundTrip_extended (libm : Libm) {w n lb ub : Nat} (n₀ : Nat) (aligned : Bool)
    (hout : n < lb ∨ ub < n) (hfit : ExtensionFits libm w n) :
    FieldRoundTrip (fun bref => packInteger libm w bref n lb ub true aligned)
      (fun r => unpackInteger libm w n₀ r lb ub true aligned) n := by
  obtain ⟨hlen, hval, hw, h64⟩ := hfit
  have hwb : decide (lb ≤ n ∧ n ≤ ub) = false := decide_eq_false (by omega)
  have hvalue := (length_roundTrip hlen aligned).bind
    (fun p => unpackUnconstrainedWholeNumber w p.2 p.1 aligned)
    (unconstrainedWholeNumber_roundTrip libm aligned hval hw h64)
  have hmarker := (fieldRoundTrip_pack (t := 1) (k := 1) (w := 8) (by decide) (by decide)
    (by decide)).bind (fun p => unpackIntegerValue libm w n₀ p.2 lb ub (decide (p.1 = 0))
      aligned) (hvalue.transport (fun _ => rfl) (fun r r' hd => by
        show unpackIntegerValue libm w n₀ r lb ub false aligned = _
        rw [unpackIntegerValue_outside]
        exact hd))
  refine hmarker.transport (fun bref => ?_) (fun r r' hd => ?_)
  · simp only [packInteger, hwb, Bool.false_eq_true, ↓reduceIte, packIntegerValue, Bool.false_and,
      Bool.not_false]
    rfl
  · rw [unpackInteger_marker]
    exact hd

/-- `256`, past the bounds `0..10`, in two octets of a `uint16_t`. -/
theorem integer_roundTrip_extended_256 :
    FieldRoundTrip (fun bref => packInteger Libm.floorLog2 16 bref 256 0 10 true false)
      (fun r => unpackInteger Libm.floorLog2 16 0 r 0 10 true false) 256 := by
  have hlen : unconstrainedWholeNumberLength Libm.floorLog2 256 = 2 :=
    unconstrainedWholeNumberLength_two_pow Libm.floorLog2 (k := 8) (by decide)
  exact @integer_roundTrip_extended Libm.floorLog2 16 256 0 10 0 false (.inr (by decide))
    (by simp only [ExtensionFits, hlen]; decide)

/-- The extension marker `1` and a length determinant below 16K, written at
any writer: `unpack_integer` reads both and is left with the unconstrained
whole number of the announced octets, whatever follows. -/
theorem unpackInteger_after_marker_length (libm : Libm) {w len : Nat} (n lb ub : Nat)
    (aligned : Bool) (hlen : len < asn16K) (bref : BitWriter) (bits : List Bool)
    (h : bref.Holds bits) :
    ∃ bref' fieldBits, (BitRef.pack bref 1 1 >>= fun bref => packLength bref len aligned) = .ok bref' ∧
      bref'.Holds (bits ++ fieldBits) ∧
      ∀ {r : BitReader} {rest : List Bool}, r.Reads (fieldBits ++ rest) → r.nofBits = bits.length →
        ∃ r', r'.Reads rest ∧ r'.nofBits = (bits ++ fieldBits).length ∧
          unpackInteger libm w n r lb ub true aligned = unpackUnconstrainedWholeNumber w r' len aligned := by
  obtain ⟨b₁, F₁, hp₁, h₁, hread₁⟩ := fieldRoundTrip_pack (t := 1) (k := 1) (w := 8) (by decide)
    (by decide) (by decide) bref bits h
  obtain ⟨b₂, F₂, hp₂, h₂, hread₂⟩ := length_roundTrip hlen aligned b₁ _ h₁
  refine ⟨b₂, F₁ ++ F₂, ?_, by rwa [← List.append_assoc], fun hr hpos => ?_⟩
  · simp only [show (1 : UInt64) = UInt64.ofNat 1 from rfl, hp₁, Fallible.ok_bind]
    exact hp₂
  · rw [List.append_assoc] at hr
    obtain ⟨r₁, hu₁, hr₁, hpos₁⟩ := hread₁ hr hpos
    obtain ⟨r₂, hu₂, hr₂, hpos₂⟩ := hread₂ hr₁ (by rw [hpos₁, List.length_append])
    refine ⟨r₂, hr₂, by rw [hpos₂, List.length_append, List.length_append, List.length_append,
      Nat.add_assoc], ?_⟩
    -- the marker `1` sends the decoder to the length determinant
    beta_reduce at hu₁ hu₂
    rw [unpackInteger_marker, hu₁, Fallible.ok_bind]
    show unpackIntegerValue libm w n r₁ lb ub false aligned = _
    rw [unpackIntegerValue_outside, hu₂, Fallible.ok_bind]

/-- On every input whose extension marker is set and whose length
determinant announces more octets than the type holds, `unpack_integer`
reaches the assertion of `cbit_ref::unpack`, whatever follows: it neither
succeeds nor returns an error code. -/
theorem unpackInteger_asserts_of_wide_length (libm : Libm) {w len : Nat} (n lb ub : Nat)
    (aligned : Bool) (hlen : len < asn16K) (hwide : w < len * 8) (bref : BitWriter)
    (bits : List Bool) (h : bref.Holds bits) :
    ∃ bref' fieldBits, (BitRef.pack bref 1 1 >>= fun bref => packLength bref len aligned) = .ok bref' ∧
      bref'.Holds (bits ++ fieldBits) ∧
      ∀ {r : BitReader} {rest : List Bool}, r.Reads (fieldBits ++ rest) → r.nofBits = bits.length →
        unpackInteger libm w n r lb ub true aligned = .error .assertion := by
  obtain ⟨bref', fieldBits, hp, hh, hread⟩ :=
    unpackInteger_after_marker_length libm n lb ub aligned hlen bref bits h
  refine ⟨bref', fieldBits, hp, hh, fun hr hpos => ?_⟩
  obtain ⟨r', hr', -, heq⟩ := hread hr hpos
  rw [heq]
  exact unpackUnconstrainedWholeNumber_asserts aligned hr' hwide

/-- A `uint8_t` in `0..10` with the marker set and a length of two octets,
on an empty `bit_ref`, unaligned. -/
theorem unpackInteger_asserts_on_two_octet_uint8 :
    ∃ bref' fieldBits, (BitRef.pack ⟨[], 0⟩ 1 1 >>= fun bref => packLength bref 2 false) = .ok bref' ∧
      bref'.Holds ([] ++ fieldBits) ∧
      ∀ {r : BitReader} {rest : List Bool}, r.Reads (fieldBits ++ rest) →
        r.nofBits = ([] : List Bool).length →
        unpackInteger Libm.floorLog2 8 0 r 0 10 true false = .error .assertion :=
  unpackInteger_asserts_of_wide_length Libm.floorLog2 0 0 10 false (by decide) (by decide) ⟨[], 0⟩ []
    (BitWriter.holds_aligned [])

/-- Outside the bounds, an octet count below eight octets but wider than the
type: `pack_integer` succeeds at any writer, and `unpack_integer` asserts at
what it wrote. -/
theorem unpackInteger_asserts_of_packInteger (libm : Libm) {w n lb ub : Nat} (n₀ : Nat)
    (aligned : Bool) (hout : n < lb ∨ ub < n) (hlen : unconstrainedWholeNumberLength libm n < asn16K)
    (hwide : w < unconstrainedWholeNumberLength libm n * 8)
    (h64 : unconstrainedWholeNumberLength libm n * 8 < 64) (bref : BitWriter) (bits : List Bool)
    (h : bref.Holds bits) :
    ∃ bref' fieldBits, packInteger libm w bref n lb ub true aligned = .ok bref' ∧
      bref'.Holds (bits ++ fieldBits) ∧
      ∀ {r : BitReader} {rest : List Bool}, r.Reads (fieldBits ++ rest) → r.nofBits = bits.length →
        unpackInteger libm w n₀ r lb ub true aligned = .error .assertion := by
  have hwb : decide (lb ≤ n ∧ n ≤ ub) = false := decide_eq_false (by omega)
  obtain ⟨b₂, F₂, hp₂, h₂, hread₂⟩ :=
    unpackInteger_after_marker_length libm (w := w) n₀ lb ub aligned hlen bref bits h
  obtain ⟨b₃, G, hp₃, h₃⟩ : ∃ b₃ G, packUnconstrainedWholeNumber libm b₂ n aligned = .ok b₃ ∧
      b₃.Holds (bits ++ F₂ ++ G) := by
    cases aligned with
    | false =>
      obtain ⟨b₃, hp, hh⟩ := BitRef.pack_holds h₂ (UInt64.ofNat n) h64
      exact ⟨b₃, _, hp, hh⟩
    | true =>
      obtain ⟨b₃, hp, hh⟩ := BitRef.pack_holds h₂.alignBytesZero (UInt64.ofNat n) h64
      exact ⟨b₃, _, hp, by simpa only [List.append_assoc] using hh⟩
  refine ⟨b₃, F₂ ++ G, ?_, by rwa [← List.append_assoc], fun hr hpos => ?_⟩
  · simp only [packInteger, hwb, Bool.false_eq_true, ↓reduceIte, packIntegerValue, Bool.false_and,
      Bool.not_false]
    rw [← bind_assoc, hp₂, Fallible.ok_bind, hp₃]
  · rw [List.append_assoc] at hr
    obtain ⟨r', hr', -, heq⟩ := hread₂ hr hpos
    rw [heq]
    exact unpackUnconstrainedWholeNumber_asserts aligned hr' hwide

/-- A `uint32_t` holding `2 ^ 32 - 1`, past `0..10`, on an empty `bit_ref`:
the float count writes five octets, which `unpack_integer` cannot take back. -/
theorem unpackInteger_asserts_of_packInteger_uint32_max :
    ∃ bref' fieldBits, packInteger Libm.floorLog2 32 ⟨[], 0⟩ 4294967295 0 10 true false = .ok bref' ∧
      bref'.Holds ([] ++ fieldBits) ∧
      ∀ {r : BitReader} {rest : List Bool}, r.Reads (fieldBits ++ rest) →
        r.nofBits = ([] : List Bool).length →
        unpackInteger Libm.floorLog2 32 0 r 0 10 true false = .error .assertion := by
  have hlen := unconstrainedWholeNumberLength_uint32_max Libm.floorLog2
  exact @unpackInteger_asserts_of_packInteger Libm.floorLog2 32 4294967295 0 10 0 false (.inr (by decide))
    (by rw [hlen]; decide) (by rw [hlen]; decide) (by rw [hlen]; decide) ⟨[], 0⟩ [] (BitWriter.holds_aligned [])

end SrsRan
