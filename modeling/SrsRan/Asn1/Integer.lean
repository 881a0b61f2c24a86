import SrsRan.Asn1.BitRef
import SrsRan.Lib.BinaryFloat

/-!
Constrained whole numbers (X.691 10.5): `pack_constrained_whole_number` and
`unpack_constrained_whole_number` of `asn1_utils.cpp`, for the unsigned
`IntType`s, whose values are `Nat`s below `2 ^ w`.

The field widths are computed in single precision: `(float)` rounds to 24
bits, `log2f` is the C library's (`Libm`), `ceilf`/`floorf` are exact. The
round trip holds whenever those widths come out wide enough
(`WidthsFit`), which they do for every range that is a power of two. In the
aligned case past 64K they do not for `n = 2^32 - 1` in `0..2^32-1`:
`(float)(2^32 - 1)` is `2^32`, five octets are announced in a two-bit
length field, the field keeps `5 - 1 = 4` modulo 4, and the decoder reads one
octet and returns 0.
-/

namespace SrsRan

open BinaryFloat BitString

/-- `ASN_64K`. -/
def asn64K : Nat := 65536

/-- `ceil_frac`. -/
def ceilFrac (n d : Nat) : Nat := (n + (d - 1)) / d

/-- `(uint32_t)ceilf(log2f(x))` for an integer `x` converted to `float`.
Converting a float to `uint32_t` drops its fraction; none met here is
negative. -/
def ceilLog2f (libm : Libm) (x : Nat) : Nat :=
  (⌈libm.log2f (roundBinary 24 x)⌉).toNat

/-- `(uint32_t)floorf(log2f(x) + 1)` for an integer `x` converted to
`float`; the sum is a float too. -/
def floorLog2fAddOne (libm : Libm) (x : Nat) : Nat :=
  (⌊roundBinary 24 (libm.log2f (roundBinary 24 x) + 1)⌋).toNat

/-- The aligned case of `pack_constrained_whole_number` up to 64K: the
value right-aligned in whole octets, between two alignments. -/
def packOctetAligned (bref : BitWriter) (toencode nBits : Nat) : Except AsnError BitWriter := do
  let nOctets := ceilFrac nBits 8
  let bref ← BitRef.pack bref.alignBytesZero 0 (nOctets * 8 - nBits)
  let bref ← BitRef.pack bref (UInt64.ofNat toencode) nBits
  pure bref.alignBytesZero

/-- The aligned case past 64K: the number of octets less one in a field as
wide as the octets of the range need, then the value in those octets. Both
widths are computed with floats; `n_octets - 1` is a `uint32_t`. -/
def packIndefiniteOctets (libm : Libm) (bref : BitWriter) (toencode nBits : Nat) :
    Except AsnError BitWriter := do
  let nBitsLen := ceilLog2f libm (ceilFrac nBits 8)
  let nBits := floorLog2fAddOne libm (max toencode 1)
  let nOctets := ceilFrac nBits 8
  let bref ← BitRef.pack bref (UInt64.ofNat ((nOctets + (2 ^ 32 - 1)) % 2 ^ 32)) nBitsLen
  BitRef.pack bref.alignBytesZero (UInt64.ofNat toencode) (nOctets * 8)

/-- `pack_constrained_whole_number`. The unaligned case drops the result of
`pack`, whose only failure met here is its assertion. -/
def packConstrainedWholeNumber (libm : Libm) (bref : BitWriter) (n lb ub : Nat) (aligned : Bool) :
    Except AsnError BitWriter :=
  if ub < lb ∨ n < lb ∨ n > ub then .error (.code .srsasnErrorEncodeFail) else
  let ra := (ub - lb + 1) % 2 ^ 64
  if ra = 1 then .ok bref else
  let nBits := ceilLog2f libm ra
  let toencode := n - lb
  if !aligned then BitRef.pack bref (UInt64.ofNat toencode) nBits
  else if ra < 256 then BitRef.pack bref (UInt64.ofNat toencode) nBits
  else if ra ≤ asn64K then packOctetAligned bref toencode nBits
  else packIndefiniteOctets libm bref toencode nBits

/-- The reading counterpart of `packOctetAligned`, into a type of `w`
bits. -/
def unpackOctetAligned (w : Nat) (bref : BitReader) (nBits : Nat) :
    Except AsnError (Nat × BitReader) := do
  let nOctets := ceilFrac nBits 8
  let bref ← CbitRef.alignBytes bref
  let (n, bref) ← CbitRef.unpack bref w (nOctets * 8)
  let bref ← CbitRef.alignBytes bref
  pure (n, bref)

/-- The reading counterpart of `packIndefiniteOctets`; the octet count is
read into a `uint32_t`. -/
def unpackIndefiniteOctets (libm : Libm) (w : Nat) (bref : BitReader) (nBits : Nat) :
    Except AsnError (Nat × BitReader) := do
  let nBitsLen := ceilLog2f libm (ceilFrac nBits 8)
  let (nOctets, bref) ← CbitRef.unpack bref 32 nBitsLen
  let nOctets := (nOctets + 1) % 2 ^ 32
  let bref ← CbitRef.alignBytes bref
  CbitRef.unpack bref w (nOctets * 8)

/-- The value an unsigned `IntType` of `w` bits holds after `n += lb`. -/
def addLb (w n lb : Nat) : Nat := (n + lb) % 2 ^ w

/-- `unpack_constrained_whole_number` into an unsigned `IntType` of `w`
bits: the value and the reader after it. Every case ends with `n += lb`
and the check against `ub`. -/
def unpackConstrainedWholeNumber (libm : Libm) (w : Nat) (bref : BitReader) (lb ub : Nat)
    (aligned : Bool) : Except AsnError (Nat × BitReader) :=
  if ub < lb then .error (.code .srsasnErrorDecodeFail) else
  let ra := (ub - lb + 1) % 2 ^ 64
  if ra = 1 then .ok (lb, bref) else
  let nBits := ceilLog2f libm ra
  let decoded :=
    if !aligned then CbitRef.unpack bref w nBits
    else if ra < 256 then CbitRef.unpack bref w nBits
    else if ra ≤ asn64K then unpackOctetAligned w bref nBits
    else unpackIndefiniteOctets libm w bref nBits
  decoded.bind fun (n, bref) =>
    if addLb w n lb > ub then .error (.code .srsasnErrorDecodeFail) else .ok (addLb w n lb, bref)

/-! ## The float widths -/

theorem ceilLog2f_two_pow (libm : Libm) (k : Nat) : ceilLog2f libm (2 ^ k) = k := by
  rw [ceilLog2f, Nat.cast_pow, Nat.cast_ofNat, roundBinary_two_pow, libm.log2f_two_pow,
    Int.ceil_natCast, Int.toNat_natCast]

/-- When `(float)x` is `2 ^ k`, `floorf(log2f(x) + 1)` is `k + 1`. -/
theorem floorLog2fAddOne_of_round (libm : Libm) {x k : Nat} (hx : roundBinary 24 x = 2 ^ k)
    (hk : k + 1 < 2 ^ 24) : floorLog2fAddOne libm x = k + 1 := by
  rw [floorLog2fAddOne, hx, libm.log2f_two_pow,
    show (k : ℚ) + 1 = ((k + 1 : Nat) : ℚ) by push_cast; ring, roundBinary_natCast_of_lt hk,
    Int.floor_natCast, Int.toNat_natCast]

/-! ## The round trip -/

/-- The widths computed with floats are wide enough: the field holds every
value of the range, the reader's type holds the field, and `pack` takes it;
in the aligned case past 64K, the length field holds the octet count less
one and the octets hold the value. -/
def WidthsFit (libm : Libm) (w n lb ub : Nat) (aligned : Bool) : Prop :=
  let ra := ub - lb + 1
  let nBits := ceilLog2f libm ra
  if ra = 1 then True
  else if !aligned || decide (ra < 256) then ub - lb < 2 ^ nBits ∧ nBits ≤ w ∧ nBits < 64
  else if ra ≤ asn64K then
    ub - lb < 2 ^ nBits ∧ ceilFrac nBits 8 * 8 ≤ w ∧ ceilFrac nBits 8 * 8 < 64
  else
    let nBitsLen := ceilLog2f libm (ceilFrac nBits 8)
    let nOctets := ceilFrac (floorLog2fAddOne libm (max (n - lb) 1)) 8
    0 < nOctets ∧ nOctets - 1 < 2 ^ nBitsLen ∧ nBitsLen ≤ 32 ∧ nBitsLen < 64 ∧
      n - lb < 2 ^ (nOctets * 8) ∧ nOctets * 8 ≤ w ∧ nOctets * 8 < 64

theorem nBits_le_ceilFrac (nBits : Nat) : nBits ≤ ceilFrac nBits 8 * 8 := by
  unfold ceilFrac
  omega

/-- `enc` appends some bits to any writer, and `dec`, at those bits, reads
`t` and stops right after them. -/
def FieldRoundTrip (enc : BitWriter → Except AsnError BitWriter)
    (dec : BitReader → Except AsnError (Nat × BitReader)) (t : Nat) : Prop :=
  ∀ (bref : BitWriter) (bits : List Bool), bref.Holds bits →
    ∃ bref' fieldBits, enc bref = .ok bref' ∧ bref'.Holds (bits ++ fieldBits) ∧
      ∀ {r : BitReader} {rest : List Bool}, r.Reads (fieldBits ++ rest) → r.nofBits = bits.length →
        ∃ r', dec r = .ok (t, r') ∧ r'.Reads rest ∧ r'.nofBits = bits.length + fieldBits.length

/-- A field written by `pack` and read by `unpack` into a type that holds
it. -/
theorem field_roundTrip {bref : BitWriter} {bits : List Bool} (h : bref.Holds bits) {t k w : Nat}
    (ht : t < 2 ^ k) (hk : k < 64) (hkw : k ≤ w) :
    ∃ bref', BitRef.pack bref (UInt64.ofNat t) k = .ok bref' ∧ bref'.Holds (bits ++ msbBits k t) ∧
      ∀ {r : BitReader} {rest : List Bool}, r.Reads (msbBits k t ++ rest) →
        ∃ r', CbitRef.unpack r w k = .ok (t, r') ∧ r'.buffer = r.buffer ∧ r'.Reads rest := by
  have ht64 : t < 2 ^ 64 := lt_of_lt_of_le ht (Nat.pow_le_pow_right (by decide) hk.le)
  obtain ⟨bref', hp, h'⟩ := BitRef.pack_holds h (UInt64.ofNat t) hk
  rw [UInt64.toNat_ofNat_of_lt' ht64] at h'
  refine ⟨bref', hp, h', fun hr => ?_⟩
  obtain ⟨r', hu, hbuf, hr'⟩ := CbitRef.unpack_reads hr hkw
  rw [Nat.mod_eq_of_lt ht] at hu
  exact ⟨r', hu, hbuf, hr'⟩

theorem FieldRoundTrip.transport {enc enc' : BitWriter → Except AsnError BitWriter}
    {dec dec' : BitReader → Except AsnError (Nat × BitReader)} {t t' : Nat}
    (h : FieldRoundTrip enc dec t) (henc : ∀ bref, enc' bref = enc bref)
    (hdec : ∀ r r', dec r = .ok (t, r') → dec' r = .ok (t', r')) : FieldRoundTrip enc' dec' t' := by
  intro bref bits hb
  obtain ⟨bref', fieldBits, he, hh, hread⟩ := h bref bits hb
  refine ⟨bref', fieldBits, by rw [henc, he], hh, fun hr hpos => ?_⟩
  obtain ⟨r', hd, hr', hpos'⟩ := hread hr hpos
  exact ⟨r', hdec _ _ hd, hr', hpos'⟩

theorem fieldRoundTrip_pack {t k w : Nat} (ht : t < 2 ^ k) (hk : k < 64) (hkw : k ≤ w) :
    FieldRoundTrip (fun bref => BitRef.pack bref (UInt64.ofNat t) k)
      (fun r => CbitRef.unpack r w k) t := by
  intro bref bits h
  obtain ⟨bref', hp, h', hread⟩ := field_roundTrip h ht hk hkw
  refine ⟨bref', msbBits k t, hp, h', fun hr hpos => ?_⟩
  obtain ⟨r', hu, hbuf, hr'⟩ := hread hr
  exact ⟨r', hu, hr', by rw [hr.nofBits_of_drop hr' hbuf, hpos]⟩

/-- A reader at an octet boundary is left where it is by `align_bytes`. -/
theorem alignBytes_of_aligned {r : BitReader} (h0 : r.offset = 0) :
    CbitRef.alignBytes r = .ok r := by
  rw [CbitRef.alignBytes, if_neg (not_not.mpr h0)]

theorem fieldRoundTrip_octetAligned {t nBits w : Nat} (ht : t < 2 ^ nBits)
    (hk : ceilFrac nBits 8 * 8 < 64) (hkw : ceilFrac nBits 8 * 8 ≤ w) :
    FieldRoundTrip (fun bref => packOctetAligned bref t nBits)
      (fun r => unpackOctetAligned w r nBits) t := by
  intro bref bits h
  have hle := nBits_le_ceilFrac nBits
  have h₁ := h.alignBytesZero
  obtain ⟨b₂, hp₂, h₂⟩ := BitRef.pack_holds h₁ 0 (show ceilFrac nBits 8 * 8 - nBits < 64 by omega)
  rw [UInt64.toNat_zero] at h₂
  obtain ⟨b₃, hp₃, h₃, hread⟩ := field_roundTrip h₂ ht (by omega) (w := w) (by omega)
  have h₄ := h₃.alignBytesZero
  have hpad : ((bits ++ List.replicate ((8 - bits.length % 8) % 8) false ++
      msbBits (ceilFrac nBits 8 * 8 - nBits) 0 ++ msbBits nBits t).length % 8) = 0 := by
    simp only [List.length_append, List.length_replicate, length_msbBits]
    omega
  rw [hpad, Nat.sub_zero, Nat.mod_self, List.replicate_zero, List.append_nil] at h₄
  have hfield : msbBits (ceilFrac nBits 8 * 8 - nBits) 0 ++ msbBits nBits t =
      msbBits (ceilFrac nBits 8 * 8) t := by
    rw [← Nat.sub_add_cancel hle, msbBits_add, Nat.div_eq_of_lt ht, Nat.sub_add_cancel hle]
  refine ⟨b₃.alignBytesZero, List.replicate ((8 - bits.length % 8) % 8) false ++
    msbBits (ceilFrac nBits 8 * 8) t, ?_, ?_, ?_⟩
  · simp only [packOctetAligned, hp₂, hp₃, Fallible.ok_bind, Fallible.pure_eq_ok]
  · simpa only [List.append_assoc, hfield] using h₄
  · intro r rest hr hpos
    have ho := hr.offset_eq hpos
    rw [List.append_assoc, ← ho] at hr
    obtain ⟨r₁, ha₁, hbuf₁, hr₁⟩ := CbitRef.alignBytes_reads hr
    obtain ⟨r₂, hu₂, hbuf₂, hr₂⟩ := CbitRef.unpack_reads hr₁ hkw
    have hpos₂ : r₂.nofBits = bits.length + (List.replicate ((8 - bits.length % 8) % 8) false ++
        msbBits (ceilFrac nBits 8 * 8) t).length := by
      rw [hr₁.nofBits_of_drop hr₂ hbuf₂, hr.nofBits_of_drop hr₁ hbuf₁, hpos]
      simp only [List.length_append, List.length_replicate, length_msbBits]
      omega
    have h0 : r₂.offset = 0 := by
      rw [hr₂.offset_eq hpos₂]
      simp only [List.length_append, List.length_replicate, length_msbBits]
      omega
    rw [Nat.mod_eq_of_lt (lt_of_lt_of_le ht (Nat.pow_le_pow_right (by decide) hle))] at hu₂
    refine ⟨r₂, ?_, hr₂, hpos₂⟩
    simp only [unpackOctetAligned, ha₁, hu₂, alignBytes_of_aligned h0, Fallible.ok_bind,
      Fallible.pure_eq_ok]

theorem fieldRoundTrip_indefiniteOctets (libm : Libm) {t nBits w len nOctets : Nat}
    (hlen : ceilLog2f libm (ceilFrac nBits 8) = len)
    (hoct : ceilFrac (floorLog2fAddOne libm (max t 1)) 8 = nOctets) (hnz : 0 < nOctets)
    (hfits : nOctets - 1 < 2 ^ len) (hlen32 : len ≤ 32) (ht : t < 2 ^ (nOctets * 8))
    (hw : nOctets * 8 ≤ w) (h64 : nOctets * 8 < 64) :
    FieldRoundTrip (fun bref => packIndefiniteOctets libm bref t nBits)
      (fun r => unpackIndefiniteOctets libm w r nBits) t := by
  intro bref bits h
  have hpow : 2 ^ len ≤ 2 ^ 32 := Nat.pow_le_pow_right (by decide) hlen32
  have hcount : (nOctets + (2 ^ 32 - 1)) % 2 ^ 32 = nOctets - 1 := by omega
  obtain ⟨b₁, hp₁, h₁, hread₁⟩ := field_roundTrip h hfits (by omega) (w := 32) hlen32
  have h₂ := h₁.alignBytesZero
  obtain ⟨b₃, hp₃, h₃, hread₃⟩ := field_roundTrip h₂ ht h64 hw
  refine ⟨b₃, msbBits len (nOctets - 1) ++
    List.replicate ((8 - (bits ++ msbBits len (nOctets - 1)).length % 8) % 8) false ++
    msbBits (nOctets * 8) t, ?_, by simpa only [List.append_assoc] using h₃, ?_⟩
  · simp only [packIndefiniteOctets, hlen, hoct, hcount, hp₁, Fallible.ok_bind]
    exact hp₃
  · intro r rest hr hpos
    rw [List.append_assoc, List.append_assoc] at hr
    obtain ⟨r₁, hu₁, hbuf₁, hr₁⟩ := hread₁ hr
    have hpos₁ := hr.nofBits_of_drop hr₁ hbuf₁
    have ho₁ : r₁.offset = (bits ++ msbBits len (nOctets - 1)).length % 8 := by
      rw [hr₁.offset_eq hpos₁, hpos, List.length_append]
    rw [← ho₁] at hr₁
    obtain ⟨r₂, ha₂, hbuf₂, hr₂⟩ := CbitRef.alignBytes_reads hr₁
    obtain ⟨r₃, hu₃, hbuf₃, hr₃⟩ := hread₃ hr₂
    refine ⟨r₃, ?_, hr₃, ?_⟩
    · simp only [unpackIndefiniteOctets, hlen, hu₁, Fallible.ok_bind, Nat.sub_add_cancel hnz,
        Nat.mod_eq_of_lt (show nOctets < 2 ^ 32 by omega), ha₂]
      exact hu₃
    · rw [hr₂.nofBits_of_drop hr₃ hbuf₃, hr₁.nofBits_of_drop hr₂ hbuf₂, hpos₁, hpos, ho₁]
      simp only [List.length_append, List.length_replicate, length_msbBits]
      omega

/-- The round trip of constrained whole numbers: for an unsigned `IntType`
of `w` bits, bounds `lb ≤ n ≤ ub` whose range fits 64 bits, and either
variant, whenever the widths computed with floats are wide enough,
`pack_constrained_whole_number` succeeds at any writer, and
`unpack_constrained_whole_number` at the bits it wrote returns `n` and stops
right after them. -/
theorem constrainedWholeNumber_roundTrip (libm : Libm) {w n lb ub : Nat} (aligned : Bool)
    (hn : lb ≤ n ∧ n ≤ ub) (hub : ub < 2 ^ w) (hra : ub - lb + 1 < 2 ^ 64)
    (hfit : WidthsFit libm w n lb ub aligned) :
    FieldRoundTrip (fun bref => packConstrainedWholeNumber libm bref n lb ub aligned)
      (fun r => unpackConstrainedWholeNumber libm w r lb ub aligned) n := by
  have hpre : ¬(ub < lb ∨ n < lb ∨ n > ub) := by omega
  have hmod : (ub - lb + 1) % 2 ^ 64 = ub - lb + 1 := Nat.mod_eq_of_lt hra
  have hlb : ¬ub < lb := by omega
  -- every case reads `n - lb`, and `n += lb` gives back `n`, within the bounds
  have hcheck : ∀ {dec : Except AsnError (Nat × BitReader)} {r' : BitReader},
      dec = .ok (n - lb, r') →
      (dec.bind fun (m, b) => if addLb w m lb > ub then .error (.code .srsasnErrorDecodeFail)
        else .ok (addLb w m lb, b)) = .ok (n, r') := by
    intro dec r' hd
    have hback : addLb w (n - lb) lb = n := by
      rw [addLb, Nat.sub_add_cancel hn.1, Nat.mod_eq_of_lt (by omega)]
    rw [hd]
    show (if addLb w (n - lb) lb > ub then _ else _) = _
    rw [hback, if_neg (by omega)]
  unfold WidthsFit at hfit
  by_cases h1 : ub - lb + 1 = 1
  · -- a range of one value: nothing is written and `lb` is read
    obtain rfl : n = lb := by omega
    have hone : (ub - n + 1) % 2 ^ 64 = 1 := by rw [hmod, h1]
    intro bref bits h
    refine ⟨bref, [], ?_, by simpa using h,
      fun hr hpos => ⟨_, ?_, by simpa using hr, by simpa using hpos⟩⟩
    · simp only [packConstrainedWholeNumber, if_neg hpre, hone, ↓reduceIte]
    · simp only [unpackConstrainedWholeNumber, hlb, hone, ↓reduceIte]
  · simp only [h1, ↓reduceIte] at hfit
    cases aligned with
    | false =>
      simp only [Bool.not_false, Bool.true_or, ↓reduceIte] at hfit
      obtain ⟨hrange, hw, h64⟩ := hfit
      refine (fieldRoundTrip_pack (t := n - lb) (by omega) h64 hw).transport ?_ ?_
      · intro bref
        simp only [packConstrainedWholeNumber, if_neg hpre, hmod, h1, Bool.not_false, ↓reduceIte]
      · intro r r' hd
        simp only [unpackConstrainedWholeNumber, hlb, hmod, h1, Bool.not_false, ↓reduceIte]
        exact hcheck hd
    | true =>
      by_cases hsmall : ub - lb + 1 < 256
      · simp only [Bool.not_true, hsmall, decide_true, Bool.false_or, ↓reduceIte] at hfit
        obtain ⟨hrange, hw, h64⟩ := hfit
        refine (fieldRoundTrip_pack (t := n - lb) (by omega) h64 hw).transport ?_ ?_
        · intro bref
          simp only [packConstrainedWholeNumber, if_neg hpre, hmod, h1, hsmall, Bool.not_true,
            Bool.false_eq_true, ↓reduceIte]
        · intro r r' hd
          simp only [unpackConstrainedWholeNumber, hlb, hmod, h1, hsmall, Bool.not_true,
            Bool.false_eq_true, ↓reduceIte]
          exact hcheck hd
      · by_cases hmid : ub - lb + 1 ≤ asn64K
        · simp only [Bool.not_true, hsmall, decide_false, Bool.false_or, hmid, ↓reduceIte] at hfit
          obtain ⟨hrange, hw, h64⟩ := hfit
          refine (fieldRoundTrip_octetAligned (t := n - lb) (by omega) h64 hw).transport ?_ ?_
          · intro bref
            simp only [packConstrainedWholeNumber, if_neg hpre, hmod, h1, hsmall, hmid,
              Bool.not_true, Bool.false_eq_true, ↓reduceIte]
          · intro r r' hd
            simp only [unpackConstrainedWholeNumber, hlb, hmod, h1, hsmall, hmid, Bool.not_true,
              Bool.false_eq_true, ↓reduceIte]
            exact hcheck hd
        · simp only [Bool.not_true, hsmall, decide_false, Bool.false_or, hmid, ↓reduceIte] at hfit
          obtain ⟨hnz, hfits, hlen32, -, hval, hw, h64⟩ := hfit
          refine (fieldRoundTrip_indefiniteOctets libm rfl rfl hnz hfits hlen32 hval hw h64).transport
            ?_ ?_
          · intro bref
            simp only [packConstrainedWholeNumber, if_neg hpre, hmod, h1, hsmall, hmid,
              Bool.not_true, Bool.false_eq_true, ↓reduceIte]
          · intro r r' hd
            simp only [unpackConstrainedWholeNumber, hlb, hmod, h1, hsmall, hmid, Bool.not_true,
              Bool.false_eq_true, ↓reduceIte]
            exact hcheck hd

/-- A range of `2 ^ k` values gets exactly `k` bits, whatever the C
library, since `log2f` is exact at powers of two. -/
theorem widthsFit_two_pow (libm : Libm) {w n lb ub k : Nat} (hk : ub - lb + 1 = 2 ^ k)
    (hkw : k ≤ w) (hk64 : k < 64) : WidthsFit libm w n lb ub false := by
  unfold WidthsFit
  simp only [hk, ceilLog2f_two_pow, Bool.not_false, Bool.true_or, ↓reduceIte]
  split_ifs
  first
  | trivial
  | exact ⟨by omega, hkw, hk64⟩

/-- So the unaligned round trip holds for every range whose size is a power
of two. -/
theorem constrainedWholeNumber_roundTrip_two_pow (libm : Libm) {w n lb ub k : Nat}
    (hn : lb ≤ n ∧ n ≤ ub) (hub : ub < 2 ^ w) (hk : ub - lb + 1 = 2 ^ k) (hkw : k ≤ w)
    (hk64 : k < 64) :
    FieldRoundTrip (fun bref => packConstrainedWholeNumber libm bref n lb ub false)
      (fun r => unpackConstrainedWholeNumber libm w r lb ub false) n :=
  constrainedWholeNumber_roundTrip libm false hn hub
    (by rw [hk]; exact Nat.pow_lt_pow_right (by decide) hk64) (widthsFit_two_pow libm hk hkw hk64)

/-- `200` in `0..255`, in eight bits. -/
theorem constrainedWholeNumber_roundTrip_two_pow_byte :
    FieldRoundTrip (fun bref => packConstrainedWholeNumber Libm.floorLog2 bref 200 0 255 false)
      (fun r => unpackConstrainedWholeNumber Libm.floorLog2 8 r 0 255 false) 200 :=
  constrainedWholeNumber_roundTrip_two_pow Libm.floorLog2 (k := 8) (by decide) (by decide) (by decide) le_rfl
    (by decide)

/-! ## `n = 2^32 - 1` in `0..2^32-1`, aligned -/

/-- `(float)(2^32 - 1)` is `2^32`: the 32 ones do not fit 24 bits and round
up. -/
theorem roundBinary_uint32_max : roundBinary 24 ((4294967295 : Nat) : ℚ) = 2 ^ 32 := by
  have hlog : Nat.log 2 4294967295 = 31 :=
    Nat.log_eq_of_pow_le_of_lt_pow (by norm_num) (by norm_num)
  have he : ulpExponent 24 ((4294967295 : Nat) : ℚ) = 8 := by
    rw [ulpExponent_natCast, hlog]
    norm_num
  have hfloor : ⌊((4294967295 : Nat) : ℚ) / 2 ^ (8 : ℤ)⌋ = 16777215 := by
    rw [Int.floor_eq_iff]
    norm_num
  rw [roundBinary, if_neg (by norm_num), he, roundHalfEven, hfloor]
  norm_num

/-- Encoding `2^32 - 1` in `0..2^32-1`, aligned, announces five octets in a
two-bit length field, which keeps `5 - 1 = 4` as 0; decoding the six
octets written reads one octet and returns 0, having read 16 of the 48 bits.
This holds for every C library whose `log2f` is exact at powers of two. -/
theorem constrainedWholeNumber_uint32_max_decodes_as_zero (libm : Libm) :
    packConstrainedWholeNumber libm ⟨[], 0⟩ 4294967295 0 4294967295 true =
        .ok ⟨[0x00, 0x00, 0xFF, 0xFF, 0xFF, 0xFF], 0⟩ ∧
      unpackConstrainedWholeNumber libm 32 (BitReader.ofBuffer [0x00, 0x00, 0xFF, 0xFF, 0xFF, 0xFF])
        0 4294967295 true = .ok (0, ⟨[0x00, 0x00, 0xFF, 0xFF, 0xFF, 0xFF], 2, 0⟩) := by
  have hra : ceilLog2f libm 4294967296 = 32 := ceilLog2f_two_pow libm 32
  have hlen : ceilLog2f libm 4 = 2 := ceilLog2f_two_pow libm 2
  have hoct : floorLog2fAddOne libm (max 4294967295 1) = 33 := by
    rw [max_eq_left (by norm_num)]
    exact floorLog2fAddOne_of_round libm roundBinary_uint32_max (by norm_num)
  constructor
  · simp only [packConstrainedWholeNumber, packIndefiniteOctets, ceilFrac, Nat.reduceSub,
      Nat.reduceAdd, Nat.reducePow, Nat.reduceMod, hra, hlen, hoct]
    decide +kernel
  · simp only [unpackConstrainedWholeNumber, unpackIndefiniteOctets, ceilFrac, Nat.reduceSub,
      Nat.reduceAdd, Nat.reducePow, Nat.reduceMod, hra, hlen]
    decide +kernel

/-- With the `log2` that returns the exact floor. -/
theorem constrainedWholeNumber_uint32_max_decodes_as_zero_floorLog2 :
    packConstrainedWholeNumber Libm.floorLog2 ⟨[], 0⟩ 4294967295 0 4294967295 true =
        .ok ⟨[0x00, 0x00, 0xFF, 0xFF, 0xFF, 0xFF], 0⟩ ∧
      unpackConstrainedWholeNumber Libm.floorLog2 32 (BitReader.ofBuffer [0x00, 0x00, 0xFF, 0xFF, 0xFF, 0xFF])
        0 4294967295 true = .ok (0, ⟨[0x00, 0x00, 0xFF, 0xFF, 0xFF, 0xFF], 2, 0⟩) :=
  constrainedWholeNumber_uint32_max_decodes_as_zero Libm.floorLog2

end SrsRan
