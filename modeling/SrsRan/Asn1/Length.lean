import SrsRan.Asn1.Bitstring

/-!
Length determinants (X.691 10.9): what the two `pack_length`/`unpack_length`
overloads of `asn1_utils.cpp` read back. The unconstrained overload is
modeled with the bit strings; the bounded one is added here for every
unsigned `IntType`.

The unconstrained overload writes a `uint32_t`: below 128 in one octet,
below 16K as `0b10` and fourteen bits, and, aligned only, up to 64K as
`0b11`, six bits of `val / 16K` and sixteen bits of the rest. Its decoder
reads the first two forms back and rejects every first octet from
`0b11000000` on, so no length from 16K to 64K that the aligned encoder
accepts can be read back. The bounded overload, for an unsigned `IntType`,
takes the unconstrained one from `ub ≥ 64K` on and the constrained whole
number below, on both sides.
-/

namespace SrsRan

open BinaryFloat BitString

/-- `pack_length(bit_ref&, IntType n, IntType lb, IntType ub, bool)` for an
unsigned `IntType`; `n` reaches the unconstrained overload as a
`uint32_t`. -/
def packLengthBounded (libm : Libm) (bref : BitWriter) (n lb ub : Nat) (aligned : Bool) :
    Except AsnError BitWriter :=
  if ub ≥ asn64K then packLength bref (n % 2 ^ 32) aligned
  else packConstrainedWholeNumber libm bref n lb ub aligned

/-- `unpack_length(IntType&, cbit_ref&, IntType lb, IntType ub, bool)` into an
unsigned `IntType` of `w` bits, which keeps the `uint32_t` length modulo
`2 ^ w`; `unpackLengthBounded` is its `uint32_t` case. -/
def unpackLengthBoundedInt (libm : Libm) (w : Nat) (bref : BitReader) (lb ub : Nat)
    (aligned : Bool) : Except AsnError (Nat × BitReader) :=
  if ub ≥ asn64K then (unpackLength bref aligned).map fun (len, bref) => (len % 2 ^ w, bref)
  else unpackConstrainedWholeNumber libm w bref lb ub aligned

/-! ## Fields -/

/-- A round trip seen from the reader: at the bits `enc` appended, `dec`
reads `t` and leaves the rest. Where the reader stops follows. -/
theorem FieldRoundTrip.of_reads {enc : BitWriter → Except AsnError BitWriter}
    {dec : BitReader → Except AsnError (Nat × BitReader)} {t : Nat}
    (h : ∀ (bref : BitWriter) (bits : List Bool), bref.Holds bits →
      ∃ bref' fieldBits, enc bref = .ok bref' ∧ bref'.Holds (bits ++ fieldBits) ∧
        ∀ {r : BitReader} {rest : List Bool}, r.Reads (fieldBits ++ rest) →
          r.offset = bits.length % 8 → ∃ r', dec r = .ok (t, r') ∧ r'.buffer = r.buffer ∧ r'.Reads rest) :
    FieldRoundTrip enc dec t := by
  intro bref bits hb
  obtain ⟨bref', fieldBits, he, hh, hread⟩ := h bref bits hb
  refine ⟨bref', fieldBits, he, hh, fun hr hpos => ?_⟩
  obtain ⟨r', hd, hbuf, hr'⟩ := hread hr (hr.offset_eq hpos)
  exact ⟨r', hd, hr', by rw [hr.nofBits_of_drop hr' hbuf, hpos]⟩

/-- Two fields in sequence, the second read according to the value of the
first. -/
theorem FieldRoundTrip.bind {enc₁ enc₂ : BitWriter → Except AsnError BitWriter}
    {dec₁ : BitReader → Except AsnError (Nat × BitReader)}
    {t₁ t₂ : Nat} (h₁ : FieldRoundTrip enc₁ dec₁ t₁)
    (dec₂ : Nat × BitReader → Except AsnError (Nat × BitReader))
    (h₂ : FieldRoundTrip enc₂ (fun r => dec₂ (t₁, r)) t₂) :
    FieldRoundTrip (fun bref => enc₁ bref >>= enc₂) (fun r => dec₁ r >>= dec₂) t₂ := by
  intro bref bits hb
  obtain ⟨b₁, F₁, he₁, hh₁, hread₁⟩ := h₁ bref bits hb
  obtain ⟨b₂, F₂, he₂, hh₂, hread₂⟩ := h₂ b₁ (bits ++ F₁) hh₁
  refine ⟨b₂, F₁ ++ F₂, by simp only [he₁, Fallible.ok_bind, he₂], by rwa [← List.append_assoc],
    fun hr hpos => ?_⟩
  rw [List.append_assoc] at hr
  obtain ⟨r₁, hd₁, hr₁, hpos₁⟩ := hread₁ hr hpos
  obtain ⟨r₂, hd₂, hr₂, hpos₂⟩ := hread₂ hr₁ (by rw [hpos₁, List.length_append])
  refine ⟨r₂, by simp only [hd₁, Fallible.ok_bind]; exact hd₂, hr₂, ?_⟩
  rw [hpos₂]
  simp only [List.length_append]
  omega

theorem pack_ofNat_holds {w : BitWriter} {bits : List Bool} (h : w.Holds bits) {v n : Nat}
    (hv : v < 2 ^ 64) (hn : n < 64) :
    ∃ w', BitRef.pack w (UInt64.ofNat v) n = .ok w' ∧ w'.Holds (bits ++ msbBits n v) := by
  obtain ⟨w', hp, h'⟩ := BitRef.pack_holds h (UInt64.ofNat v) hn
  rw [UInt64.toNat_ofNat_of_lt' hv] at h'
  exact ⟨w', hp, h'⟩

/-- The two-octet form: `0b10` and fourteen bits, written by two `pack`s. -/
theorem pack_longForm {w : BitWriter} {bits : List Bool} (h : w.Holds bits) {val : Nat}
    (hv : val < asn16K) :
    ∃ w', (do let w ← BitRef.pack w 0b10 2; BitRef.pack w (UInt64.ofNat val) 14) = .ok w' ∧
      w'.Holds (bits ++ (msbBits 1 1 ++ msbBits 1 0 ++ msbBits 14 val)) := by
  obtain ⟨w₁, hp₁, h₁⟩ := pack_ofNat_holds h (v := 2) (by decide) (n := 2) (by decide)
  obtain ⟨w₂, hp₂, h₂⟩ := pack_ofNat_holds h₁ (v := val) (by unfold asn16K at hv; omega)
    (n := 14) (by decide)
  refine ⟨w₂, ?_, ?_⟩
  · rw [show (0b10 : UInt64) = UInt64.ofNat 2 from rfl, hp₁, Fallible.ok_bind, hp₂]
  · rw [List.append_assoc] at h₂
    exact h₂

/-- Reading the one-octet form: a `0` flag bit and seven bits of value. -/
theorem msbBits_shortForm {val : Nat} (hv : val < 128) :
    msbBits 8 val = msbBits 1 0 ++ msbBits 7 val := by
  rw [msbBits_add 1 7, Nat.div_eq_of_lt (by simpa using hv)]

/-- In the aligned variant both forms are read as octets: the first holds
`0b10` and the six high bits of the value. -/
theorem msbBits_longForm_octets {val : Nat} (hv : val < asn16K) :
    msbBits 1 1 ++ msbBits 1 0 ++ msbBits 14 val = msbBits 8 (128 + val / 256) ++ msbBits 8 val := by
  have hhigh : msbBits 1 1 ++ msbBits 1 0 ++ msbBits 6 (val / 256) = msbBits 8 (128 + val / 256) := by
    rw [show (8 : Nat) = 2 + 6 from rfl, show 128 + val / 256 = 2 ^ 6 * 2 + val / 256 from rfl,
      msbBits_two_pow_mul_add 2 6 2 (val / 256) (by unfold asn16K at hv; omega)]
    rfl
  rw [show (14 : Nat) = 6 + 8 from rfl, msbBits_add 6 8, ← List.append_assoc,
    show (2 : Nat) ^ 8 = 256 from rfl, hhigh]

/-! ## The round trip below 16K -/

/-- Below 16K, in either variant, `pack_length` succeeds at any writer and
`unpack_length`, at the bits it wrote, reads the length back and stops
right after them. -/
theorem length_roundTrip {val : Nat} (hv : val < asn16K) (aligned : Bool) :
    FieldRoundTrip (fun bref => packLength bref val aligned) (fun r => unpackLength r aligned) val := by
  have hv64 : val < 2 ^ 64 := by unfold asn16K at hv; omega
  have h64K : ¬val > asn64K := by unfold asn16K at hv; unfold asn64K; omega
  apply FieldRoundTrip.of_reads
  intro bref bits h
  cases aligned with
  | false =>
    by_cases hshort : val < 128
    · obtain ⟨b₁, hp₁, h₁⟩ := pack_ofNat_holds h hv64 (n := 8) (by decide)
      refine ⟨b₁, msbBits 8 val, ?_, h₁, fun hr _ => ?_⟩
      · simp only [packLength, Bool.not_false, hshort, ↓reduceIte]
        exact hp₁
      · -- a `0` flag, then the value in seven bits
        rw [msbBits_shortForm hshort, List.append_assoc] at hr
        obtain ⟨r₁, hu₁, hbuf₁, hr₁⟩ := CbitRef.unpack_reads hr (by decide : _ ≤ 8)
        obtain ⟨r₂, hu₂, hbuf₂, hr₂⟩ := CbitRef.unpack_reads hr₁ (by decide : _ ≤ 32)
        rw [Nat.mod_eq_of_lt (by simpa using hshort)] at hu₂
        refine ⟨r₂, ?_, hbuf₂.trans hbuf₁, hr₂⟩
        simp only [unpackLength, Bool.not_false, ↓reduceIte, hu₁, Fallible.ok_bind, Nat.zero_mod]
        exact hu₂
    · obtain ⟨b₂, hp₂, h₂⟩ := pack_longForm h hv
      refine ⟨b₂, _, ?_, h₂, fun hr _ => ?_⟩
      · simp only [packLength, Bool.not_false, hshort, hv, ↓reduceIte]
        exact hp₂
      · -- a `1` flag, a `0` flag, then the value in fourteen bits
        simp only [List.append_assoc] at hr
        obtain ⟨r₁, hu₁, hbuf₁, hr₁⟩ := CbitRef.unpack_reads hr (by decide : _ ≤ 8)
        obtain ⟨r₂, hu₂, hbuf₂, hr₂⟩ := CbitRef.unpack_reads hr₁ (by decide : _ ≤ 8)
        obtain ⟨r₃, hu₃, hbuf₃, hr₃⟩ := CbitRef.unpack_reads hr₂ (by decide : _ ≤ 32)
        rw [Nat.mod_eq_of_lt (by unfold asn16K at hv; simpa using hv)] at hu₃
        refine ⟨r₃, ?_, hbuf₃.trans (hbuf₂.trans hbuf₁), hr₃⟩
        simp only [unpackLength, Bool.not_false, ↓reduceIte, hu₁, hu₂, Fallible.ok_bind,
          Nat.zero_mod]
        exact hu₃
  | true =>
    have ha := h.alignBytesZero
    have hpad : ∀ {r : BitReader} {fieldBits rest : List Bool},
        r.Reads (List.replicate ((8 - bits.length % 8) % 8) false ++ fieldBits ++ rest) →
        r.offset = bits.length % 8 →
        ∃ r₁, CbitRef.alignBytes r = .ok r₁ ∧ r₁.buffer = r.buffer ∧ r₁.Reads (fieldBits ++ rest) := by
      intro r fieldBits rest hr ho
      rw [List.append_assoc, ← ho] at hr
      exact CbitRef.alignBytes_reads hr
    by_cases hshort : val < 128
    · obtain ⟨b₁, hp₁, h₁⟩ := pack_ofNat_holds ha hv64 (n := 8) (by decide)
      refine ⟨b₁, _ ++ msbBits 8 val, ?_, by simpa only [List.append_assoc] using h₁,
        fun hr ho => ?_⟩
      · simp only [packLength, Bool.not_true, h64K, hshort, Bool.false_eq_true, ↓reduceIte]
        exact hp₁
      · obtain ⟨r₁, ha₁, hbuf₁, hr₁⟩ := hpad hr ho
        obtain ⟨r₂, hu₂, hbuf₂, hr₂⟩ := CbitRef.unpack_reads hr₁ (by decide : _ ≤ 32)
        rw [Nat.mod_eq_of_lt (show val < 2 ^ 8 by omega)] at hu₂
        refine ⟨r₂, ?_, hbuf₂.trans hbuf₁, hr₂⟩
        simp only [unpackLength, Bool.not_true, Bool.false_eq_true, ↓reduceIte, ha₁, hu₂,
          Fallible.ok_bind, hshort, Fallible.pure_eq_ok]
    · obtain ⟨b₂, hp₂, h₂⟩ := pack_longForm ha hv
      refine ⟨b₂, _ ++ (msbBits 1 1 ++ msbBits 1 0 ++ msbBits 14 val), ?_,
        by simpa only [List.append_assoc] using h₂, fun hr ho => ?_⟩
      · simp only [packLength, Bool.not_true, h64K, hshort, hv, Bool.false_eq_true, ↓reduceIte]
        exact hp₂
      · -- two octets: `128 + val / 256`, then the low eight bits
        obtain ⟨r₁, ha₁, hbuf₁, hr₁⟩ := hpad hr ho
        rw [msbBits_longForm_octets hv, List.append_assoc] at hr₁
        obtain ⟨r₂, hu₂, hbuf₂, hr₂⟩ := CbitRef.unpack_reads hr₁ (by decide : _ ≤ 32)
        obtain ⟨r₃, hu₃, hbuf₃, hr₃⟩ := CbitRef.unpack_reads hr₂ (by decide : _ ≤ 32)
        have hfirst : (128 + val / 256) % 2 ^ 8 = 128 + val / 256 := by
          unfold asn16K at hv
          omega
        rw [hfirst] at hu₂
        have hlow : 128 + val / 256 - 128 < 64 := by
          unfold asn16K at hv
          omega
        have hval : (128 + val / 256 - 128) <<< 8 + val % 2 ^ 8 = val := by
          rw [Nat.shiftLeft_eq]
          omega
        refine ⟨r₃, ?_, hbuf₃.trans (hbuf₂.trans hbuf₁), hr₃⟩
        simp only [unpackLength, Bool.not_true, Bool.false_eq_true, ↓reduceIte, ha₁, hu₂, hu₃,
          Fallible.ok_bind, show ¬128 + val / 256 < 128 by omega, hlow, Fallible.pure_eq_ok, hval]

/-! ## From 16K to 64K, aligned -/

/-- The third form's first octet: `0b11` and the six bits of `val / 16K`. -/
theorem msbBits_fragmentForm {m : Nat} (hm : m < 2 ^ 6) :
    msbBits 2 3 ++ msbBits 6 m = msbBits 8 (192 + m) := by
  rw [show (8 : Nat) = 2 + 6 from rfl, show 192 + m = 2 ^ 6 * 3 + m from rfl,
    msbBits_two_pow_mul_add 2 6 3 m hm]

/-- From 16K to 64K the aligned `pack_length` succeeds at any writer, but
`unpack_length`, at the bits it wrote, fails: their first octet,
`192 + val / 16K`, leaves `val - 128 ≥ 64`, which the decoder rejects. -/
theorem unpackLength_rejects_packLength {val : Nat} (hlo : asn16K ≤ val) (hhi : val ≤ asn64K)
    (bref : BitWriter) (bits : List Bool) (h : bref.Holds bits) :
    ∃ bref' fieldBits, packLength bref val true = .ok bref' ∧ bref'.Holds (bits ++ fieldBits) ∧
      ∀ {r : BitReader} {rest : List Bool}, r.Reads (fieldBits ++ rest) → r.nofBits = bits.length →
        unpackLength r true = .error (.code .srsasnErrorDecodeFail) := by
  unfold asn16K asn64K at *
  have hm : val / 16384 < 2 ^ 6 := by omega
  obtain ⟨b₁, hp₁, h₁⟩ := pack_ofNat_holds h.alignBytesZero (v := 3) (by decide) (n := 2) (by decide)
  obtain ⟨b₂, hp₂, h₂⟩ := pack_ofNat_holds h₁ (v := val / 16384) (by omega) (n := 6) (by decide)
  obtain ⟨b₃, hp₃, h₃⟩ := pack_ofNat_holds h₂ (v := val - val / 16384 * 16384) (by omega)
    (n := 16) (by decide)
  rw [List.append_assoc _ (msbBits 2 3), msbBits_fragmentForm hm] at h₃
  refine ⟨b₃, List.replicate ((8 - bits.length % 8) % 8) false ++
    (msbBits 8 (192 + val / 16384) ++ msbBits 16 (val - val / 16384 * 16384)), ?_,
    by simpa only [List.append_assoc] using h₃, fun hr hpos => ?_⟩
  · simp only [packLength, asn16K, asn64K, Bool.not_true, Bool.false_eq_true,
      show ¬val > 65536 by omega, show ¬val < 128 by omega, show ¬val < 16384 by omega, ↓reduceIte]
    rw [show (0b11 : UInt64) = UInt64.ofNat 3 from rfl, hp₁, Fallible.ok_bind, hp₂,
      Fallible.ok_bind, hp₃]
  · rw [List.append_assoc, ← hr.offset_eq hpos] at hr
    obtain ⟨r₁, ha₁, -, hr₁⟩ := CbitRef.alignBytes_reads hr
    rw [List.append_assoc] at hr₁
    obtain ⟨r₂, hu₂, -, -⟩ := CbitRef.unpack_reads hr₁ (by decide : _ ≤ 32)
    rw [Nat.mod_eq_of_lt (show 192 + val / 16384 < 2 ^ 8 by omega)] at hu₂
    simp only [unpackLength, Bool.not_true, Bool.false_eq_true, ↓reduceIte, ha₁, hu₂,
      Fallible.ok_bind, show ¬192 + val / 16384 < 128 by omega,
      show ¬192 + val / 16384 - 128 < 64 by omega]

/-- `pack_length(16384, aligned)` on an empty `bit_ref`: the decoder rejects
what was written. -/
theorem unpackLength_rejects_16K :
    ∃ bref' fieldBits, packLength ⟨[], 0⟩ 16384 true = .ok bref' ∧
      bref'.Holds ([] ++ fieldBits) ∧
      ∀ {r : BitReader} {rest : List Bool}, r.Reads (fieldBits ++ rest) →
        r.nofBits = ([] : List Bool).length → unpackLength r true = .error (.code .srsasnErrorDecodeFail) :=
  unpackLength_rejects_packLength (by decide) (by decide) ⟨[], 0⟩ [] (BitWriter.holds_aligned [])

/-! ## The bounded overload -/

/-- Below 64K the bounded overload is the constrained whole number on both
sides, and has its round trip. -/
theorem lengthBounded_roundTrip_constrained (libm : Libm) {w n lb ub : Nat} (aligned : Bool)
    (hn : lb ≤ n ∧ n ≤ ub) (hub : ub < asn64K) (hw : ub < 2 ^ w)
    (hfit : WidthsFit libm w n lb ub aligned) :
    FieldRoundTrip (fun bref => packLengthBounded libm bref n lb ub aligned)
      (fun r => unpackLengthBoundedInt libm w r lb ub aligned) n := by
  have hra : ub - lb + 1 < 2 ^ 64 := by unfold asn64K at hub; omega
  refine (constrainedWholeNumber_roundTrip libm aligned hn hw hra hfit).transport ?_ ?_
  · intro bref
    rw [packLengthBounded, if_neg (by omega)]
  · intro r r' hd
    rw [unpackLengthBoundedInt, if_neg (by omega)]
    exact hd

/-- A length of 100 in `0..1023`, unaligned. -/
theorem lengthBounded_roundTrip_constrained_1023 :
    FieldRoundTrip (fun bref => packLengthBounded Libm.floorLog2 bref 100 0 1023 false)
      (fun r => unpackLengthBoundedInt Libm.floorLog2 16 r 0 1023 false) 100 :=
  @lengthBounded_roundTrip_constrained Libm.floorLog2 16 100 0 1023 false (by decide) (by decide) (by decide)
    (widthsFit_two_pow Libm.floorLog2 (k := 10) (by decide) (by decide) (by decide))

/-- From 64K on both sides take the unconstrained determinant, which
carries every length below 16K. -/
theorem lengthBounded_roundTrip_unconstrained (libm : Libm) {w n lb ub : Nat} (aligned : Bool)
    (hub : asn64K ≤ ub) (hw : ub < 2 ^ w) (hn : n < asn16K) :
    FieldRoundTrip (fun bref => packLengthBounded libm bref n lb ub aligned)
      (fun r => unpackLengthBoundedInt libm w r lb ub aligned) n := by
  have hn32 : n < 2 ^ 32 := by unfold asn16K at hn; omega
  have hnw : n < 2 ^ w := by unfold asn16K at hn; unfold asn64K at hub; omega
  refine (length_roundTrip hn aligned).transport ?_ ?_
  · intro bref
    rw [packLengthBounded, if_pos (show ub ≥ asn64K from hub), Nat.mod_eq_of_lt hn32]
  · intro r r' hd
    rw [unpackLengthBoundedInt, if_pos (show ub ≥ asn64K from hub), hd]
    show Except.ok (n % 2 ^ w, r') = _
    rw [Nat.mod_eq_of_lt hnw]

/-- A length of 100 in `0..70000`, aligned. -/
theorem lengthBounded_roundTrip_unconstrained_70000 :
    FieldRoundTrip (fun bref => packLengthBounded Libm.floorLog2 bref 100 0 70000 true)
      (fun r => unpackLengthBoundedInt Libm.floorLog2 17 r 0 70000 true) 100 :=
  @lengthBounded_roundTrip_unconstrained Libm.floorLog2 17 100 0 70000 true (by decide) (by decide) (by decide)

end SrsRan
