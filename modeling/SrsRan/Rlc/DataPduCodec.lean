import SrsRan.Rlc.UmPdu

/-!
The data PDU header codecs of both modes, both ways. The writers send the
two SO octets when `so ≠ 0`; the readers and the size functions expect
them when the SI is a middle or last segment. The two agree on headers
whose SO is non-zero exactly for those segments (`SoFollowsSi`): there a
header written, then read back, is the header itself, except that the UM
header of a full SDU carries no SN, which reads back as 0.
-/

namespace SrsRan.Rlc

/-- The SO is non-zero exactly when the SI announces one. -/
def SoFollowsSi (si : RlcSiField) (so : UInt16) : Prop := so ≠ 0 ↔ si.hasSo = true

theorem SoFollowsSi.so_eq_zero {si : RlcSiField} {so : UInt16} (h : SoFollowsSi si so)
    (hsi : si.hasSo = false) : so = 0 := by
  by_contra hne
  rw [h.mp hne] at hsi
  cases hsi

/-- The AM headers the codec carries: an SN of the field's width, a one-bit
poll flag, and the SO where the SI announces it. -/
structure RlcAmPduHeader.Codable (h : RlcAmPduHeader) : Prop where
  sn_lt : h.sn < cardinality h.snSize.toNumber
  p_le : h.p.toNat ≤ 1
  so_follows_si : SoFollowsSi h.si h.so

/-! ## Octet arithmetic -/

theorem toUInt8_and_0xff (x : UInt16) : (x &&& 0xff).toUInt8 = x.toUInt8 := by
  apply UInt8.toNat_inj.mp
  simp [UInt16.toNat_toUInt8]

/-- The D/C, P and SI fields of the first AM header octet, as a sum. -/
theorem amFixed_eq (dc p si : Nat) :
    ((dc &&& 0x01) <<< 7) ||| ((p &&& 0x01) <<< 6) ||| ((si &&& 0x03) <<< 4) =
      dc % 2 * 128 + p % 2 * 64 + si % 4 * 16 := by
  simp only [Octet.and_0x01, Octet.and_0x03, Nat.shiftLeft_eq]
  have hinner : dc % 2 * 2 ^ 7 ||| p % 2 * 2 ^ 6 = dc % 2 * 128 + p % 2 * 64 :=
    Octet.or_eq_add (k := 7) (by omega) (by omega)
  rw [hinner, Octet.or_eq_add (k := 6) (by omega) (by omega)]

/-- The reserved bits of an 18-bit AM header lie in the low nibble. -/
theorem and_0x0c_of_mod {v : Nat} (h : v % 16 < 4) : v &&& 0x0c = 0 := by
  have h12 : (0x0c : Nat) = 0x0f &&& 0x0c := rfl
  rw [h12, ← Nat.land_assoc, Octet.and_0x0f]
  generalize v % 16 = b at h
  revert b
  decide

/-- What the writers append after the SN is what `readSo` reads. -/
theorem readSo_append {si : RlcSiField} {so : UInt16} (h : SoFollowsSi si so)
    (rest : List UInt8) :
    readSo si ((if so ≠ 0 then [(so >>> 8).toUInt8, (so &&& 0xff).toUInt8] else []) ++ rest) =
      some so := by
  cases hsi : si.hasSo with
  | false =>
    have hso := h.so_eq_zero hsi
    simp [readSo, hso, hsi]
  | true =>
    have hso : so ≠ 0 := h.mpr hsi
    simp only [readSo, hsi, if_true, hso, ne_eq, not_false_eq_true, List.cons_append,
      List.nil_append, toUInt8_and_0xff, Octet.uint16_of_octets]

/-- The fields of the first octet of an AM header. -/
theorem amOctet0_fields {dc p si x b0 : Nat} (hdc : dc < 2) (hp : p < 2) (hsi : si < 4) (hx : x < 16)
    (hb0 : (UInt8.ofNat (dc * 128 + p * 64 + si * 16 + x)).toNat = b0) :
    b0 >>> 7 &&& 0x01 = dc ∧ b0 >>> 6 &&& 0x01 = p ∧ b0 >>> 4 &&& 0x03 = si ∧ b0 &&& 0x0f = x := by
  simp only [Octet.toNat_ofNat_uint8] at hb0
  simp only [Nat.shiftRight_eq_div_pow, Octet.and_0x01, Octet.and_0x03, Octet.and_0x0f]
  omega

/-- The fields of the first octet of a UM segment header. -/
theorem umOctet0_fields {si x b0 : Nat} (hsi : si < 4) (hx : x < 64)
    (hb0 : (UInt8.ofNat (si * 64 + x)).toNat = b0) :
    b0 >>> 6 &&& 0x03 = si ∧ b0 &&& 0x3f = x ∧ b0 &&& 0x0f = x % 16 ∧ b0 >>> 4 &&& 0x03 = x / 16 := by
  simp only [Octet.toNat_ofNat_uint8] at hb0
  simp only [Nat.shiftRight_eq_div_pow, Octet.and_0x03, Octet.and_0x3f, Octet.and_0x0f]
  omega

theorem RlcDcField.toNumber_lt (dc : RlcDcField) : dc.toNumber < 2 := by
  cases dc <;> decide

/-- The D/C bit read back. -/
theorem RlcDcField.ofBit_toNumber (dc : RlcDcField) :
    (if dc.toNumber = 0 then RlcDcField.control else .data) = dc := by
  cases dc <;> rfl

/-- Twelve SN bits sent as a nibble and an octet. -/
theorem sn12_of_octets {sn : Nat} (hsn : sn < 4096) : (sn / 256 % 16) <<< 8 ||| sn % 256 % 256 % 256 = sn := by
  rw [Octet.shiftLeft_or_eq_add _ _ 8 (by omega)]
  omega

/-- Eighteen SN bits sent as two bits and two octets. -/
theorem sn18_of_octets {sn : Nat} (hsn : sn < 262144) :
    (sn / 65536 % 4) <<< 16 ||| ((sn >>> 8) % 256 % 256) <<< 8 ||| sn % 256 % 256 % 256 = sn := by
  have h8 : sn >>> 8 = sn / 256 := Nat.shiftRight_eq_div_pow sn 8
  have hmid : (sn / 65536 % 4) <<< 16 ||| (sn / 256 % 256 % 256) <<< 8 =
      sn / 65536 % 4 * 65536 + sn / 256 % 256 * 256 := by
    rw [Nat.shiftLeft_eq, Nat.shiftLeft_eq, Octet.or_eq_add (k := 16) (by omega) (by omega)]
    simp only [Nat.reducePow]
    omega
  rw [h8, hmid, Octet.or_eq_add (k := 8) (by omega) (by omega)]
  omega

/-! ## AM headers -/

theorem length_rlcAmWriteDataPduHeader {h : RlcAmPduHeader} (hso : SoFollowsSi h.si h.so) :
    (rlcAmWriteDataPduHeader h).length = h.getPackedSize := by
  obtain ⟨dc, p, si, sz, sn, so⟩ := h
  simp only at hso
  cases hsi : si.hasSo with
  | false =>
    have hso0 := hso.so_eq_zero hsi
    cases sz <;> simp [rlcAmWriteDataPduHeader, RlcAmPduHeader.getPackedSize, hsi, hso0,
      rlcAmPduHeaderMinSize]
  | true =>
    have hso0 : so ≠ 0 := hso.mpr hsi
    cases sz <;> simp [rlcAmWriteDataPduHeader, RlcAmPduHeader.getPackedSize, hsi, hso0,
      rlcAmPduHeaderMaxSize, rlcAmPduHeaderMinSize, rlcAmPduHeaderSoSize]

theorem rlcAmReadDataPduHeader_write {h : RlcAmPduHeader} (hc : h.Codable) {payload : List UInt8}
    (hpl : payload ≠ []) :
    rlcAmReadDataPduHeader (rlcAmWriteDataPduHeader h ++ payload) h.snSize = some h := by
  obtain ⟨dc, p, si, sz, sn, so⟩ := h
  obtain ⟨hsn, hp, hso⟩ := hc
  simp only at hsn hp hso
  have hdc := dc.toNumber_lt
  have hsi := si.toNumber_lt
  have hpl' : 0 < payload.length := List.length_pos_iff.mpr hpl
  cases sz with
  | size12bits =>
    have hsn' : sn < 4096 := hsn
    have hv : ((dc.toNumber &&& 0x01) <<< 7 ||| (p.toNat &&& 0x01) <<< 6 |||
        (si.toNumber &&& 0x03) <<< 4) ||| ((sn >>> 8) &&& 0x0f) =
        dc.toNumber * 128 + p.toNat * 64 + si.toNumber * 16 + sn / 256 % 16 := by
      rw [amFixed_eq, Octet.or_eq_add (k := 4) (by omega) (by simp only [Octet.and_0x0f]; omega),
        Octet.and_0x0f, Nat.shiftRight_eq_div_pow]
      omega
    simp only [rlcAmWriteDataPduHeader, List.cons_append, rlcAmReadDataPduHeader]
    rw [if_neg (by simp only [List.length_cons, List.length_append, rlcAmPduHeaderMinSize]; omega), hv]
    generalize hb0 : (UInt8.ofNat
      (dc.toNumber * 128 + p.toNat * 64 + si.toNumber * 16 + sn / 256 % 16)).toNat = b0
    obtain ⟨h7, h6, h4, hlow⟩ := amOctet0_fields hdc (by omega : p.toNat < 2) hsi
      (Nat.mod_lt (sn / 256) (by decide : 0 < 16)) hb0
    simp only [h7, h6, h4, hlow, RlcSiField.ofNumber_toNumber, List.nil_append, readSo_append hso,
      Option.map_some, Octet.toNat_ofNat_uint8, Octet.and_0xff, RlcDcField.ofBit_toNumber,
      UInt8.ofNat_toNat, sn12_of_octets hsn']
  | size18bits =>
    have hsn' : sn < 262144 := hsn
    have hv : ((dc.toNumber &&& 0x01) <<< 7 ||| (p.toNat &&& 0x01) <<< 6 |||
        (si.toNumber &&& 0x03) <<< 4) ||| ((sn >>> 16) &&& 0x3) =
        dc.toNumber * 128 + p.toNat * 64 + si.toNumber * 16 + sn / 65536 % 4 := by
      rw [amFixed_eq, Octet.or_eq_add (k := 4) (by omega) (by simp only [Octet.and_0x03]; omega),
        Octet.and_0x03, Nat.shiftRight_eq_div_pow]
      omega
    simp only [rlcAmWriteDataPduHeader, List.cons_append, rlcAmReadDataPduHeader]
    rw [if_neg (by simp only [List.length_cons, List.length_append, rlcAmPduHeaderMinSize]; omega), hv]
    generalize hb0 : (UInt8.ofNat
      (dc.toNumber * 128 + p.toNat * 64 + si.toNumber * 16 + sn / 65536 % 4)).toNat = b0
    obtain ⟨h7, h6, h4, hlow⟩ := amOctet0_fields hdc (by omega : p.toNat < 2) hsi
      (by omega : sn / 65536 % 4 < 16) hb0
    rw [Octet.and_0x0f] at hlow
    have hres : b0 &&& 0x0c = 0 := and_0x0c_of_mod (by omega)
    have hhigh : b0 &&& 0x03 = sn / 65536 % 4 := by
      rw [Octet.and_0x03]
      omega
    simp only [hres, ne_eq, not_true_eq_false, if_false, h7, h6, h4, hhigh,
      RlcSiField.ofNumber_toNumber, List.nil_append, readSo_append hso, Option.map_some,
      Octet.toNat_ofNat_uint8, Octet.and_0xff, RlcDcField.ofBit_toNumber, UInt8.ofNat_toNat,
      sn18_of_octets hsn']

/-! ## UM headers -/

theorem length_rlcUmWriteDataPduHeader (h : RlcUmPduHeader) :
    (rlcUmWriteDataPduHeader h).length = rlcUmNrPackedLength h := by
  obtain ⟨si, sz, sn, so⟩ := h
  by_cases hfull : si = .fullSdu
  · simp [rlcUmWriteDataPduHeader, rlcUmNrPackedLength, hfull]
  · cases sz <;> by_cases hso : so = 0 <;>
      simp [rlcUmWriteDataPduHeader, rlcUmNrPackedLength, hfull, hso]

theorem rlcUmReadDataPduHeader_write {h : RlcUmPduHeader}
    (hsn : h.sn < cardinality h.snSize.toNumber) (hso : SoFollowsSi h.si h.so) (payload : List UInt8) :
    rlcUmReadDataPduHeader (rlcUmWriteDataPduHeader h ++ payload) h.snSize =
      some (if h.si = .fullSdu then { h with sn := 0 } else h) := by
  obtain ⟨si, sz, sn, so⟩ := h
  simp only at hsn hso ⊢
  by_cases hfull : si = .fullSdu
  · -- a full SDU: one octet, no SN, no SO
    subst hfull
    have hso0 := hso.so_eq_zero rfl
    subst hso0
    cases sz <;> simp [rlcUmWriteDataPduHeader, rlcUmReadDataPduHeader, readSo, RlcSiField.hasSo,
      RlcSiField.toNumber, RlcSiField.ofNumber]
  · have hsi := si.toNumber_lt
    cases sz with
    | size6bits =>
      have hsn' : sn < 64 := hsn
      have hv : (si.toNumber &&& 0x03) <<< 6 ||| (sn &&& 0x3f) = si.toNumber * 64 + sn := by
        rw [Octet.and_0x03, Octet.and_0x3f, Nat.mod_eq_of_lt hsi, Nat.mod_eq_of_lt hsn',
          Octet.shiftLeft_or_eq_add _ _ 6 hsn']
        rfl
      simp only [rlcUmWriteDataPduHeader, hfull, if_false, List.cons_append, rlcUmReadDataPduHeader]
      rw [hv]
      generalize hb0 : (UInt8.ofNat (si.toNumber * 64 + sn)).toNat = b0
      obtain ⟨h6, hsnv, -, -⟩ := umOctet0_fields hsi hsn' hb0
      simp only [h6, hsnv, RlcSiField.ofNumber_toNumber, hfull, false_and, if_false, List.nil_append,
        readSo_append hso, Option.map_some]
    | size12bits =>
      have hsn' : sn < 4096 := hsn
      have hv : (si.toNumber &&& 0x03) <<< 6 ||| ((sn >>> 8) &&& 0xf) = si.toNumber * 64 + sn / 256 % 16 := by
        rw [Octet.and_0x03, Octet.and_0x0f, Nat.mod_eq_of_lt hsi, Nat.shiftRight_eq_div_pow,
          Octet.shiftLeft_or_eq_add _ _ 6 (by omega)]
        rfl
      simp only [rlcUmWriteDataPduHeader, hfull, if_false, List.cons_append, rlcUmReadDataPduHeader]
      rw [hv]
      generalize hb0 : (UInt8.ofNat (si.toNumber * 64 + sn / 256 % 16)).toNat = b0
      obtain ⟨h6, -, hlow, hres⟩ := umOctet0_fields hsi (by omega : sn / 256 % 16 < 64) hb0
      have hres0 : (sn / 256 % 16) / 16 = 0 := by omega
      have hlow' : (sn / 256 % 16) % 16 = sn / 256 % 16 := by omega
      simp only [h6, hlow, hres, hres0, hlow', RlcSiField.ofNumber_toNumber, hfull, false_and, if_false,
        ne_eq, not_true_eq_false, and_false, List.nil_append, readSo_append hso, Option.map_some,
        Octet.toNat_ofNat_uint8, Octet.and_0xff, sn12_of_octets hsn']

end SrsRan.Rlc
