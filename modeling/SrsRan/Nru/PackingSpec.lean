import SrsRan.Nru.Packing

/-!
The NR-U codec both ways. What `pack` writes is a row of fields
(`dlUserDataFields`, `dlDataDeliveryStatusFields`) followed by zero bits up
to `n * 4 - 2` octets, and `unpack` reads that row back field by field. A
frame written is read back as the message it was written from, provided
every sequence number fits its 24 bits; of DL user data, an empty list of
discard blocks is not sent and reads back as absent.
-/

namespace SrsRan.Nru

open BitString

@[simp] theorem verifyRead_ok {α : Type} (a : α) : verifyRead (.ok a : Except BitCoderError α) = .ok a := rfl

@[simp] theorem verifyWrite_ok {α : Type} (a : α) : verifyWrite (.ok a : Except BitCoderError α) = .ok a := rfl

@[simp] theorem toNat_boolBit (b : Bool) : (boolBit b).toNat = b.toNat := by
  cases b <;> rfl

/-- A flag read back from its bit. -/
@[simp] theorem toNat_mod_ne_zero (b : Bool) : (b.toNat % 2 ^ 1 != 0) = b := by
  cases b <;> rfl

/-! ## The padding loop -/

/-- The zero octets that complete a frame of `len` octets to `n * 4 - 2`. -/
def padLength (len : Nat) : Nat := (4 - (len + 2) % 4) % 4

theorem length_add_padLength (len : Nat) : (len + padLength len + 2) % 4 = 0 := by
  unfold padLength
  omega

/-- The loop appends `padLength` zero octets, given as many turns. -/
theorem padLoop_eq {startLen : Nat} :
    ∀ {fuel : Nat} {outBuf : List UInt8}, startLen ≤ outBuf.length →
      padLength (outBuf.length - startLen) ≤ fuel →
      padLoop startLen fuel outBuf = outBuf ++ List.replicate (padLength (outBuf.length - startLen)) 0
  | 0, outBuf, _, hfuel => by
    rw [Nat.le_zero.mp hfuel]
    simp [padLoop]
  | fuel + 1, outBuf, hstart, hfuel => by
    unfold padLoop
    by_cases hmod : (outBuf.length - startLen + 2) % 4 ≠ 0
    · -- one zero octet, and one turn fewer to go
      have hnext : padLength ((outBuf ++ [0]).length - startLen) = padLength (outBuf.length - startLen) - 1 := by
        simp only [List.length_append, List.length_singleton, padLength]
        omega
      have hpos : padLength (outBuf.length - startLen) = padLength (outBuf.length - startLen) - 1 + 1 := by
        unfold padLength at hmod ⊢
        omega
      rw [if_pos hmod, padLoop_eq (by simp; omega) (by rw [hnext]; omega), hnext, List.append_assoc]
      nth_rewrite 2 [hpos]
      rfl
    · rw [if_neg hmod]
      have h0 : padLength (outBuf.length - startLen) = 0 := by
        unfold padLength
        omega
      simp [h0]

/-! ## Writing -/

/-- The field an optional value adds to the row. -/
def optField (nBits : Nat) : Option UInt64 → List (Nat × Nat)
  | some value => [(nBits, value.toNat)]
  | none => []

theorem packIfPresent_holds {w : BitWriter} {bits : List Bool} (h : w.Holds bits) (field : Option UInt64)
    {nBits : Nat} (hn : nBits ≤ 64) :
    ∃ w', packIfPresent w field nBits = .ok w' ∧ w'.Holds (bits ++ fieldBits (optField nBits field)) := by
  cases field with
  | none => exact ⟨w, rfl, by simpa [optField] using h⟩
  | some value =>
    obtain ⟨e, h'⟩ := pack_holds h value hn
    exact ⟨w.packBits value.toNat nBits, by simp only [packIfPresent, e, verifyWrite_ok],
      by simpa [optField] using h'⟩

/-- The row of a list of discard blocks. -/
def discardBlockFields (blocks : List NruPdcpSnDiscardBlock) : List (Nat × Nat) :=
  blocks.flatMap fun block => [(24, block.pdcpSnStart.toNat), (8, block.blockSize.toNat)]

theorem packDiscardBlockList_holds {w : BitWriter} {bits : List Bool} (h : w.Holds bits)
    (blocks : List NruPdcpSnDiscardBlock) :
    ∃ w', packDiscardBlockList w blocks = .ok w' ∧ w'.Holds (bits ++ fieldBits (discardBlockFields blocks)) := by
  induction blocks generalizing w bits with
  | nil => exact ⟨w, rfl, by simpa [discardBlockFields] using h⟩
  | cons block blocks ih =>
    obtain ⟨e₁, h₁⟩ := pack_holds h block.pdcpSnStart.toUInt64 (show 24 ≤ 64 by decide)
    obtain ⟨e₂, h₂⟩ := pack_holds h₁ block.blockSize.toUInt64 (show 8 ≤ 64 by decide)
    obtain ⟨w', e', h'⟩ := ih h₂
    refine ⟨w', by simp only [packDiscardBlockList, e₁, e₂, e', verifyWrite_ok, Fallible.ok_bind], ?_⟩
    simpa [discardBlockFields, List.append_assoc] using h'

/-- The discard blocks of DL user data, the absent ones as none. -/
def NruDlUserData.discardBlockList (dlUserData : NruDlUserData) : List NruPdcpSnDiscardBlock :=
  match dlUserData.discardBlocks with
  | some discardBlocks => discardBlocks.blocks
  | none => []

/-- The row of the discard blocks part: present when `dl_discard_blocks`. -/
def discardBlocksFields (dlUserData : NruDlUserData) : List (Nat × Nat) :=
  if dlUserData.dlDiscardBlocks then
    (8, dlUserData.discardBlockList.length) :: discardBlockFields dlUserData.discardBlockList
  else []

theorem packDiscardBlocks_holds {w : BitWriter} {bits : List Bool} (h : w.Holds bits)
    (dlUserData : NruDlUserData) :
    ∃ w', packDiscardBlocks w dlUserData = .ok w' ∧
      w'.Holds (bits ++ fieldBits (discardBlocksFields dlUserData)) := by
  unfold packDiscardBlocks discardBlocksFields
  cases hblocks : dlUserData.discardBlocks with
  | none =>
    have hoff : dlUserData.dlDiscardBlocks = false := by simp [NruDlUserData.dlDiscardBlocks, hblocks]
    exact ⟨w, rfl, by simpa [hoff] using h⟩
  | some discardBlocks =>
    have hlist : dlUserData.discardBlockList = discardBlocks.blocks := by
      simp [NruDlUserData.discardBlockList, hblocks]
    by_cases hon : dlUserData.dlDiscardBlocks = true
    · obtain ⟨e₁, h₁⟩ := pack_holds h (UInt64.ofNat discardBlocks.blocks.length) (show 8 ≤ 64 by decide)
      obtain ⟨w', e', h'⟩ := packDiscardBlockList_holds h₁ discardBlocks.blocks
      have hlen : (UInt64.ofNat discardBlocks.blocks.length).toNat = discardBlocks.blocks.length := by
        have := discardBlocks.length_le
        simp only [UInt64.toNat_ofNat', nruMaxNofPdcpSnDiscardBlocks] at this ⊢
        omega
      refine ⟨w', by simp only [hon, if_true, e₁, verifyWrite_ok, Fallible.ok_bind, e'], ?_⟩
      simpa [hon, hlist, hlen, List.append_assoc] using h'
    · simp only [Bool.not_eq_true] at hon
      exact ⟨w, by simp [hon], by simpa [hon] using h⟩

/-- The row `pack` writes for DL user data, before the padding. -/
def dlUserDataFields (dlUserData : NruDlUserData) : List (Nat × Nat) :=
  [(4, NruPduType.dlUserData.toNat), (1, 0), (1, dlUserData.dlDiscardBlocks.toNat), (1, dlUserData.dlDiscardPdcpSn.isSome.toNat),
    (1, dlUserData.reportPolling.toNat), (6, 0), (1, dlUserData.assistInfoReportPollingFlag.toNat),
    (1, dlUserData.retransmissionFlag.toNat), (24, dlUserData.nruSn.toNat)] ++
  optField 24 (dlUserData.dlDiscardPdcpSn.map (·.toUInt64)) ++ discardBlocksFields dlUserData

theorem packDlUserData_holds (outBuf : List UInt8) (dlUserData : NruDlUserData) :
    ∃ w : BitWriter, packDlUserData outBuf dlUserData = .ok (padLoop outBuf.length 3 w.bytes) ∧
      w.Holds (octetBits outBuf ++ fieldBits (dlUserDataFields dlUserData)) := by
  have h₀ := BitWriter.holds_aligned outBuf
  obtain ⟨e₁, h₁⟩ := pack_holds h₀ NruPduType.dlUserData.toUInt64 (show 4 ≤ 64 by decide)
  obtain ⟨e₂, h₂⟩ := pack_holds h₁ 0 (show 1 ≤ 64 by decide)
  obtain ⟨e₃, h₃⟩ := pack_holds h₂ (boolBit dlUserData.dlDiscardBlocks) (show 1 ≤ 64 by decide)
  obtain ⟨e₄, h₄⟩ := pack_holds h₃ (boolBit dlUserData.dlDiscardPdcpSn.isSome) (show 1 ≤ 64 by decide)
  obtain ⟨e₅, h₅⟩ := pack_holds h₄ (boolBit dlUserData.reportPolling) (show 1 ≤ 64 by decide)
  obtain ⟨e₆, h₆⟩ := pack_holds h₅ 0 (show 6 ≤ 64 by decide)
  obtain ⟨e₇, h₇⟩ := pack_holds h₆ (boolBit dlUserData.assistInfoReportPollingFlag) (show 1 ≤ 64 by decide)
  obtain ⟨e₈, h₈⟩ := pack_holds h₇ (boolBit dlUserData.retransmissionFlag) (show 1 ≤ 64 by decide)
  obtain ⟨e₉, h₉⟩ := pack_holds h₈ dlUserData.nruSn.toUInt64 (show 24 ≤ 64 by decide)
  obtain ⟨w₁₀, e₁₀, h₁₀⟩ := packIfPresent_holds h₉ (dlUserData.dlDiscardPdcpSn.map (·.toUInt64))
    (show 24 ≤ 64 by decide)
  obtain ⟨w, e, h⟩ := packDiscardBlocks_holds h₁₀ dlUserData
  refine ⟨w, ?_, ?_⟩
  · simp only [packDlUserData, e₁, e₂, e₃, e₄, e₅, e₆, e₇, e₈, e₉, e₁₀, e, verifyWrite_ok,
      Fallible.ok_bind]
    rfl
  · simpa [dlUserDataFields, List.append_assoc] using h

/-! ## Reading -/

theorem unpackIfPresent_reads {r : BitReader} {field : Option UInt64} {tBits nBits : Nat} {rest : List Bool}
    (h : r.Reads (fieldBits (optField nBits field) ++ rest)) (ht : nBits ≤ tBits) :
    ∃ r', unpackIfPresent r field.isSome tBits nBits = .ok (field.map (·.toNat % 2 ^ nBits), r') ∧
      r'.Reads rest := by
  cases field with
  | none => exact ⟨r, rfl, by simpa [optField] using h⟩
  | some value =>
    simp only [optField, fieldBits_cons, fieldBits_nil, List.append_nil] at h
    obtain ⟨r', e, -, h'⟩ := unpack_reads h ht
    exact ⟨r', by simp [unpackIfPresent, e], h'⟩

theorem unpackDiscardBlockList_reads {blocks : List NruPdcpSnDiscardBlock} {rest : List Bool}
    (hfit : ∀ block ∈ blocks, block.pdcpSnStart.toNat < 2 ^ 24) :
    ∀ {r : BitReader}, r.Reads (fieldBits (discardBlockFields blocks) ++ rest) →
      ∃ res r', unpackDiscardBlockList r blocks.length = .ok (res, r') ∧ res.val = blocks ∧ r'.Reads rest := by
  induction blocks with
  | nil => exact fun h => ⟨⟨[], rfl⟩, _, rfl, rfl, by simpa [discardBlockFields] using h⟩
  | cons block blocks ih =>
    intro r h
    simp only [discardBlockFields, List.flatMap_cons, fieldBits_append, fieldBits_cons, fieldBits_nil,
      List.append_nil, List.append_assoc] at h
    obtain ⟨r₁, e₁, -, h₁⟩ := unpack_reads h (show 24 ≤ 32 by decide)
    obtain ⟨r₂, e₂, -, h₂⟩ := unpack_reads h₁ (show 8 ≤ 8 by decide)
    obtain ⟨res, r', e', hres, h'⟩ := ih (fun b hb => hfit b (List.mem_cons_of_mem _ hb)) h₂
    refine ⟨⟨block :: res.val, by simp [res.property]⟩, r', ?_, by simp [hres], h'⟩
    have hstart : UInt32.ofNat (block.pdcpSnStart.toNat % 2 ^ 24) = block.pdcpSnStart := by
      rw [Nat.mod_eq_of_lt (hfit block List.mem_cons_self), UInt32.ofNat_toNat]
    have hsize : UInt8.ofNat (block.blockSize.toNat % 2 ^ 8) = block.blockSize := by
      rw [Nat.mod_eq_of_lt block.blockSize.toNat_lt, UInt8.ofNat_toNat]
    simp only [List.length_cons, unpackDiscardBlockList, e₁, e₂, e', verifyRead_ok, Fallible.ok_bind,
      hstart, hsize]
    rfl

theorem unpackDiscardBlocks_reads {r : BitReader} {dlUserData : NruDlUserData} {rest : List Bool}
    (init : NruDlUserData) (hfit : ∀ block ∈ dlUserData.discardBlockList, block.pdcpSnStart.toNat < 2 ^ 24)
    (h : r.Reads (fieldBits (discardBlocksFields dlUserData) ++ rest)) :
    unpackDiscardBlocks r init dlUserData.dlDiscardBlocks =
      .ok { init with
            discardBlocks := if dlUserData.dlDiscardBlocks then dlUserData.discardBlocks
              else init.discardBlocks } := by
  cases hon : dlUserData.dlDiscardBlocks with
  | false => simp [unpackDiscardBlocks]
  | true =>
    obtain ⟨discardBlocks, hblocks⟩ : ∃ b, dlUserData.discardBlocks = some b := by
      cases hb : dlUserData.discardBlocks with
      | none => simp [NruDlUserData.dlDiscardBlocks, hb] at hon
      | some b => exact ⟨b, rfl⟩
    have hlist : dlUserData.discardBlockList = discardBlocks.blocks := by
      simp [NruDlUserData.discardBlockList, hblocks]
    rw [discardBlocksFields, if_pos hon, hlist, fieldBits_cons, List.append_assoc] at h
    rw [hlist] at hfit
    obtain ⟨r₁, e₁, -, h₁⟩ := unpack_reads h (show 8 ≤ 8 by decide)
    obtain ⟨⟨res, hres'⟩, r', e', hres, -⟩ := unpackDiscardBlockList_reads hfit h₁
    have hcount : discardBlocks.blocks.length % 2 ^ 8 = discardBlocks.blocks.length := by
      have := discardBlocks.length_le
      unfold nruMaxNofPdcpSnDiscardBlocks at this
      omega
    have hle : ¬ discardBlocks.blocks.length > nruMaxNofPdcpSnDiscardBlocks := by
      have := discardBlocks.length_le
      omega
    rw [hcount] at e₁
    simp only [unpackDiscardBlocks, if_true, e₁, verifyRead_ok, Fallible.ok_bind, dif_neg hle, e', hblocks]
    obtain ⟨blocks, hlen⟩ := discardBlocks
    simp only at hres
    subst hres
    rfl

/-- A sequence number sent in `n` bits reads back whole when it fits them. -/
theorem map_ofNat_mod {x : Option UInt32} {n : Nat} (h : ∀ sn ∈ x, sn.toNat < 2 ^ n) :
    Option.map UInt32.ofNat (Option.map (fun v => v.toNat % 2 ^ n) (Option.map (fun sn => sn.toUInt64) x)) = x := by
  cases x with
  | none => rfl
  | some sn =>
    have hlt := h sn rfl
    simp only [Option.map_some, UInt32.toNat_toUInt64, Nat.mod_eq_of_lt hlt, UInt32.ofNat_toNat]

/-- Every sequence number of DL user data fits the 24 bits it is sent in. -/
structure NruDlUserData.SnFit (dlUserData : NruDlUserData) : Prop where
  nruSn_lt : dlUserData.nruSn.toNat < 2 ^ 24
  dlDiscardPdcpSn_lt : ∀ sn ∈ dlUserData.dlDiscardPdcpSn, sn.toNat < 2 ^ 24
  pdcpSnStart_lt : ∀ block ∈ dlUserData.discardBlockList, block.pdcpSnStart.toNat < 2 ^ 24

/-- A frame whose octets carry the row of `dlUserData`, whatever padding
follows it, reads back into `init` as `dlUserData`, the optional fields it
does not carry left as `init` has them. -/
theorem unpackDlUserData_fields {frame : List UInt8} {m : Nat} (init : NruDlUserData)
    {dlUserData : NruDlUserData} (hfit : dlUserData.SnFit) (hne : frame ≠ [])
    (hlen : (frame.length + 2) % 4 = 0)
    (hbits : octetBits frame = fieldBits (dlUserDataFields dlUserData) ++ List.replicate m false) :
    unpackDlUserData init frame =
      .ok { dlUserData with
            dlDiscardPdcpSn := dlUserData.dlDiscardPdcpSn.or init.dlDiscardPdcpSn
            discardBlocks := if dlUserData.dlDiscardBlocks then dlUserData.discardBlocks
              else init.discardBlocks } := by
  have h₀ := BitReader.reads_ofBuffer frame
  rw [hbits] at h₀
  simp only [dlUserDataFields, fieldBits_append, fieldBits_cons, fieldBits_nil, List.append_nil,
    List.append_assoc] at h₀
  obtain ⟨r₁, e₁, -, h₁⟩ := unpack_reads h₀ (show 4 ≤ 8 by decide)
  obtain ⟨r₂, e₂, -, h₂⟩ := unpack_reads h₁ (show 1 ≤ 8 by decide)
  obtain ⟨r₃, e₃, -, h₃⟩ := unpack_reads h₂ (show 1 ≤ 8 by decide)
  obtain ⟨r₄, e₄, -, h₄⟩ := unpack_reads h₃ (show 1 ≤ 8 by decide)
  obtain ⟨r₅, e₅, -, h₅⟩ := unpack_reads h₄ (show 1 ≤ 8 by decide)
  obtain ⟨r₆, e₆, -, h₆⟩ := unpack_reads h₅ (show 6 ≤ 8 by decide)
  obtain ⟨r₇, e₇, -, h₇⟩ := BitDecoder.unpackUnchecked_reads h₆ (show 1 ≤ 8 by decide)
  obtain ⟨r₈, e₈, -, h₈⟩ := unpack_reads h₇ (show 1 ≤ 8 by decide)
  obtain ⟨r₉, e₉, -, h₉⟩ := unpack_reads h₈ (show 24 ≤ 32 by decide)
  obtain ⟨r₁₀, e₁₀, h₁₀⟩ := unpackIfPresent_reads h₉ (show 24 ≤ 32 by decide)
  rw [Option.isSome_map] at e₁₀
  have hempty : frame.isEmpty = false := List.isEmpty_eq_false_iff.mpr hne
  have htype : UInt8.ofNat (NruPduType.dlUserData.toNat % 2 ^ 4) = NruPduType.dlUserData := rfl
  simp only [unpackDlUserData, hempty, hlen, e₁, e₂, e₃, e₄, e₅, e₆, e₇, e₈, e₉, e₁₀, verifyRead_ok,
    Fallible.ok_bind, toNat_mod_ne_zero, htype, Nat.zero_mod, ne_eq, not_true_eq_false, if_false,
    Bool.false_eq_true]
  rw [unpackDiscardBlocks_reads _ hfit.pdcpSnStart_lt h₁₀]
  -- the sequence numbers read back whole, since they fit their 24 bits
  have hsn : UInt32.ofNat (dlUserData.nruSn.toNat % 2 ^ 24) = dlUserData.nruSn := by
    rw [Nat.mod_eq_of_lt hfit.nruSn_lt, UInt32.ofNat_toNat]
  simp only [hsn, map_ofNat_mod hfit.dlDiscardPdcpSn_lt]

/-! ## Frames -/

/-- What a writer begun on `outBuf` holds, padded by the loop of `pack`, is
`outBuf` followed by a frame of `n * 4 - 2` octets whose bits are those it
was given and zeros. -/
theorem padLoop_frame {w : BitWriter} {outBuf : List UInt8} {bits : List Bool}
    (h : w.Holds (octetBits outBuf ++ bits)) :
    ∃ frame m, padLoop outBuf.length 3 w.bytes = outBuf ++ frame ∧ (frame.length + 2) % 4 = 0 ∧
      octetBits frame = bits ++ List.replicate m false := by
  obtain ⟨core, hbytes, hcore⟩ := Holds.bytes_append h
  have hpad : padLength core.length ≤ 3 := by
    unfold padLength
    omega
  refine ⟨core ++ List.replicate (padLength core.length) 0,
    (8 - bits.length % 8) % 8 + 8 * padLength core.length, ?_, ?_, ?_⟩
  · rw [padLoop_eq (by simp [hbytes]) (by simpa [hbytes] using hpad), hbytes]
    simp
  · simpa [Nat.add_assoc] using length_add_padLength core.length
  · rw [octetBits_append, hcore, octetBits_replicate_zero, List.append_assoc, ← List.replicate_add]

theorem frame_ne_nil {frame : List UInt8} (h : (frame.length + 2) % 4 = 0) : frame ≠ [] := by
  rintro rfl
  simp at h

/-- DL user data round trip: `pack` appends a frame of `n * 4 - 2` octets,
and `unpack` reads it back into a default structure as the message itself,
an empty list of discard blocks as an absent one. -/
theorem packDlUserData_unpack (outBuf : List UInt8) {dlUserData : NruDlUserData} (hfit : dlUserData.SnFit) :
    ∃ frame, packDlUserData outBuf dlUserData = .ok (outBuf ++ frame) ∧ frame.length % 4 = 2 ∧
      unpackDlUserData {} frame =
        .ok { dlUserData with
              discardBlocks := if dlUserData.dlDiscardBlocks then dlUserData.discardBlocks else none } := by
  obtain ⟨w, hpack, hw⟩ := packDlUserData_holds outBuf dlUserData
  obtain ⟨frame, m, hpad, hlen, hbits⟩ := padLoop_frame hw
  refine ⟨frame, by rw [hpack, hpad], by omega, ?_⟩
  rw [unpackDlUserData_fields {} hfit (frame_ne_nil hlen) hlen hbits, Option.or_none]

/-! ## DL data delivery status -/

/-- The row of a list of lost NR-U SN ranges. -/
def lostNruSnRangeFields (ranges : List NruLostNruSnRange) : List (Nat × Nat) :=
  ranges.flatMap fun range => [(24, range.nruSnStart.toNat), (24, range.nruSnEnd.toNat)]

/-- The row of the lost NR-U SN ranges, when present: their number, then
each range. -/
def lostNruSnRangesFields : Option NruLostNruSnRanges → List (Nat × Nat)
  | some lost => (8, lost.ranges.length) :: lostNruSnRangeFields lost.ranges
  | none => []

theorem packLostNruSnRangeList_holds {w : BitWriter} {bits : List Bool} (h : w.Holds bits)
    (ranges : List NruLostNruSnRange) :
    ∃ w', packLostNruSnRangeList w ranges = .ok w' ∧
      w'.Holds (bits ++ fieldBits (lostNruSnRangeFields ranges)) := by
  induction ranges generalizing w bits with
  | nil => exact ⟨w, rfl, by simpa [lostNruSnRangeFields] using h⟩
  | cons range ranges ih =>
    obtain ⟨e₁, h₁⟩ := pack_holds h range.nruSnStart.toUInt64 (show 24 ≤ 64 by decide)
    obtain ⟨e₂, h₂⟩ := pack_holds h₁ range.nruSnEnd.toUInt64 (show 24 ≤ 64 by decide)
    obtain ⟨w', e', h'⟩ := ih h₂
    refine ⟨w', by simp only [packLostNruSnRangeList, e₁, e₂, e', verifyWrite_ok, Fallible.ok_bind], ?_⟩
    simpa [lostNruSnRangeFields, List.append_assoc] using h'

theorem packLostNruSnRanges_holds {w : BitWriter} {bits : List Bool} (h : w.Holds bits)
    (lostNruSnRanges : Option NruLostNruSnRanges) :
    ∃ w', packLostNruSnRanges w lostNruSnRanges = .ok w' ∧
      w'.Holds (bits ++ fieldBits (lostNruSnRangesFields lostNruSnRanges)) := by
  cases lostNruSnRanges with
  | none => exact ⟨w, rfl, by simpa [lostNruSnRangesFields] using h⟩
  | some lost =>
    obtain ⟨e₁, h₁⟩ := pack_holds h (UInt64.ofNat lost.ranges.length) (show 8 ≤ 64 by decide)
    obtain ⟨w', e', h'⟩ := packLostNruSnRangeList_holds h₁ lost.ranges
    have hlen : (UInt64.ofNat lost.ranges.length).toNat = lost.ranges.length := by
      have := lost.length_le
      simp only [UInt64.toNat_ofNat', nruMaxNofLostNruSnRanges] at this ⊢
      omega
    refine ⟨w', by simp only [packLostNruSnRanges, e₁, verifyWrite_ok, Fallible.ok_bind, e'], ?_⟩
    simpa [lostNruSnRangesFields, hlen, List.append_assoc] using h'

/-- The row `pack` writes for the DL data delivery status, before the
padding. -/
def dlDataDeliveryStatusFields (status : NruDlDataDeliveryStatus) : List (Nat × Nat) :=
  [(4, NruPduType.dlDataDeliveryStatus.toNat), (1, status.highestTransmittedPdcpSn.isSome.toNat),
    (1, status.highestDeliveredPdcpSn.isSome.toNat), (1, status.finalFrameInd.toNat),
    (1, status.lostNruSnRanges.isSome.toNat), (4, 0), (1, status.desiredDataRate.isSome.toNat),
    (1, status.highestRetransmittedPdcpSn.isSome.toNat),
    (1, status.highestDeliveredRetransmittedPdcpSn.isSome.toNat), (1, status.causeValue.isSome.toNat),
    (32, status.desiredBufferSizeForDrb.toNat)] ++
  optField 32 (status.desiredDataRate.map (·.toUInt64)) ++ lostNruSnRangesFields status.lostNruSnRanges ++
  optField 24 (status.highestDeliveredPdcpSn.map (·.toUInt64)) ++
  optField 24 (status.highestTransmittedPdcpSn.map (·.toUInt64)) ++
  optField 8 (status.causeValue.map (·.toUInt64)) ++
  optField 24 (status.highestDeliveredRetransmittedPdcpSn.map (·.toUInt64)) ++
  optField 24 (status.highestRetransmittedPdcpSn.map (·.toUInt64))

theorem packDlDataDeliveryStatus_holds (outBuf : List UInt8) (status : NruDlDataDeliveryStatus) :
    ∃ w : BitWriter, packDlDataDeliveryStatus outBuf status = .ok (padLoop outBuf.length 3 w.bytes) ∧
      w.Holds (octetBits outBuf ++ fieldBits (dlDataDeliveryStatusFields status)) := by
  have h₀ := BitWriter.holds_aligned outBuf
  obtain ⟨e₁, h₁⟩ := pack_holds h₀ NruPduType.dlDataDeliveryStatus.toUInt64 (show 4 ≤ 64 by decide)
  obtain ⟨e₂, h₂⟩ := pack_holds h₁ (boolBit status.highestTransmittedPdcpSn.isSome) (show 1 ≤ 64 by decide)
  obtain ⟨e₃, h₃⟩ := pack_holds h₂ (boolBit status.highestDeliveredPdcpSn.isSome) (show 1 ≤ 64 by decide)
  obtain ⟨e₄, h₄⟩ := pack_holds h₃ (boolBit status.finalFrameInd) (show 1 ≤ 64 by decide)
  obtain ⟨e₅, h₅⟩ := pack_holds h₄ (boolBit status.lostNruSnRanges.isSome) (show 1 ≤ 64 by decide)
  obtain ⟨e₆, h₆⟩ := pack_holds h₅ 0 (show 4 ≤ 64 by decide)
  obtain ⟨e₇, h₇⟩ := pack_holds h₆ (boolBit status.desiredDataRate.isSome) (show 1 ≤ 64 by decide)
  obtain ⟨e₈, h₈⟩ := pack_holds h₇ (boolBit status.highestRetransmittedPdcpSn.isSome) (show 1 ≤ 64 by decide)
  obtain ⟨e₉, h₉⟩ := pack_holds h₈ (boolBit status.highestDeliveredRetransmittedPdcpSn.isSome)
    (show 1 ≤ 64 by decide)
  obtain ⟨e₁₀, h₁₀⟩ := pack_holds h₉ (boolBit status.causeValue.isSome) (show 1 ≤ 64 by decide)
  obtain ⟨e₁₁, h₁₁⟩ := pack_holds h₁₀ status.desiredBufferSizeForDrb.toUInt64 (show 32 ≤ 64 by decide)
  obtain ⟨w₁₂, e₁₂, h₁₂⟩ := packIfPresent_holds h₁₁ (status.desiredDataRate.map (·.toUInt64))
    (show 32 ≤ 64 by decide)
  obtain ⟨w₁₃, e₁₃, h₁₃⟩ := packLostNruSnRanges_holds h₁₂ status.lostNruSnRanges
  obtain ⟨w₁₄, e₁₄, h₁₄⟩ := packIfPresent_holds h₁₃ (status.highestDeliveredPdcpSn.map (·.toUInt64))
    (show 24 ≤ 64 by decide)
  obtain ⟨w₁₅, e₁₅, h₁₅⟩ := packIfPresent_holds h₁₄ (status.highestTransmittedPdcpSn.map (·.toUInt64))
    (show 24 ≤ 64 by decide)
  obtain ⟨w₁₆, e₁₆, h₁₆⟩ := packIfPresent_holds h₁₅ (status.causeValue.map (·.toUInt64))
    (show 8 ≤ 64 by decide)
  obtain ⟨w₁₇, e₁₇, h₁₇⟩ := packIfPresent_holds h₁₆
    (status.highestDeliveredRetransmittedPdcpSn.map (·.toUInt64)) (show 24 ≤ 64 by decide)
  obtain ⟨w, e, h⟩ := packIfPresent_holds h₁₇ (status.highestRetransmittedPdcpSn.map (·.toUInt64))
    (show 24 ≤ 64 by decide)
  refine ⟨w, ?_, ?_⟩
  · simp only [packDlDataDeliveryStatus, e₁, e₂, e₃, e₄, e₅, e₆, e₇, e₈, e₉, e₁₀, e₁₁, e₁₂, e₁₃, e₁₄,
      e₁₅, e₁₆, e₁₇, e, verifyWrite_ok, Fallible.ok_bind]
    rfl
  · simpa [dlDataDeliveryStatusFields, List.append_assoc] using h

theorem unpackLostNruSnRangeList_reads {ranges : List NruLostNruSnRange} {rest : List Bool}
    (hfit : ∀ range ∈ ranges, range.nruSnStart.toNat < 2 ^ 24 ∧ range.nruSnEnd.toNat < 2 ^ 24) :
    ∀ {r : BitReader}, r.Reads (fieldBits (lostNruSnRangeFields ranges) ++ rest) →
      ∃ res r', unpackLostNruSnRangeList r ranges.length = .ok (res, r') ∧ res.val = ranges ∧
        r'.Reads rest := by
  induction ranges with
  | nil => exact fun h => ⟨⟨[], rfl⟩, _, rfl, rfl, by simpa [lostNruSnRangeFields] using h⟩
  | cons range ranges ih =>
    intro r h
    simp only [lostNruSnRangeFields, List.flatMap_cons, fieldBits_append, fieldBits_cons, fieldBits_nil,
      List.append_nil, List.append_assoc] at h
    obtain ⟨r₁, e₁, -, h₁⟩ := unpack_reads h (show 24 ≤ 32 by decide)
    obtain ⟨r₂, e₂, -, h₂⟩ := unpack_reads h₁ (show 24 ≤ 32 by decide)
    obtain ⟨res, r', e', hres, h'⟩ := ih (fun x hx => hfit x (List.mem_cons_of_mem _ hx)) h₂
    refine ⟨⟨range :: res.val, by simp [res.property]⟩, r', ?_, by simp [hres], h'⟩
    obtain ⟨hs, he⟩ := hfit range List.mem_cons_self
    have hstart : UInt32.ofNat (range.nruSnStart.toNat % 2 ^ 24) = range.nruSnStart := by
      rw [Nat.mod_eq_of_lt hs, UInt32.ofNat_toNat]
    have hend : UInt32.ofNat (range.nruSnEnd.toNat % 2 ^ 24) = range.nruSnEnd := by
      rw [Nat.mod_eq_of_lt he, UInt32.ofNat_toNat]
    simp only [List.length_cons, unpackLostNruSnRangeList, e₁, e₂, e', verifyRead_ok, Fallible.ok_bind,
      hstart, hend]
    rfl

theorem unpackLostNruSnRanges_reads {r : BitReader} {lostNruSnRanges : Option NruLostNruSnRanges}
    {rest : List Bool}
    (hfit : ∀ lost ∈ lostNruSnRanges, ∀ range ∈ lost.ranges,
      range.nruSnStart.toNat < 2 ^ 24 ∧ range.nruSnEnd.toNat < 2 ^ 24)
    (h : r.Reads (fieldBits (lostNruSnRangesFields lostNruSnRanges) ++ rest)) :
    ∃ r', unpackLostNruSnRanges r lostNruSnRanges.isSome = .ok (lostNruSnRanges, r') ∧ r'.Reads rest := by
  cases lostNruSnRanges with
  | none => exact ⟨r, rfl, by simpa [lostNruSnRangesFields] using h⟩
  | some lost =>
    rw [lostNruSnRangesFields, fieldBits_cons, List.append_assoc] at h
    obtain ⟨r₁, e₁, -, h₁⟩ := unpack_reads h (show 8 ≤ 8 by decide)
    obtain ⟨⟨res, hres'⟩, r', e', hres, h'⟩ := unpackLostNruSnRangeList_reads (hfit lost rfl) h₁
    have hcount : lost.ranges.length % 2 ^ 8 = lost.ranges.length := by
      have := lost.length_le
      unfold nruMaxNofLostNruSnRanges at this
      omega
    have hle : ¬ lost.ranges.length > nruMaxNofLostNruSnRanges := by
      have := lost.length_le
      omega
    rw [hcount] at e₁
    refine ⟨r', ?_, h'⟩
    simp only [unpackLostNruSnRanges, Option.isSome_some, if_true, e₁, verifyRead_ok, Fallible.ok_bind,
      dif_neg hle, e']
    obtain ⟨ranges, hlen⟩ := lost
    simp only at hres
    subst hres
    rfl

/-- Every sequence number of a DL data delivery status fits the 24 bits it
is sent in. -/
structure NruDlDataDeliveryStatus.SnFit (status : NruDlDataDeliveryStatus) : Prop where
  lostNruSnRanges_lt : ∀ lost ∈ status.lostNruSnRanges, ∀ range ∈ lost.ranges,
    range.nruSnStart.toNat < 2 ^ 24 ∧ range.nruSnEnd.toNat < 2 ^ 24
  highestDeliveredPdcpSn_lt : ∀ sn ∈ status.highestDeliveredPdcpSn, sn.toNat < 2 ^ 24
  highestTransmittedPdcpSn_lt : ∀ sn ∈ status.highestTransmittedPdcpSn, sn.toNat < 2 ^ 24
  highestDeliveredRetransmittedPdcpSn_lt : ∀ sn ∈ status.highestDeliveredRetransmittedPdcpSn, sn.toNat < 2 ^ 24
  highestRetransmittedPdcpSn_lt : ∀ sn ∈ status.highestRetransmittedPdcpSn, sn.toNat < 2 ^ 24

/-- A frame whose octets carry the row of `status`, whatever padding follows
it, reads back into `init` as `status`, the optional fields it does not
carry left as `init` has them. -/
theorem unpackDlDataDeliveryStatus_fields {frame : List UInt8} {m : Nat} (init : NruDlDataDeliveryStatus)
    {status : NruDlDataDeliveryStatus} (hfit : status.SnFit) (hne : frame ≠ [])
    (hlen : (frame.length + 2) % 4 = 0)
    (hbits : octetBits frame = fieldBits (dlDataDeliveryStatusFields status) ++ List.replicate m false) :
    unpackDlDataDeliveryStatus init frame =
      .ok { status with
            desiredDataRate := status.desiredDataRate.or init.desiredDataRate
            lostNruSnRanges := status.lostNruSnRanges.or init.lostNruSnRanges
            highestDeliveredPdcpSn := status.highestDeliveredPdcpSn.or init.highestDeliveredPdcpSn
            highestTransmittedPdcpSn := status.highestTransmittedPdcpSn.or init.highestTransmittedPdcpSn
            causeValue := status.causeValue.or init.causeValue
            highestDeliveredRetransmittedPdcpSn :=
              status.highestDeliveredRetransmittedPdcpSn.or init.highestDeliveredRetransmittedPdcpSn
            highestRetransmittedPdcpSn :=
              status.highestRetransmittedPdcpSn.or init.highestRetransmittedPdcpSn } := by
  have h₀ := BitReader.reads_ofBuffer frame
  rw [hbits] at h₀
  simp only [dlDataDeliveryStatusFields, fieldBits_append, fieldBits_cons, fieldBits_nil, List.append_nil,
    List.append_assoc] at h₀
  obtain ⟨r₁, e₁, -, h₁⟩ := unpack_reads h₀ (show 4 ≤ 8 by decide)
  obtain ⟨r₂, e₂, -, h₂⟩ := unpack_reads h₁ (show 1 ≤ 8 by decide)
  obtain ⟨r₃, e₃, -, h₃⟩ := unpack_reads h₂ (show 1 ≤ 8 by decide)
  obtain ⟨r₄, e₄, -, h₄⟩ := unpack_reads h₃ (show 1 ≤ 8 by decide)
  obtain ⟨r₅, e₅, -, h₅⟩ := unpack_reads h₄ (show 1 ≤ 8 by decide)
  obtain ⟨r₆, e₆, -, h₆⟩ := unpack_reads h₅ (show 4 ≤ 8 by decide)
  obtain ⟨r₇, e₇, -, h₇⟩ := unpack_reads h₆ (show 1 ≤ 8 by decide)
  obtain ⟨r₈, e₈, -, h₈⟩ := unpack_reads h₇ (show 1 ≤ 8 by decide)
  obtain ⟨r₉, e₉, -, h₉⟩ := unpack_reads h₈ (show 1 ≤ 8 by decide)
  obtain ⟨r₁₀, e₁₀, -, h₁₀⟩ := unpack_reads h₉ (show 1 ≤ 8 by decide)
  obtain ⟨r₁₁, e₁₁, -, h₁₁⟩ := unpack_reads h₁₀ (show 32 ≤ 32 by decide)
  obtain ⟨r₁₂, e₁₂, h₁₂⟩ := unpackIfPresent_reads h₁₁ (show 32 ≤ 32 by decide)
  obtain ⟨r₁₃, e₁₃, h₁₃⟩ := unpackLostNruSnRanges_reads hfit.lostNruSnRanges_lt h₁₂
  obtain ⟨r₁₄, e₁₄, h₁₄⟩ := unpackIfPresent_reads h₁₃ (show 24 ≤ 32 by decide)
  obtain ⟨r₁₅, e₁₅, h₁₅⟩ := unpackIfPresent_reads h₁₄ (show 24 ≤ 32 by decide)
  obtain ⟨r₁₆, e₁₆, h₁₆⟩ := unpackIfPresent_reads h₁₅ (show 8 ≤ 32 by decide)
  obtain ⟨r₁₇, e₁₇, h₁₇⟩ := unpackIfPresent_reads h₁₆ (show 24 ≤ 32 by decide)
  obtain ⟨r₁₈, e₁₈, -⟩ := unpackIfPresent_reads h₁₇ (show 24 ≤ 32 by decide)
  simp only [Option.isSome_map] at e₁₂ e₁₄ e₁₅ e₁₆ e₁₇ e₁₈
  have hempty : frame.isEmpty = false := List.isEmpty_eq_false_iff.mpr hne
  have htype : UInt8.ofNat (NruPduType.dlDataDeliveryStatus.toNat % 2 ^ 4) = NruPduType.dlDataDeliveryStatus :=
    rfl
  simp only [unpackDlDataDeliveryStatus, hempty, hlen, e₁, e₂, e₃, e₄, e₅, e₆, e₇, e₈, e₉, e₁₀, e₁₁, e₁₂,
    e₁₃, e₁₄, e₁₅, e₁₆, e₁₇, e₁₈, verifyRead_ok, Fallible.ok_bind, toNat_mod_ne_zero, htype, Nat.zero_mod,
    ne_eq, not_true_eq_false, if_false, Bool.false_eq_true]
  -- every field reads back whole: the 32-bit ones and the cause value always, the SNs as they fit
  have hbuffer : UInt32.ofNat (status.desiredBufferSizeForDrb.toNat % 2 ^ 32) = status.desiredBufferSizeForDrb := by
    rw [Nat.mod_eq_of_lt status.desiredBufferSizeForDrb.toNat_lt, UInt32.ofNat_toNat]
  have hcause : Option.map UInt8.ofNat (Option.map (fun v => v.toNat % 2 ^ 8)
      (Option.map (fun c => c.toUInt64) status.causeValue)) = status.causeValue := by
    cases status.causeValue with
    | none => rfl
    | some c => simp only [Option.map_some, UInt8.toNat_toUInt64, Nat.mod_eq_of_lt c.toNat_lt, UInt8.ofNat_toNat]
  rw [hbuffer, map_ofNat_mod (fun sn _ => sn.toNat_lt), map_ofNat_mod hfit.highestDeliveredPdcpSn_lt,
    map_ofNat_mod hfit.highestTransmittedPdcpSn_lt, hcause,
    map_ofNat_mod hfit.highestDeliveredRetransmittedPdcpSn_lt, map_ofNat_mod hfit.highestRetransmittedPdcpSn_lt]
  rfl

/-- DL data delivery status round trip: `pack` appends a frame of
`n * 4 - 2` octets, and `unpack` reads it back into a default structure as
the status itself. -/
theorem packDlDataDeliveryStatus_unpack (outBuf : List UInt8) {status : NruDlDataDeliveryStatus}
    (hfit : status.SnFit) :
    ∃ frame, packDlDataDeliveryStatus outBuf status = .ok (outBuf ++ frame) ∧ frame.length % 4 = 2 ∧
      unpackDlDataDeliveryStatus {} frame = .ok status := by
  obtain ⟨w, hpack, hw⟩ := packDlDataDeliveryStatus_holds outBuf status
  obtain ⟨frame, m, hpad, hlen, hbits⟩ := padLoop_frame hw
  refine ⟨frame, by rw [hpack, hpad], by omega, ?_⟩
  rw [unpackDlDataDeliveryStatus_fields {} hfit (frame_ne_nil hlen) hlen hbits]
  simp only [Option.or_none]

/-! ## The codec -/

/-- Both NR-U frames round-trip: for every message whose sequence numbers
fit their 24 bits, `pack` appends a frame of `n * 4 - 2` octets and
`unpack` of that frame returns the message field by field, with the same
optional fields present; of DL user data an empty list of discard blocks is
sent as none. -/
theorem nruPacking_roundTrip :
    (∀ (outBuf : List UInt8) (dlUserData : NruDlUserData), dlUserData.SnFit →
      ∃ frame, packDlUserData outBuf dlUserData = .ok (outBuf ++ frame) ∧ frame.length % 4 = 2 ∧
        unpackDlUserData {} frame =
          .ok { dlUserData with
                discardBlocks := if dlUserData.dlDiscardBlocks then dlUserData.discardBlocks else none }) ∧
    (∀ (outBuf : List UInt8) (status : NruDlDataDeliveryStatus), status.SnFit →
      ∃ frame, packDlDataDeliveryStatus outBuf status = .ok (outBuf ++ frame) ∧ frame.length % 4 = 2 ∧
        unpackDlDataDeliveryStatus {} frame = .ok status) :=
  ⟨fun outBuf _ hfit => packDlUserData_unpack outBuf hfit,
    fun outBuf _ hfit => packDlDataDeliveryStatus_unpack outBuf hfit⟩

/-- DL user data with a discard SN and one discard block, and a status with
a lost range, a cause and a highest retransmitted SN. -/
theorem nruPacking_roundTrip_discardAndLostRange :
    (∃ frame, packDlUserData []
        { reportPolling := true
          nruSn := 0x123456
          dlDiscardPdcpSn := some 7
          discardBlocks := some ⟨[⟨5, 3⟩], by decide⟩ } = .ok ([] ++ frame) ∧ frame.length % 4 = 2 ∧
      unpackDlUserData {} frame =
        .ok { reportPolling := true
              nruSn := 0x123456
              dlDiscardPdcpSn := some 7
              discardBlocks := some ⟨[⟨5, 3⟩], by decide⟩ }) ∧
    (∃ frame, packDlDataDeliveryStatus []
        { finalFrameInd := true
          desiredBufferSizeForDrb := 1000
          lostNruSnRanges := some ⟨[⟨1, 2⟩], by decide⟩
          causeValue := some 9
          highestRetransmittedPdcpSn := some 3 } = .ok ([] ++ frame) ∧ frame.length % 4 = 2 ∧
      unpackDlDataDeliveryStatus {} frame =
        .ok { finalFrameInd := true
              desiredBufferSizeForDrb := 1000
              lostNruSnRanges := some ⟨[⟨1, 2⟩], by decide⟩
              causeValue := some 9
              highestRetransmittedPdcpSn := some 3 }) :=
  ⟨nruPacking_roundTrip.1 [] _ ⟨by decide, by simp, by simp [NruDlUserData.discardBlockList]⟩,
    nruPacking_roundTrip.2 [] _ ⟨by simp, by simp, by simp, by simp, by simp⟩⟩

end SrsRan.Nru
