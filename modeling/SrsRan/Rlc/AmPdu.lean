import SrsRan.Rlc.Config
import SrsRan.Lib.Octet

/-!
AM PDUs (`rlc_am_pdu.h`, `rlc_am_pdu.cpp`): the data PDU header with its
reader and writer, and the status PDU container with its NACK list, the
merging `push_nack` and the `trim` used when a grant is too small.

Octets are `UInt8`, the segment offsets and the NACK range keep their
`uint16_t` and `uint8_t` types, and SNs (`uint32_t`, never above 18 bits)
are `Nat`.
-/

namespace SrsRan.Rlc

/-! ## Data PDU header -/

/-- `rlc_am_pdu_header`. -/
structure RlcAmPduHeader where
  dc : RlcDcField
  p : UInt8
  si : RlcSiField
  snSize : RlcAmSnSize
  sn : Nat
  so : UInt16
  deriving DecidableEq, Repr

def rlcAmPduHeaderSoSize : Nat := 2

def rlcAmPduHeaderMinSize : RlcAmSnSize → Nat
  | .size12bits => 2
  | .size18bits => 3

def rlcAmPduHeaderMaxSize (snSize : RlcAmSnSize) : Nat :=
  rlcAmPduHeaderMinSize snSize + rlcAmPduHeaderSoSize

/-- Middle and last segments carry the two SO octets. -/
def RlcSiField.hasSo (si : RlcSiField) : Bool :=
  si == .lastSegment || si == .middleSegment

def RlcAmPduHeader.getPackedSize (h : RlcAmPduHeader) : Nat :=
  if h.si.hasSo then rlcAmPduHeaderMaxSize h.snSize else rlcAmPduHeaderMinSize h.snSize

/-- The optional SO part of `rlc_am_read_data_pdu_header`: the header keeps
`so = 0` from its zero initialisation unless the SI announces an SO. -/
def readSo (si : RlcSiField) (rd : List UInt8) : Option UInt16 :=
  if si.hasSo then
    match rd with
    | s0 :: s1 :: _ => some ((s0.toUInt16 <<< 8) ||| s1.toUInt16)
    | _ => none
  else some 0

/-- `rlc_am_read_data_pdu_header`; `none` is the `false` return. -/
def rlcAmReadDataPduHeader (pdu : List UInt8) (snSize : RlcAmSnSize) :
    Option RlcAmPduHeader :=
  if pdu.length ≤ rlcAmPduHeaderMinSize snSize then none else
  match snSize, pdu with
  | .size12bits, b0 :: b1 :: rest =>
    let si := RlcSiField.ofNumber ((b0.toNat >>> 4) &&& 0x03)
    (readSo si rest).map fun so =>
      { dc := if (b0.toNat >>> 7) &&& 0x01 = 0 then .control else .data
        p := UInt8.ofNat ((b0.toNat >>> 6) &&& 0x01), si, snSize
        sn := ((b0.toNat &&& 0x0f) <<< 8) ||| (b1.toNat &&& 0xff), so }
  | .size18bits, b0 :: b1 :: b2 :: rest =>
    -- the two reserved bits between SI and SN must be clear
    if b0.toNat &&& 0x0c ≠ 0 then none else
    let si := RlcSiField.ofNumber ((b0.toNat >>> 4) &&& 0x03)
    (readSo si rest).map fun so =>
      { dc := if (b0.toNat >>> 7) &&& 0x01 = 0 then .control else .data
        p := UInt8.ofNat ((b0.toNat >>> 6) &&& 0x01), si, snSize
        sn := ((b0.toNat &&& 0x03) <<< 16) ||| ((b1.toNat &&& 0xff) <<< 8) ||| (b2.toNat &&& 0xff)
        so }
  | _, _ => none

/-- `rlc_am_write_data_pdu_header`: the octets written. The SO is written
whenever it is non-zero, whatever the SI. -/
def rlcAmWriteDataPduHeader (h : RlcAmPduHeader) : List UInt8 :=
  let fixed := ((h.dc.toNumber &&& 0x01) <<< 7) ||| ((h.p.toNat &&& 0x01) <<< 6) |||
    ((h.si.toNumber &&& 0x03) <<< 4)
  let snPart : List UInt8 :=
    match h.snSize with
    | .size12bits => [UInt8.ofNat (fixed ||| ((h.sn >>> 8) &&& 0x0f)), UInt8.ofNat (h.sn &&& 0xff)]
    | .size18bits =>
      [UInt8.ofNat (fixed ||| ((h.sn >>> 16) &&& 0x3)), UInt8.ofNat (h.sn >>> 8),
        UInt8.ofNat (h.sn &&& 0xff)]
  snPart ++ (if h.so ≠ 0 then [(h.so >>> 8).toUInt8, (h.so &&& 0xff).toUInt8] else [])

/-- The SN read from a header fits its field. -/
theorem rlcAmReadDataPduHeader_sn_lt {pdu : List UInt8} {snSize : RlcAmSnSize}
    {h : RlcAmPduHeader} (hh : rlcAmReadDataPduHeader pdu snSize = some h) :
    h.sn < cardinality snSize.toNumber := by
  unfold rlcAmReadDataPduHeader at hh
  split_ifs at hh
  split at hh
  · obtain ⟨so, -, rfl⟩ := Option.map_eq_some_iff.mp hh
    simp only [Octet.and_0x0f, Octet.and_0xff, Nat.shiftLeft_eq]
    apply Nat.or_lt_two_pow (n := 12) <;> omega
  · split at hh
    · cases hh
    · obtain ⟨so, -, rfl⟩ := Option.map_eq_some_iff.mp hh
      simp only [Octet.and_0x03, Octet.and_0xff, Nat.shiftLeft_eq]
      apply Nat.or_lt_two_pow (n := 18)
      · apply Nat.or_lt_two_pow <;> omega
      · omega
  · cases hh

/-! ## Status PDU container -/

/-- `rlc_am_status_nack::so_end_of_sdu`. -/
def soEndOfSdu : UInt16 := 0xffff

/-- `INVALID_RLC_SN`. -/
def invalidRlcSn : Nat := 0xffffffff

def rlcAmNrStatusPduSizeofHeaderAckSn : Nat := 3
def rlcAmNrStatusPduSizeofNackSnExt12bitSn : Nat := 2
def rlcAmNrStatusPduSizeofNackSnExt18bitSn : Nat := 3
def rlcAmNrStatusPduSizeofNackSo : Nat := 4
def rlcAmNrStatusPduSizeofNackRange : Nat := 1

/-- `rlc_am_status_nack`. -/
structure RlcAmStatusNack where
  nackSn : Nat
  hasSo : Bool
  soStart : UInt16
  soEnd : UInt16
  hasNackRange : Bool
  nackRange : UInt8
  deriving DecidableEq, Repr

/-- The default constructor `rlc_am_status_nack()`. -/
def RlcAmStatusNack.init : RlcAmStatusNack :=
  { nackSn := 0, hasSo := false, soStart := 0, soEnd := soEndOfSdu, hasNackRange := false,
    nackRange := 0 }

/-- `rlc_am_status_pdu`; `mod_nr` is always `cardinality sn_size`. -/
structure RlcAmStatusPdu where
  snSize : RlcAmSnSize
  nacks : List RlcAmStatusNack
  packedSize : Nat
  cpt : Nat
  ackSn : Nat
  deriving DecidableEq, Repr

namespace RlcAmStatusPdu

/-- The constructor `rlc_am_status_pdu(sn_size)`. -/
def init (snSize : RlcAmSnSize) : RlcAmStatusPdu :=
  { snSize, nacks := [], packedSize := rlcAmNrStatusPduSizeofHeaderAckSn, cpt := 0,
    ackSn := invalidRlcSn }

def modNr (s : RlcAmStatusPdu) : Nat := cardinality s.snSize.toNumber

def reset (s : RlcAmStatusPdu) : RlcAmStatusPdu :=
  { s with cpt := 0, ackSn := invalidRlcSn, nacks := [],
           packedSize := rlcAmNrStatusPduSizeofHeaderAckSn }

@[simp] theorem snSize_reset (s : RlcAmStatusPdu) : s.reset.snSize = s.snSize := rfl
@[simp] theorem nacks_reset (s : RlcAmStatusPdu) : s.reset.nacks = [] := rfl
@[simp] theorem packedSize_reset (s : RlcAmStatusPdu) :
    s.reset.packedSize = rlcAmNrStatusPduSizeofHeaderAckSn := rfl
@[simp] theorem cpt_reset (s : RlcAmStatusPdu) : s.reset.cpt = 0 := rfl

def nackSize (s : RlcAmStatusPdu) (nack : RlcAmStatusNack) : Nat :=
  (if s.snSize = .size12bits then rlcAmNrStatusPduSizeofNackSnExt12bitSn
   else rlcAmNrStatusPduSizeofNackSnExt18bitSn) +
  (if nack.hasSo then rlcAmNrStatusPduSizeofNackSo else 0) +
  (if nack.hasNackRange then rlcAmNrStatusPduSizeofNackRange else 0)

/-- The number of SNs a NACK covers, as `can_be_merged` counts it. -/
def rangeOf (nack : RlcAmStatusNack) : Nat :=
  if nack.hasNackRange then nack.nackRange.toNat else 1

def canBeMerged (s : RlcAmStatusPdu) (left right : RlcAmStatusNack) : Bool :=
  -- SN must be continuous
  if right.nackSn ≠ (if left.hasNackRange then left.nackSn + left.nackRange.toNat
      else left.nackSn + 1) % s.modNr then false
  -- segments on the left must reach the end of the SDU
  else if left.hasSo ∧ left.soEnd ≠ soEndOfSdu then false
  -- segments on the right must start at the beginning
  else if right.hasSo ∧ right.soStart ≠ 0 then false
  else rangeOf left + rangeOf right ≤ 255

/-- The expansion of the previous NACK in `push_nack`. -/
def mergeNack (prev nack : RlcAmStatusNack) : RlcAmStatusNack :=
  let prev :=
    if nack.hasNackRange then
      if prev.hasNackRange then { prev with nackRange := prev.nackRange + nack.nackRange }
      else { prev with nackRange := nack.nackRange + 1, hasNackRange := true }
    else
      if prev.hasNackRange then { prev with nackRange := prev.nackRange + 1 }
      else { prev with nackRange := 2, hasNackRange := true }
  if nack.hasSo then
    let prev := if !prev.hasSo then { prev with hasSo := true, soStart := 0 } else prev
    { prev with soEnd := nack.soEnd }
  else if prev.hasSo then { prev with soEnd := soEndOfSdu } else prev

def pushNack (s : RlcAmStatusPdu) (nack : RlcAmStatusNack) : RlcAmStatusPdu :=
  match s.nacks.getLast? with
  | some prev =>
    if s.canBeMerged prev nack then
      let prev' := mergeNack prev nack
      { s with nacks := s.nacks.dropLast ++ [prev'],
               packedSize := s.packedSize - s.nackSize prev + s.nackSize prev' }
    else { s with nacks := s.nacks ++ [nack], packedSize := s.packedSize + s.nackSize nack }
  | none => { s with nacks := s.nacks ++ [nack], packedSize := s.packedSize + s.nackSize nack }

/-- The NACK-removal loop of `trim`, one NACK from the back per round; the
fuel is the number of NACKs left, so it never cuts the loop short. -/
def trimNacks (maxPackedSize : Nat) : Nat → RlcAmStatusPdu → RlcAmStatusPdu
  | 0, s => s
  | fuel + 1, s =>
    match s.nacks.getLast? with
    | some last =>
      if maxPackedSize < s.packedSize ∨ last.nackSn = s.ackSn then
        trimNacks maxPackedSize fuel
          { s with packedSize := s.packedSize - s.nackSize last, ackSn := last.nackSn,
                   nacks := s.nacks.dropLast }
      else s
    | none => s

def trim (s : RlcAmStatusPdu) (maxPackedSize : Nat) : Bool × RlcAmStatusPdu :=
  if maxPackedSize ≥ s.packedSize then (true, s)
  else if maxPackedSize < rlcAmNrStatusPduSizeofHeaderAckSn then (false, s)
  else (true, trimNacks maxPackedSize s.nacks.length s)

/-- `push_nack` called on each NACK of a list in turn. -/
def pushNacks (s : RlcAmStatusPdu) (nacks : List RlcAmStatusNack) : RlcAmStatusPdu :=
  nacks.foldl pushNack s

/-! ## What `push_nack` keeps

`push_nack` either appends the NACK or widens the last one. The object it
leaves has the packed size of its NACK list, and no NACK of that list could
be merged into the one before it: the merged NACK is what a later NACK is
compared with, and widening a NACK never makes it mergeable with its left
neighbour. -/

theorem nackSize_congr {s t : RlcAmStatusPdu} (h : s.snSize = t.snSize) :
    s.nackSize = t.nackSize := by
  funext nack
  simp [nackSize, h]

theorem canBeMerged_congr {s t : RlcAmStatusPdu} (h : s.snSize = t.snSize) :
    s.canBeMerged = t.canBeMerged := by
  funext left right
  simp [canBeMerged, modNr, h]

theorem canBeMerged_eq_true {s : RlcAmStatusPdu} {left right : RlcAmStatusNack} :
    s.canBeMerged left right = true ↔
      right.nackSn = (if left.hasNackRange then left.nackSn + left.nackRange.toNat
        else left.nackSn + 1) % s.modNr ∧
      ¬(left.hasSo = true ∧ left.soEnd ≠ soEndOfSdu) ∧ ¬(right.hasSo = true ∧ right.soStart ≠ 0) ∧
      rangeOf left + rangeOf right ≤ 255 := by
  unfold canBeMerged
  split_ifs <;> simp_all

@[simp] theorem nackSn_mergeNack (prev nack : RlcAmStatusNack) :
    (mergeNack prev nack).nackSn = prev.nackSn := by
  simp only [mergeNack]
  split_ifs <;> simp_all

@[simp] theorem hasSo_mergeNack (prev nack : RlcAmStatusNack) :
    (mergeNack prev nack).hasSo = (prev.hasSo || nack.hasSo) := by
  simp only [mergeNack]
  split_ifs <;> simp_all

theorem soStart_mergeNack_eq (prev nack : RlcAmStatusNack) :
    (mergeNack prev nack).soStart = if !prev.hasSo && nack.hasSo then 0 else prev.soStart := by
  simp only [mergeNack]
  split_ifs <;> simp_all

@[simp] theorem hasNackRange_mergeNack (prev nack : RlcAmStatusNack) :
    (mergeNack prev nack).hasNackRange = true := by
  simp only [mergeNack]
  split_ifs <;> simp_all

theorem nackRange_mergeNack (prev nack : RlcAmStatusNack) :
    (mergeNack prev nack).nackRange =
      if nack.hasNackRange then
        (if prev.hasNackRange then prev.nackRange + nack.nackRange else nack.nackRange + 1)
      else (if prev.hasNackRange then prev.nackRange + 1 else 2) := by
  simp only [mergeNack]
  split_ifs <;> simp_all

/-- A merged NACK starts inside its SDU exactly when the previous one did:
the merge only ever adds an SO starting at 0. -/
theorem soStart_mergeNack (prev nack : RlcAmStatusNack) :
    ((mergeNack prev nack).hasSo = true ∧ (mergeNack prev nack).soStart ≠ 0) ↔
      (prev.hasSo = true ∧ prev.soStart ≠ 0) := by
  rw [hasSo_mergeNack, soStart_mergeNack_eq]
  cases prev.hasSo <;> cases nack.hasSo <;> simp

/-- Without `uint8_t` overflow, merging adds the NACK ranges. -/
theorem rangeOf_mergeNack {prev nack : RlcAmStatusNack} (h : rangeOf prev + rangeOf nack ≤ 255) :
    rangeOf (mergeNack prev nack) = rangeOf prev + rangeOf nack := by
  unfold rangeOf at h ⊢
  rw [hasNackRange_mergeNack, if_pos rfl, nackRange_mergeNack]
  split_ifs at h ⊢ <;> simp [UInt8.toNat_add] <;> omega

/-- Widening the right NACK of a pair that cannot be merged leaves a pair
that cannot be merged. -/
theorem canBeMerged_mergeNack {s : RlcAmStatusPdu} {left right nack : RlcAmStatusNack}
    (hlr : s.canBeMerged left right = false) (hrn : s.canBeMerged right nack = true) :
    s.canBeMerged left (mergeNack right nack) = false := by
  have hrange := rangeOf_mergeNack (canBeMerged_eq_true.mp hrn).2.2.2
  rw [← Bool.not_eq_true, canBeMerged_eq_true] at hlr ⊢
  rw [nackSn_mergeNack, soStart_mergeNack, hrange]
  -- only the range test changes, and it gets harder to pass
  rintro ⟨hsn, hend, hstart, hsum⟩
  exact hlr ⟨hsn, hend, hstart, by omega⟩

@[simp] theorem snSize_pushNack (s : RlcAmStatusPdu) (nack : RlcAmStatusNack) :
    (s.pushNack nack).snSize = s.snSize := by
  unfold pushNack
  split <;> (try split) <;> rfl

@[simp] theorem ackSn_pushNack (s : RlcAmStatusPdu) (nack : RlcAmStatusNack) :
    (s.pushNack nack).ackSn = s.ackSn := by
  unfold pushNack
  split <;> (try split) <;> rfl

@[simp] theorem cpt_pushNack (s : RlcAmStatusPdu) (nack : RlcAmStatusNack) :
    (s.pushNack nack).cpt = s.cpt := by
  unfold pushNack
  split <;> (try split) <;> rfl

/-- `push_nack` appends a NACK that cannot be merged into the last one. -/
theorem pushNack_of_not_canBeMerged {s : RlcAmStatusPdu} {nack : RlcAmStatusNack}
    (h : ∀ prev ∈ s.nacks.getLast?, s.canBeMerged prev nack = false) :
    s.pushNack nack =
      { s with nacks := s.nacks ++ [nack], packedSize := s.packedSize + s.nackSize nack } := by
  unfold pushNack
  split
  · rename_i prev hlast
    rw [if_neg (by simp [h prev hlast])]
  · rfl

theorem pushNack_of_canBeMerged {s : RlcAmStatusPdu} {prev nack : RlcAmStatusNack}
    (hlast : s.nacks.getLast? = some prev) (h : s.canBeMerged prev nack = true) :
    s.pushNack nack =
      { s with nacks := s.nacks.dropLast ++ [mergeNack prev nack],
               packedSize := s.packedSize - s.nackSize prev + s.nackSize (mergeNack prev nack) } := by
  simp [pushNack, hlast, h]

/-- What `reset` sets up and every `push_nack` keeps: `packed_size` is the
header plus the sizes of the NACKs, and no NACK can be merged into the one
before it. -/
structure Canonical (s : RlcAmStatusPdu) : Prop where
  packedSize_eq : s.packedSize = rlcAmNrStatusPduSizeofHeaderAckSn + (s.nacks.map s.nackSize).sum
  unmergeable : s.nacks.IsChain fun left right => s.canBeMerged left right = false

theorem Canonical.pushNack {s : RlcAmStatusPdu} (hs : s.Canonical) (nack : RlcAmStatusNack) :
    (s.pushNack nack).Canonical := by
  have hsize : ∀ l p, ({ s with nacks := l, packedSize := p } : RlcAmStatusPdu).nackSize =
      s.nackSize := fun _ _ => nackSize_congr rfl
  have hmerge : ∀ l p, ({ s with nacks := l, packedSize := p } : RlcAmStatusPdu).canBeMerged =
      s.canBeMerged := fun _ _ => canBeMerged_congr rfl
  have hsum := hs.packedSize_eq
  cases hlast : s.nacks.getLast? with
  | none =>
    have hnil : s.nacks = [] := List.getLast?_eq_none_iff.mp hlast
    rw [pushNack_of_not_canBeMerged (by simp [hlast])]
    constructor
    · simp [hsize, hsum, hnil]
    · simp [hnil]
  | some prev =>
    obtain ⟨front, hfront⟩ := List.getLast?_eq_some_iff.mp hlast
    have hchain := hs.unmergeable
    rw [hfront, List.isChain_append] at hchain
    obtain ⟨hfront_chain, -, hfront_prev⟩ := hchain
    by_cases hm : s.canBeMerged prev nack = true
    · -- the last NACK is widened in place
      rw [pushNack_of_canBeMerged hlast hm]
      constructor
      · simp only [hsize, hfront, List.dropLast_concat, List.map_append, List.sum_append] at hsum ⊢
        simp at hsum ⊢
        omega
      · rw [hmerge, hfront, List.dropLast_concat]
        refine List.IsChain.append hfront_chain (List.isChain_singleton _) ?_
        intro left hleft m hm'
        simp only [List.head?_cons, Option.mem_def, Option.some.injEq] at hm'
        subst hm'
        exact canBeMerged_mergeNack (hfront_prev left hleft prev rfl) hm
    · -- the NACK is appended
      rw [pushNack_of_not_canBeMerged (by simpa [hlast] using hm)]
      constructor
      · simp [hsize, hsum]
        omega
      · rw [hmerge]
        refine List.IsChain.append hs.unmergeable (List.isChain_singleton _) ?_
        intro left hleft m hm'
        simp only [hlast, List.head?_cons, Option.mem_def, Option.some.injEq] at hleft hm'
        subst hleft hm'
        simpa using hm

@[simp] theorem pushNacks_nil (s : RlcAmStatusPdu) : s.pushNacks [] = s := rfl

@[simp] theorem pushNacks_cons (s : RlcAmStatusPdu) (nack : RlcAmStatusNack)
    (nacks : List RlcAmStatusNack) : s.pushNacks (nack :: nacks) = (s.pushNack nack).pushNacks nacks :=
  rfl

@[simp] theorem snSize_pushNacks (s : RlcAmStatusPdu) (nacks : List RlcAmStatusNack) :
    (s.pushNacks nacks).snSize = s.snSize := by
  induction nacks generalizing s with
  | nil => rfl
  | cons nack nacks ih => simp [ih]

@[simp] theorem ackSn_pushNacks (s : RlcAmStatusPdu) (nacks : List RlcAmStatusNack) :
    (s.pushNacks nacks).ackSn = s.ackSn := by
  induction nacks generalizing s with
  | nil => rfl
  | cons nack nacks ih => simp [ih]

@[simp] theorem cpt_pushNacks (s : RlcAmStatusPdu) (nacks : List RlcAmStatusNack) :
    (s.pushNacks nacks).cpt = s.cpt := by
  induction nacks generalizing s with
  | nil => rfl
  | cons nack nacks ih => simp [ih]

theorem Canonical.pushNacks {s : RlcAmStatusPdu} (hs : s.Canonical) (nacks : List RlcAmStatusNack) :
    (s.pushNacks nacks).Canonical := by
  induction nacks generalizing s with
  | nil => exact hs
  | cons nack nacks ih => exact ih (hs.pushNack nack)

/-- Every SN in the list after `push_nack` is the SN of a NACK that was
there or of the one pushed: merging keeps the SN of the NACK it widens. -/
theorem nackSn_mem_pushNack {s : RlcAmStatusPdu} {nack m : RlcAmStatusNack}
    (hm : m ∈ (s.pushNack nack).nacks) :
    (∃ prev ∈ s.nacks, m.nackSn = prev.nackSn) ∨ m.nackSn = nack.nackSn := by
  unfold pushNack at hm
  split at hm
  · rename_i prev hlast
    have hprev : prev ∈ s.nacks := List.mem_of_getLast? hlast
    split at hm
    · simp only [List.mem_append, List.mem_singleton] at hm
      rcases hm with hm | rfl
      · exact .inl ⟨m, List.dropLast_subset _ hm, rfl⟩
      · exact .inl ⟨prev, hprev, nackSn_mergeNack prev nack⟩
    · simp only [List.mem_append, List.mem_singleton] at hm
      rcases hm with hm | rfl
      · exact .inl ⟨m, hm, rfl⟩
      · exact .inr rfl
  · simp only [List.mem_append, List.mem_singleton] at hm
    rcases hm with hm | rfl
    · exact .inl ⟨m, hm, rfl⟩
    · exact .inr rfl

/-- A bound on the SNs of the NACKs pushed holds of the SNs of the list. -/
theorem nackSn_lt_pushNacks {s : RlcAmStatusPdu} {nacks : List RlcAmStatusNack} {bound : Nat}
    (hs : ∀ m ∈ s.nacks, m.nackSn < bound) (hnacks : ∀ m ∈ nacks, m.nackSn < bound) :
    ∀ m ∈ (s.pushNacks nacks).nacks, m.nackSn < bound := by
  induction nacks generalizing s with
  | nil => exact hs
  | cons nack nacks ih =>
    apply ih _ (fun m hm => hnacks m (List.mem_cons_of_mem _ hm))
    intro m hm
    rcases nackSn_mem_pushNack hm with ⟨prev, hprev, heq⟩ | heq
    · rw [heq]
      exact hs prev hprev
    · rw [heq]
      exact hnacks nack List.mem_cons_self

/-- On a list in which no NACK can be merged into the one before it,
`push_nack` only appends. -/
theorem pushNacks_of_isChain {s : RlcAmStatusPdu} {nacks : List RlcAmStatusNack}
    (h : (s.nacks ++ nacks).IsChain fun left right => s.canBeMerged left right = false) :
    s.pushNacks nacks =
      { s with nacks := s.nacks ++ nacks,
               packedSize := s.packedSize + (nacks.map s.nackSize).sum } := by
  induction nacks generalizing s with
  | nil => simp
  | cons nack nacks ih =>
    have hlast : ∀ prev ∈ s.nacks.getLast?, s.canBeMerged prev nack = false := by
      intro prev hprev
      exact (List.isChain_append.mp h).2.2 prev hprev nack rfl
    have hsize : ({ s with nacks := s.nacks ++ [nack], packedSize := s.packedSize + s.nackSize nack } :
        RlcAmStatusPdu).nackSize = s.nackSize := nackSize_congr rfl
    have hmerge : ({ s with nacks := s.nacks ++ [nack], packedSize := s.packedSize + s.nackSize nack } :
        RlcAmStatusPdu).canBeMerged = s.canBeMerged := canBeMerged_congr rfl
    rw [pushNacks_cons, pushNack_of_not_canBeMerged hlast, ih]
    · simp only [List.append_assoc, List.singleton_append, List.map_cons, List.sum_cons, hsize]
      congr 1
      omega
    · simpa [hmerge] using h

end RlcAmStatusPdu

end SrsRan.Rlc
