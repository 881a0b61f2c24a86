import SrsRan.Rlc.AmPdu
import SrsRan.Lib.Octet

/-!
The status PDU codec (`rlc_am_status_pdu::pack` and `unpack`, TS 38.322
6.2.2.5) for both SN sizes. `pack` returns the octets it writes; `unpack`
returns the success flag and the object it leaves behind, which on a late
failure has already been reset and partly filled, as in the source.
-/

namespace SrsRan.Rlc
namespace RlcAmStatusPdu

/-! ## Pack -/

/-- The two SO octet pairs and the range octet that follow a NACK SN. -/
def packNackTail (nack : RlcAmStatusNack) : List UInt8 :=
  (if nack.hasSo then
    [(nack.soStart >>> 8).toUInt8, nack.soStart.toUInt8, (nack.soEnd >>> 8).toUInt8,
      nack.soEnd.toUInt8]
   else []) ++
  (if nack.hasNackRange then [nack.nackRange] else [])

/-- One NACK of `pack_12bit`; `e1` says that another NACK follows. -/
def packNack12 (nack : RlcAmStatusNack) (e1 : Bool) : List UInt8 :=
  let b1 := UInt8.ofNat ((nack.nackSn &&& 0x0f) <<< 4)
  let b1 := if e1 then b1 ||| 0x08 else b1
  let b1 := if nack.hasSo then b1 ||| 0x04 else b1
  let b1 := if nack.hasNackRange then b1 ||| 0x02 else b1
  [UInt8.ofNat ((nack.nackSn >>> 4) &&& 0xff), b1] ++ packNackTail nack

/-- One NACK of `pack_18bit`. -/
def packNack18 (nack : RlcAmStatusNack) (e1 : Bool) : List UInt8 :=
  let b2 := UInt8.ofNat ((nack.nackSn <<< 6) &&& 0xc0)
  let b2 := if e1 then b2 ||| 0x20 else b2
  let b2 := if nack.hasSo then b2 ||| 0x10 else b2
  let b2 := if nack.hasNackRange then b2 ||| 0x08 else b2
  [UInt8.ofNat ((nack.nackSn >>> 10) &&& 0xff), UInt8.ofNat ((nack.nackSn >>> 2) &&& 0xff), b2] ++
    packNackTail nack

/-- The NACK loop of `pack_12bit` / `pack_18bit`: E1 is set on all NACKs
but the last. -/
def packNacks (packOne : RlcAmStatusNack → Bool → List UInt8) : List RlcAmStatusNack → List UInt8
  | [] => []
  | nack :: rest => packOne nack (!rest.isEmpty) ++ packNacks packOne rest

def pack12 (s : RlcAmStatusPdu) : List UInt8 :=
  -- D/C and CPT are all zero
  [UInt8.ofNat ((s.ackSn >>> 8) &&& 0x0f), UInt8.ofNat (s.ackSn &&& 0xff),
    if !s.nacks.isEmpty then 0x80 else 0x00] ++ packNacks packNack12 s.nacks

def pack18 (s : RlcAmStatusPdu) : List UInt8 :=
  let b2 := UInt8.ofNat ((s.ackSn <<< 2) &&& 0xfc)
  [UInt8.ofNat ((s.ackSn >>> 14) &&& 0x0f), UInt8.ofNat ((s.ackSn >>> 6) &&& 0xff),
    if !s.nacks.isEmpty then b2 ||| 0x02 else b2] ++ packNacks packNack18 s.nacks

def pack (s : RlcAmStatusPdu) : List UInt8 :=
  match s.snSize with
  | .size12bits => s.pack12
  | .size18bits => s.pack18

/-! ## Unpack -/

/-- `is_control_pdu`: the D/C bit of the first octet is clear. The source
dereferences the first octet; every caller has checked it exists. -/
def isControlPdu : List UInt8 → Bool
  | b :: _ => (b.toNat >>> 7) &&& 0x01 = 0
  | [] => false

/-- The optional SO and range parts of a NACK, after its SN octets. -/
def readNackTail (nack : RlcAmStatusNack) (e2 e3 : Bool) (rd : List UInt8) :
    Option (RlcAmStatusNack × List UInt8) :=
  let withSo : Option (RlcAmStatusNack × List UInt8) :=
    if e2 then
      match rd with
      | s0 :: s1 :: s2 :: s3 :: rest =>
        some ({ nack with hasSo := true, soStart := (s0.toUInt16 <<< 8) ||| s1.toUInt16,
                          soEnd := (s2.toUInt16 <<< 8) ||| s3.toUInt16 }, rest)
      | _ => none
    else some (nack, rd)
  withSo.bind fun (nack, rd) =>
    if e3 then
      match rd with
      | r :: rest => some ({ nack with hasNackRange := true, nackRange := r }, rest)
      | [] => none
    else some (nack, rd)

/-- One round of the NACK loop of `unpack_12bit`: the NACK, its E1 flag and
the remaining octets; `none` when octets are missing or reserved bits set. -/
def readNack12 : List UInt8 → Option (RlcAmStatusNack × Bool × List UInt8)
  | b0 :: b1 :: rest =>
    if b1.toNat &&& 0x01 ≠ 0 then none else
    let nack := { RlcAmStatusNack.init with
      nackSn := ((b0.toNat &&& 0xff) <<< 4) ||| ((b1.toNat &&& 0xf0) >>> 4) }
    (readNackTail nack (b1.toNat &&& 0x04 ≠ 0) (b1.toNat &&& 0x02 ≠ 0) rest).map
      fun (nack, rest) => (nack, b1.toNat &&& 0x08 ≠ 0, rest)
  | _ => none

/-- One round of the NACK loop of `unpack_18bit`. -/
def readNack18 : List UInt8 → Option (RlcAmStatusNack × Bool × List UInt8)
  | b0 :: b1 :: b2 :: rest =>
    if b2.toNat &&& 0x07 ≠ 0 then none else
    let nack := { RlcAmStatusNack.init with
      nackSn := ((b0.toNat &&& 0xff) <<< 10) ||| ((b1.toNat &&& 0xff) <<< 2) |||
        ((b2.toNat &&& 0xc0) >>> 6) }
    (readNackTail nack (b2.toNat &&& 0x10 ≠ 0) (b2.toNat &&& 0x08 ≠ 0) rest).map
      fun (nack, rest) => (nack, b2.toNat &&& 0x20 ≠ 0, rest)
  | _ => none

/-- `while (e1 != 0)`: each round reads one NACK and pushes it. Every
round consumes at least two octets, so fuel of one per octet is never the
reason the loop stops (`unpackNacks_fuel`). -/
def unpackNacks (readNack : List UInt8 → Option (RlcAmStatusNack × Bool × List UInt8)) :
    Nat → RlcAmStatusPdu → List UInt8 → Bool × RlcAmStatusPdu
  | 0, s, _ => (false, s)
  | fuel + 1, s, rd =>
    match readNack rd with
    | none => (false, s)
    | some (nack, e1, rest) =>
      if e1 then unpackNacks readNack fuel (s.pushNack nack) rest else (true, s.pushNack nack)

def unpack12 (s : RlcAmStatusPdu) (pdu : List UInt8) : Bool × RlcAmStatusPdu :=
  match pdu with
  | b0 :: b1 :: b2 :: rest =>
    if !isControlPdu pdu then (false, s) else
    let s := { s.reset with cpt := (b0.toNat >>> 4) &&& 0x07 }
    if s.cpt ≠ 0 then (false, s) else
    let s := { s with ackSn := ((b0.toNat &&& 0x0f) <<< 8) ||| (b1.toNat &&& 0xff) }
    if b2.toNat &&& 0x7f ≠ 0 then (false, s)
    else if b2.toNat &&& 0x80 ≠ 0 then unpackNacks readNack12 pdu.length s rest
    else (true, s)
  | _ => (false, s)

def unpack18 (s : RlcAmStatusPdu) (pdu : List UInt8) : Bool × RlcAmStatusPdu :=
  match pdu with
  | b0 :: b1 :: b2 :: rest =>
    if !isControlPdu pdu then (false, s) else
    let s := { s.reset with cpt := (b0.toNat >>> 4) &&& 0x07 }
    if s.cpt ≠ 0 then (false, s) else
    let s := { s with ackSn := ((b0.toNat &&& 0x0f) <<< 14) ||| ((b1.toNat &&& 0xff) <<< 6) |||
      ((b2.toNat &&& 0xfc) >>> 2) }
    if b2.toNat &&& 0x01 ≠ 0 then (false, s)
    else if b2.toNat &&& 0x02 ≠ 0 then unpackNacks readNack18 pdu.length s rest
    else (true, s)
  | _ => (false, s)

def unpack (s : RlcAmStatusPdu) (pdu : List UInt8) : Bool × RlcAmStatusPdu :=
  match s.snSize with
  | .size12bits => s.unpack12 pdu
  | .size18bits => s.unpack18 pdu

/-! ## Packing the NACKs of a built status PDU

The packed octets are as many as `get_packed_size` counts, and each NACK's
octets decode back to the NACK with the fields its flags leave out reset to
the defaults of `rlc_am_status_nack()`. -/

/-- The NACK as `unpack` reads it back: `so_start`, `so_end` and
`nack_range` are not sent when their flag is clear, and a fresh NACK has
them at their defaults. -/
def normalizeNack (nack : RlcAmStatusNack) : RlcAmStatusNack :=
  { nack with soStart := if nack.hasSo then nack.soStart else 0,
              soEnd := if nack.hasSo then nack.soEnd else soEndOfSdu,
              nackRange := if nack.hasNackRange then nack.nackRange else 0 }

@[simp] theorem nackSize_normalizeNack (s : RlcAmStatusPdu) (nack : RlcAmStatusNack) :
    s.nackSize (normalizeNack nack) = s.nackSize nack := rfl

/-- Merging looks only at the fields a NACK's flags enable. -/
@[simp] theorem canBeMerged_normalizeNack (s : RlcAmStatusPdu) (left right : RlcAmStatusNack) :
    s.canBeMerged (normalizeNack left) (normalizeNack right) = s.canBeMerged left right := by
  unfold canBeMerged normalizeNack rangeOf
  cases left.hasNackRange <;> cases left.hasSo <;> cases right.hasNackRange <;> cases right.hasSo <;>
    simp

theorem length_packNackTail (nack : RlcAmStatusNack) :
    (packNackTail nack).length =
      (if nack.hasSo then rlcAmNrStatusPduSizeofNackSo else 0) +
      (if nack.hasNackRange then rlcAmNrStatusPduSizeofNackRange else 0) := by
  unfold packNackTail
  split_ifs <;> rfl

theorem length_packNacks {packOne : RlcAmStatusNack → Bool → List UInt8}
    {size : RlcAmStatusNack → Nat} (h : ∀ nack e1, (packOne nack e1).length = size nack)
    (nacks : List RlcAmStatusNack) :
    (packNacks packOne nacks).length = (nacks.map size).sum := by
  induction nacks with
  | nil => rfl
  | cons nack rest ih => simp [packNacks, h, ih]

theorem length_le_length_packNacks {packOne : RlcAmStatusNack → Bool → List UInt8}
    (h : ∀ nack e1, 0 < (packOne nack e1).length) (nacks : List RlcAmStatusNack) :
    nacks.length ≤ (packNacks packOne nacks).length := by
  induction nacks with
  | nil => exact Nat.le_refl 0
  | cons nack rest ih =>
    have := h nack (!rest.isEmpty)
    simp only [packNacks, List.length_append, List.length_cons]
    omega

/-- `pack` writes the header and then exactly `nack_size` octets per NACK. -/
theorem length_pack (s : RlcAmStatusPdu) :
    (s.pack).length = rlcAmNrStatusPduSizeofHeaderAckSn + (s.nacks.map s.nackSize).sum := by
  cases hsz : s.snSize with
  | size12bits =>
    have hone : ∀ nack e1, (packNack12 nack e1).length = s.nackSize nack := by
      intro nack e1
      simp [packNack12, length_packNackTail, nackSize, hsz, rlcAmNrStatusPduSizeofNackSnExt12bitSn]
      omega
    simp [pack, hsz, pack12, length_packNacks hone, rlcAmNrStatusPduSizeofHeaderAckSn]
    omega
  | size18bits =>
    have hone : ∀ nack e1, (packNack18 nack e1).length = s.nackSize nack := by
      intro nack e1
      simp [packNack18, length_packNackTail, nackSize, hsz, rlcAmNrStatusPduSizeofNackSnExt18bitSn]
      omega
    simp [pack, hsz, pack18, length_packNacks hone, rlcAmNrStatusPduSizeofHeaderAckSn]
    omega

theorem readNackTail_packNackTail (nack : RlcAmStatusNack) (rest : List UInt8) :
    readNackTail { RlcAmStatusNack.init with nackSn := nack.nackSn } nack.hasSo nack.hasNackRange
      (packNackTail nack ++ rest) = some (normalizeNack nack, rest) := by
  obtain ⟨sn, hasSo, soStart, soEnd, hasNackRange, nackRange⟩ := nack
  cases hasSo <;> cases hasNackRange <;>
    simp only [readNackTail, packNackTail, normalizeNack, RlcAmStatusNack.init, if_true, if_false,
      Bool.false_eq_true, List.cons_append, List.nil_append, List.append_nil, Option.bind_some,
      Octet.uint16_of_octets]

/-- The second octet of a 12-bit NACK as `pack_12bit` writes it. -/
def nackOctet12 (sn : Nat) (e1 e2 e3 : Bool) : UInt8 :=
  let b1 := UInt8.ofNat ((sn &&& 0x0f) <<< 4)
  let b1 := if e1 then b1 ||| 0x08 else b1
  let b1 := if e2 then b1 ||| 0x04 else b1
  if e3 then b1 ||| 0x02 else b1

theorem packNack12_eq (nack : RlcAmStatusNack) (e1 : Bool) :
    packNack12 nack e1 = UInt8.ofNat ((nack.nackSn >>> 4) &&& 0xff) ::
      nackOctet12 nack.nackSn e1 nack.hasSo nack.hasNackRange :: packNackTail nack := rfl

/-- Only the low four SN bits enter the octet. -/
theorem nackOctet12_mod (sn : Nat) (e1 e2 e3 : Bool) :
    nackOctet12 sn e1 e2 e3 = nackOctet12 (sn % 16) e1 e2 e3 := by
  simp [nackOctet12]

/-- The fields `unpack_12bit` reads from that octet: the reserved bit is
clear, the four SN bits and the three flags come back. -/
theorem nackOctet12_fields (sn : Nat) (e1 e2 e3 : Bool) :
    (nackOctet12 sn e1 e2 e3).toNat &&& 0x01 = 0 ∧
    ((nackOctet12 sn e1 e2 e3).toNat &&& 0xf0) >>> 4 = sn % 16 ∧
    decide ((nackOctet12 sn e1 e2 e3).toNat &&& 0x08 ≠ 0) = e1 ∧
    decide ((nackOctet12 sn e1 e2 e3).toNat &&& 0x04 ≠ 0) = e2 ∧
    decide ((nackOctet12 sn e1 e2 e3).toNat &&& 0x02 ≠ 0) = e3 := by
  have key : ∀ k < 16, ∀ e1 e2 e3 : Bool,
      (nackOctet12 k e1 e2 e3).toNat &&& 0x01 = 0 ∧
      ((nackOctet12 k e1 e2 e3).toNat &&& 0xf0) >>> 4 = k ∧
      decide ((nackOctet12 k e1 e2 e3).toNat &&& 0x08 ≠ 0) = e1 ∧
      decide ((nackOctet12 k e1 e2 e3).toNat &&& 0x04 ≠ 0) = e2 ∧
      decide ((nackOctet12 k e1 e2 e3).toNat &&& 0x02 ≠ 0) = e3 := by decide
  rw [nackOctet12_mod]
  exact key (sn % 16) (Nat.mod_lt _ (by decide)) e1 e2 e3

theorem readNack12_packNack12 {nack : RlcAmStatusNack} (hsn : nack.nackSn < 2 ^ 12) (e1 : Bool)
    (rest : List UInt8) :
    readNack12 (packNack12 nack e1 ++ rest) = some (normalizeNack nack, e1, rest) := by
  obtain ⟨h0, hk, he1, he2, he3⟩ := nackOctet12_fields nack.nackSn e1 nack.hasSo nack.hasNackRange
  have hsn' : ((UInt8.ofNat ((nack.nackSn >>> 4) &&& 0xff)).toNat &&& 0xff) <<< 4 |||
      nack.nackSn % 16 = nack.nackSn := by
    rw [Octet.shiftLeft_or_eq_add _ (nack.nackSn % 16) 4 (by omega)]
    simp [Nat.shiftRight_eq_div_pow]
    omega
  rw [packNack12_eq]
  simp only [List.cons_append, readNack12, h0, hk, he2, he3, hsn', ne_eq, not_true_eq_false,
    if_false, readNackTail_packNackTail, Option.map_some, he1]

/-- The third octet of an 18-bit NACK as `pack_18bit` writes it. -/
def nackOctet18 (sn : Nat) (e1 e2 e3 : Bool) : UInt8 :=
  let b2 := UInt8.ofNat ((sn <<< 6) &&& 0xc0)
  let b2 := if e1 then b2 ||| 0x20 else b2
  let b2 := if e2 then b2 ||| 0x10 else b2
  if e3 then b2 ||| 0x08 else b2

theorem packNack18_eq (nack : RlcAmStatusNack) (e1 : Bool) :
    packNack18 nack e1 = UInt8.ofNat ((nack.nackSn >>> 10) &&& 0xff) ::
      UInt8.ofNat ((nack.nackSn >>> 2) &&& 0xff) ::
      nackOctet18 nack.nackSn e1 nack.hasSo nack.hasNackRange :: packNackTail nack := rfl

theorem nackOctet18_mod (sn : Nat) (e1 e2 e3 : Bool) :
    nackOctet18 sn e1 e2 e3 = nackOctet18 (sn % 4) e1 e2 e3 := by
  have hmask : ∀ x : Nat, (x <<< 6) &&& 0xc0 = (x % 4) <<< 6 := by
    intro x
    rw [show (0xc0 : Nat) = 3 <<< 6 from rfl, ← Nat.shiftLeft_and_distrib, Octet.and_0x03]
  simp [nackOctet18, hmask]

theorem nackOctet18_fields (sn : Nat) (e1 e2 e3 : Bool) :
    (nackOctet18 sn e1 e2 e3).toNat &&& 0x07 = 0 ∧
    ((nackOctet18 sn e1 e2 e3).toNat &&& 0xc0) >>> 6 = sn % 4 ∧
    decide ((nackOctet18 sn e1 e2 e3).toNat &&& 0x20 ≠ 0) = e1 ∧
    decide ((nackOctet18 sn e1 e2 e3).toNat &&& 0x10 ≠ 0) = e2 ∧
    decide ((nackOctet18 sn e1 e2 e3).toNat &&& 0x08 ≠ 0) = e3 := by
  have key : ∀ k < 4, ∀ e1 e2 e3 : Bool,
      (nackOctet18 k e1 e2 e3).toNat &&& 0x07 = 0 ∧
      ((nackOctet18 k e1 e2 e3).toNat &&& 0xc0) >>> 6 = k ∧
      decide ((nackOctet18 k e1 e2 e3).toNat &&& 0x20 ≠ 0) = e1 ∧
      decide ((nackOctet18 k e1 e2 e3).toNat &&& 0x10 ≠ 0) = e2 ∧
      decide ((nackOctet18 k e1 e2 e3).toNat &&& 0x08 ≠ 0) = e3 := by decide
  rw [nackOctet18_mod]
  exact key (sn % 4) (Nat.mod_lt _ (by decide)) e1 e2 e3

theorem readNack18_packNack18 {nack : RlcAmStatusNack} (hsn : nack.nackSn < 2 ^ 18) (e1 : Bool)
    (rest : List UInt8) :
    readNack18 (packNack18 nack e1 ++ rest) = some (normalizeNack nack, e1, rest) := by
  obtain ⟨h0, hk, he1, he2, he3⟩ := nackOctet18_fields nack.nackSn e1 nack.hasSo nack.hasNackRange
  have hsn' : ((UInt8.ofNat ((nack.nackSn >>> 10) &&& 0xff)).toNat &&& 0xff) <<< 10 |||
      ((UInt8.ofNat ((nack.nackSn >>> 2) &&& 0xff)).toNat &&& 0xff) <<< 2 |||
      nack.nackSn % 4 = nack.nackSn := by
    simp only [Octet.toNat_ofNat_uint8, Octet.and_0xff, Nat.mod_mod, Nat.shiftRight_eq_div_pow,
      Nat.shiftLeft_eq, Nat.reducePow]
    rw [Octet.or_eq_add (x := nack.nackSn / 1024 % 256 * 1024) (k := 10) (by omega) (by omega)]
    rw [Octet.or_eq_add (k := 2) (by omega) (by omega)]
    omega
  rw [packNack18_eq]
  simp only [List.cons_append, readNack18, h0, hk, he2, he3, hsn', ne_eq, not_true_eq_false,
    if_false, readNackTail_packNackTail, Option.map_some, he1]

/-- The NACK loop of `unpack` reads back what the loop of `pack` wrote and
pushes the NACKs as read; the octets after the last NACK are not looked at. -/
theorem unpackNacks_packNacks
    {readNack : List UInt8 → Option (RlcAmStatusNack × Bool × List UInt8)}
    {packOne : RlcAmStatusNack → Bool → List UInt8} {nacks : List RlcAmStatusNack}
    (hread : ∀ nack ∈ nacks, ∀ e1 rest,
      readNack (packOne nack e1 ++ rest) = some (normalizeNack nack, e1, rest))
    (hne : nacks ≠ []) (s : RlcAmStatusPdu) (fuel : Nat) (hfuel : nacks.length ≤ fuel)
    (rest : List UInt8) :
    unpackNacks readNack fuel s (packNacks packOne nacks ++ rest) =
      (true, s.pushNacks (nacks.map normalizeNack)) := by
  induction nacks generalizing s fuel with
  | nil => exact absurd rfl hne
  | cons nack tail ih =>
    obtain ⟨fuel, rfl⟩ : ∃ f, fuel = f + 1 := ⟨fuel - 1, by simp at hfuel; omega⟩
    rw [packNacks, List.append_assoc, unpackNacks,
      hread nack List.mem_cons_self _ (packNacks packOne tail ++ rest)]
    cases tail with
    | nil => simp
    | cons next tail' =>
      simp only [List.isEmpty_cons, Bool.not_false, if_true]
      rw [ih (fun m hm => hread m (List.mem_cons_of_mem _ hm)) (by simp) _ _ (by simpa using hfuel)]
      rfl

/-! ## The header -/

/-- The octet after the ACK SN of `pack_12bit`: E1 and seven reserved zeros. -/
theorem e1Octet12_fields (e1 : Bool) :
    (if e1 then (0x80 : UInt8) else 0x00).toNat &&& 0x7f = 0 ∧
    ((if e1 then (0x80 : UInt8) else 0x00).toNat &&& 0x80 ≠ 0 ↔ e1 = true) := by
  cases e1 <;> decide

/-- The first two octets of a 12-bit status PDU: D/C and CPT zero, then the
twelve bits of ACK_SN. -/
theorem ackOctets12 {ack : Nat} (hack : ack < 2 ^ 12) :
    ((UInt8.ofNat ((ack >>> 8) &&& 0x0f)).toNat >>> 7) &&& 0x01 = 0 ∧
    ((UInt8.ofNat ((ack >>> 8) &&& 0x0f)).toNat >>> 4) &&& 0x07 = 0 ∧
    (((UInt8.ofNat ((ack >>> 8) &&& 0x0f)).toNat &&& 0x0f) <<< 8) |||
      ((UInt8.ofNat (ack &&& 0xff)).toNat &&& 0xff) = ack := by
  simp only [Octet.toNat_ofNat_uint8, Octet.and_0x0f, Octet.and_0xff, Octet.and_0x01,
    Octet.and_0x07, Nat.shiftRight_eq_div_pow, Nat.reducePow]
  refine ⟨by omega, by omega, ?_⟩
  rw [Octet.shiftLeft_or_eq_add]
  · omega
  · omega

theorem unpack12_pack12 {s : RlcAmStatusPdu} (hack : s.ackSn < 2 ^ 12)
    (hnacks : ∀ m ∈ s.nacks, m.nackSn < 2 ^ 12) (t : RlcAmStatusPdu) :
    t.unpack12 s.pack12 =
      (true, ({ t.reset with ackSn := s.ackSn }).pushNacks (s.nacks.map normalizeNack)) := by
  obtain ⟨hdc, hcpt, hsn⟩ := ackOctets12 hack
  obtain ⟨hres, he1⟩ := e1Octet12_fields (!s.nacks.isEmpty)
  rw [ne_eq] at he1
  simp only [pack12, List.cons_append, List.nil_append, unpack12, isControlPdu, hdc, hcpt, hsn,
    hres, decide_true, Bool.not_true, Bool.false_eq_true, ne_eq, not_true_eq_false, if_false]
  by_cases hne : s.nacks = []
  · -- no NACK: E1 is clear and the header is all
    rw [if_neg (by rw [he1]; simp [hne])]
    simp [hne]
  · rw [if_pos (he1.mpr (by simpa using hne))]
    have key := unpackNacks_packNacks (fun m hm e1 rest => readNack12_packNack12 (hnacks m hm) e1 rest)
      hne { t.reset with cpt := 0, ackSn := s.ackSn }
      (UInt8.ofNat ((s.ackSn >>> 8) &&& 0x0f) :: UInt8.ofNat (s.ackSn &&& 0xff) ::
        (if (!s.nacks.isEmpty) = true then 0x80 else 0x00) :: packNacks packNack12 s.nacks).length
      (by
        have := length_le_length_packNacks
          (fun nack e1 => (by simp [packNack12_eq] : 0 < (packNack12 nack e1).length)) s.nacks
        simp only [List.length_cons]
        omega) []
    rw [List.append_nil] at key
    rw [key]
    rfl

/-- The third octet of an 18-bit status PDU as `pack_18bit` writes it: the
low six bits of ACK_SN, E1 and a reserved zero. -/
def ackOctet18 (ack : Nat) (e1 : Bool) : UInt8 :=
  let b2 := UInt8.ofNat ((ack <<< 2) &&& 0xfc)
  if e1 then b2 ||| 0x02 else b2

theorem pack18_eq (s : RlcAmStatusPdu) :
    s.pack18 = [UInt8.ofNat ((s.ackSn >>> 14) &&& 0x0f), UInt8.ofNat ((s.ackSn >>> 6) &&& 0xff),
      ackOctet18 s.ackSn (!s.nacks.isEmpty)] ++ packNacks packNack18 s.nacks := rfl

theorem ackOctet18_mod (ack : Nat) (e1 : Bool) : ackOctet18 ack e1 = ackOctet18 (ack % 64) e1 := by
  have hmask : ∀ x : Nat, (x <<< 2) &&& 0xfc = (x % 64) <<< 2 := by
    intro x
    rw [show (0xfc : Nat) = 63 <<< 2 from rfl, ← Nat.shiftLeft_and_distrib, Octet.and_0x3f]
  simp [ackOctet18, hmask]

theorem ackOctet18_fields (ack : Nat) (e1 : Bool) :
    (ackOctet18 ack e1).toNat &&& 0x01 = 0 ∧
    ((ackOctet18 ack e1).toNat &&& 0xfc) >>> 2 = ack % 64 ∧
    (¬(ackOctet18 ack e1).toNat &&& 0x02 = 0 ↔ e1 = true) := by
  have key : ∀ k < 64, ∀ e1 : Bool,
      (ackOctet18 k e1).toNat &&& 0x01 = 0 ∧
      ((ackOctet18 k e1).toNat &&& 0xfc) >>> 2 = k ∧
      (¬(ackOctet18 k e1).toNat &&& 0x02 = 0 ↔ e1 = true) := by decide
  rw [ackOctet18_mod]
  exact key (ack % 64) (Nat.mod_lt _ (by decide)) e1

theorem ackOctets18 {ack : Nat} (hack : ack < 2 ^ 18) :
    ((UInt8.ofNat ((ack >>> 14) &&& 0x0f)).toNat >>> 7) &&& 0x01 = 0 ∧
    ((UInt8.ofNat ((ack >>> 14) &&& 0x0f)).toNat >>> 4) &&& 0x07 = 0 ∧
    (((UInt8.ofNat ((ack >>> 14) &&& 0x0f)).toNat &&& 0x0f) <<< 14) |||
      (((UInt8.ofNat ((ack >>> 6) &&& 0xff)).toNat &&& 0xff) <<< 6) ||| ack % 64 = ack := by
  simp only [Octet.toNat_ofNat_uint8, Octet.and_0x0f, Octet.and_0xff, Octet.and_0x01,
    Octet.and_0x07, Nat.mod_mod, Nat.shiftRight_eq_div_pow, Nat.shiftLeft_eq, Nat.reducePow]
  refine ⟨by omega, by omega, ?_⟩
  rw [Octet.or_eq_add (x := ack / 16384 % 16 % 256 % 16 * 16384) (k := 14) (by omega) (by omega)]
  rw [Octet.or_eq_add (k := 6) (by omega) (by omega)]
  omega

theorem unpack18_pack18 {s : RlcAmStatusPdu} (hack : s.ackSn < 2 ^ 18)
    (hnacks : ∀ m ∈ s.nacks, m.nackSn < 2 ^ 18) (t : RlcAmStatusPdu) :
    t.unpack18 s.pack18 =
      (true, ({ t.reset with ackSn := s.ackSn }).pushNacks (s.nacks.map normalizeNack)) := by
  obtain ⟨hdc, hcpt, hsn⟩ := ackOctets18 hack
  obtain ⟨hres, hlow, he1⟩ := ackOctet18_fields s.ackSn (!s.nacks.isEmpty)
  simp only [pack18_eq, List.cons_append, List.nil_append, unpack18, isControlPdu, hdc, hcpt, hlow,
    hsn, hres, decide_true, Bool.not_true, Bool.false_eq_true, ne_eq, not_true_eq_false, if_false]
  by_cases hne : s.nacks = []
  · rw [if_neg (by rw [he1]; simp [hne])]
    simp [hne]
  · rw [if_pos (he1.mpr (by simpa using hne))]
    have key := unpackNacks_packNacks (fun m hm e1 rest => readNack18_packNack18 (hnacks m hm) e1 rest)
      hne { t.reset with cpt := 0, ackSn := s.ackSn }
      (UInt8.ofNat ((s.ackSn >>> 14) &&& 0x0f) :: UInt8.ofNat ((s.ackSn >>> 6) &&& 0xff) ::
        ackOctet18 s.ackSn (!s.nacks.isEmpty) :: packNacks packNack18 s.nacks).length
      (by
        have := length_le_length_packNacks
          (fun nack e1 => (by simp [packNack18_eq] : 0 < (packNack18 nack e1).length)) s.nacks
        simp only [List.length_cons]
        omega) []
    rw [List.append_nil] at key
    rw [key]
    rfl

/-! ## What `unpack` accepts -/

/-- The SO and range part of a NACK read from `rd` are the octets `pack`
writes for the NACK read, and that NACK has its disabled fields at their
defaults. -/
theorem readNackTail_eq_some {sn : Nat} {e2 e3 : Bool} {rd rest : List UInt8}
    {nack : RlcAmStatusNack}
    (h : readNackTail { RlcAmStatusNack.init with nackSn := sn } e2 e3 rd = some (nack, rest)) :
    rd = packNackTail nack ++ rest ∧ normalizeNack nack = nack ∧ nack.nackSn = sn ∧
      nack.hasSo = e2 ∧ nack.hasNackRange = e3 := by
  unfold readNackTail at h
  cases e2 <;> cases e3 <;> simp only [Bool.false_eq_true, if_false, if_true, Option.bind_some] at h
  · simp only [Option.some.injEq, Prod.mk.injEq] at h
    obtain ⟨rfl, rfl⟩ := h
    simp [packNackTail, normalizeNack, RlcAmStatusNack.init]
  · rcases rd with _ | ⟨r, rd⟩
    · simp at h
    · simp only [Option.some.injEq, Prod.mk.injEq] at h
      obtain ⟨rfl, rfl⟩ := h
      simp [packNackTail, normalizeNack, RlcAmStatusNack.init]
  · rcases rd with _ | ⟨s0, _ | ⟨s1, _ | ⟨s2, _ | ⟨s3, rd⟩⟩⟩⟩
    all_goals simp only [Option.bind_none, reduceCtorEq, Option.bind_some, Option.some.injEq, Prod.mk.injEq] at h
    obtain ⟨rfl, rfl⟩ := h
    obtain ⟨h0, h1⟩ := Octet.octets_of_uint16 s0 s1
    obtain ⟨h2, h3⟩ := Octet.octets_of_uint16 s2 s3
    simp only [packNackTail, if_true, List.cons_append, List.nil_append, h0, h1, h2, h3]
    simp [normalizeNack, RlcAmStatusNack.init]
  · rcases rd with _ | ⟨s0, _ | ⟨s1, _ | ⟨s2, _ | ⟨s3, _ | ⟨r, rd⟩⟩⟩⟩⟩
    all_goals simp only [Option.bind_none, reduceCtorEq, Option.bind_some, Option.some.injEq, Prod.mk.injEq] at h
    obtain ⟨rfl, rfl⟩ := h
    obtain ⟨h0, h1⟩ := Octet.octets_of_uint16 s0 s1
    obtain ⟨h2, h3⟩ := Octet.octets_of_uint16 s2 s3
    simp only [packNackTail, if_true, List.cons_append, List.nil_append, h0, h1, h2, h3]
    simp [normalizeNack]

set_option maxRecDepth 8000 in
/-- A NACK octet with its reserved bit clear is the octet `pack_12bit`
writes for the fields `unpack_12bit` reads out of it. -/
theorem nackOctet12_of_fields (b : UInt8) (hres : b.toNat &&& 0x01 = 0) {sn : Nat}
    (hsn : sn % 16 = (b.toNat &&& 0xf0) >>> 4) :
    nackOctet12 sn (decide (b.toNat &&& 0x08 ≠ 0)) (decide (b.toNat &&& 0x04 ≠ 0))
      (decide (b.toNat &&& 0x02 ≠ 0)) = b := by
  have key : ∀ n < 256, n &&& 0x01 = 0 →
      nackOctet12 ((n &&& 0xf0) >>> 4) (decide (n &&& 0x08 ≠ 0)) (decide (n &&& 0x04 ≠ 0))
        (decide (n &&& 0x02 ≠ 0)) = UInt8.ofNat n := by decide
  rw [nackOctet12_mod, hsn, key b.toNat (UInt8.toNat_lt b) hres, UInt8.ofNat_toNat]

set_option maxRecDepth 8000 in
theorem nackOctet18_of_fields (b : UInt8) (hres : b.toNat &&& 0x07 = 0) {sn : Nat}
    (hsn : sn % 4 = (b.toNat &&& 0xc0) >>> 6) :
    nackOctet18 sn (decide (b.toNat &&& 0x20 ≠ 0)) (decide (b.toNat &&& 0x10 ≠ 0))
      (decide (b.toNat &&& 0x08 ≠ 0)) = b := by
  have key : ∀ n < 256, n &&& 0x07 = 0 →
      nackOctet18 ((n &&& 0xc0) >>> 6) (decide (n &&& 0x20 ≠ 0)) (decide (n &&& 0x10 ≠ 0))
        (decide (n &&& 0x08 ≠ 0)) = UInt8.ofNat n := by decide
  rw [nackOctet18_mod, hsn, key b.toNat (UInt8.toNat_lt b) hres, UInt8.ofNat_toNat]

/-- What `unpack_12bit` reads as one NACK is what `pack_12bit` writes for
it, and it comes out with a 12-bit SN and its disabled fields at their
defaults. -/
theorem readNack12_eq_some {rd rest : List UInt8} {nack : RlcAmStatusNack} {e1 : Bool}
    (h : readNack12 rd = some (nack, e1, rest)) :
    rd = packNack12 nack e1 ++ rest ∧ normalizeNack nack = nack ∧ nack.nackSn < 2 ^ 12 := by
  match rd, h with
  | b0 :: b1 :: tail, h =>
    simp only [readNack12] at h
    split_ifs at h with hres
    obtain ⟨⟨nack', rest'⟩, htail, heq⟩ := Option.map_eq_some_iff.mp h
    simp only [Prod.mk.injEq] at heq
    obtain ⟨rfl, rfl, rfl⟩ := heq
    obtain ⟨hrd, hnorm, hsn, hso, hrange⟩ := readNackTail_eq_some htail
    have hb0 := UInt8.toNat_lt b0
    have hk : (b1.toNat &&& 0xf0) >>> 4 < 16 := by
      have := UInt8.toNat_lt b1
      have := Nat.and_le_left (n := b1.toNat) (m := 0xf0)
      rw [Nat.shiftRight_eq_div_pow]
      omega
    have hval : nack'.nackSn = b0.toNat * 16 + (b1.toNat &&& 0xf0) >>> 4 := by
      rw [hsn, Octet.and_0xff, Nat.mod_eq_of_lt hb0, Octet.shiftLeft_or_eq_add _ _ 4 hk]
      omega
    refine ⟨?_, hnorm, by omega⟩
    rw [packNack12_eq, hrd, hso, hrange,
      nackOctet12_of_fields b1 (by simpa using hres) (by omega)]
    have hhi : UInt8.ofNat ((nack'.nackSn >>> 4) &&& 0xff) = b0 := by
      rw [Octet.and_0xff, Nat.shiftRight_eq_div_pow, hval]
      apply UInt8.toNat_inj.mp
      simp only [Octet.toNat_ofNat_uint8]
      omega
    rw [hhi]
    rfl

theorem readNack18_eq_some {rd rest : List UInt8} {nack : RlcAmStatusNack} {e1 : Bool}
    (h : readNack18 rd = some (nack, e1, rest)) :
    rd = packNack18 nack e1 ++ rest ∧ normalizeNack nack = nack ∧ nack.nackSn < 2 ^ 18 := by
  match rd, h with
  | b0 :: b1 :: b2 :: tail, h =>
    simp only [readNack18] at h
    split_ifs at h with hres
    obtain ⟨⟨nack', rest'⟩, htail, heq⟩ := Option.map_eq_some_iff.mp h
    simp only [Prod.mk.injEq] at heq
    obtain ⟨rfl, rfl, rfl⟩ := heq
    obtain ⟨hrd, hnorm, hsn, hso, hrange⟩ := readNackTail_eq_some htail
    have hb0 := UInt8.toNat_lt b0
    have hb1 := UInt8.toNat_lt b1
    have hk : (b2.toNat &&& 0xc0) >>> 6 < 4 := by
      have := UInt8.toNat_lt b2
      have := Nat.and_le_left (n := b2.toNat) (m := 0xc0)
      rw [Nat.shiftRight_eq_div_pow]
      omega
    have hval : nack'.nackSn = b0.toNat * 1024 + b1.toNat * 4 + (b2.toNat &&& 0xc0) >>> 6 := by
      rw [hsn, Octet.and_0xff, Octet.and_0xff, Nat.mod_eq_of_lt hb0, Nat.mod_eq_of_lt hb1,
        Nat.shiftLeft_eq, Nat.shiftLeft_eq,
        Octet.or_eq_add (x := b0.toNat * 2 ^ 10) (k := 10) (by simp) (by omega),
        Octet.or_eq_add (k := 2) (by omega) (by omega)]
    refine ⟨?_, hnorm, by omega⟩
    rw [packNack18_eq, hrd, hso, hrange,
      nackOctet18_of_fields b2 (by simpa using hres) (by omega)]
    have hhi : UInt8.ofNat ((nack'.nackSn >>> 10) &&& 0xff) = b0 := by
      rw [Octet.and_0xff, Nat.shiftRight_eq_div_pow, hval]
      apply UInt8.toNat_inj.mp
      simp only [Octet.toNat_ofNat_uint8]
      omega
    have hmid : UInt8.ofNat ((nack'.nackSn >>> 2) &&& 0xff) = b1 := by
      rw [Octet.and_0xff, Nat.shiftRight_eq_div_pow, hval]
      apply UInt8.toNat_inj.mp
      simp only [Octet.toNat_ofNat_uint8]
      omega
    rw [hhi, hmid]
    rfl

/-- A NACK loop that ends in success has read the packing of the NACKs it
pushed, followed by octets it never looked at. -/
theorem unpackNacks_eq_true
    {readNack : List UInt8 → Option (RlcAmStatusNack × Bool × List UInt8)}
    {packOne : RlcAmStatusNack → Bool → List UInt8} {good : RlcAmStatusNack → Prop}
    (hread : ∀ rd nack e1 rest, readNack rd = some (nack, e1, rest) →
      rd = packOne nack e1 ++ rest ∧ good nack)
    {fuel : Nat} {s t : RlcAmStatusPdu} {rd : List UInt8}
    (h : unpackNacks readNack fuel s rd = (true, t)) :
    ∃ nacks rest, nacks ≠ [] ∧ (∀ m ∈ nacks, good m) ∧
      rd = packNacks packOne nacks ++ rest ∧ t = s.pushNacks nacks := by
  induction fuel generalizing s rd with
  | zero => simp [unpackNacks] at h
  | succ fuel ih =>
    unfold unpackNacks at h
    split at h
    · simp at h
    · rename_i nack e1 rest hr
      obtain ⟨hrd, hgood⟩ := hread rd nack e1 rest hr
      cases e1 with
      | false =>
        simp only [Bool.false_eq_true, if_false, Prod.mk.injEq, true_and] at h
        refine ⟨[nack], rest, by simp, by simpa using hgood, ?_, by simp [h]⟩
        simpa [packNacks] using hrd
      | true =>
        obtain ⟨nacks, rest', hne, hall, hrest, ht⟩ := ih h
        refine ⟨nack :: nacks, rest', by simp, ?_, ?_, by simp [ht]⟩
        · intro m hm
          rcases List.mem_cons.mp hm with rfl | hm
          · exact hgood
          · exact hall m hm
        · have hempty : nacks.isEmpty = false := List.isEmpty_eq_false_iff.mpr hne
          rw [hrd, hrest, packNacks, hempty, Bool.not_false, List.append_assoc]

/-- The first two octets of a 12-bit status PDU that passes the D/C and CPT
checks are the ones `pack_12bit` writes for the ACK_SN read from them. -/
theorem ackOctets12_of_fields (b0 b1 : UInt8) (hdc : (b0.toNat >>> 7) &&& 0x01 = 0)
    (hcpt : (b0.toNat >>> 4) &&& 0x07 = 0) :
    ((b0.toNat &&& 0x0f) <<< 8 ||| (b1.toNat &&& 0xff)) < 2 ^ 12 ∧
    UInt8.ofNat ((((b0.toNat &&& 0x0f) <<< 8 ||| (b1.toNat &&& 0xff)) >>> 8) &&& 0x0f) = b0 ∧
    UInt8.ofNat (((b0.toNat &&& 0x0f) <<< 8 ||| (b1.toNat &&& 0xff)) &&& 0xff) = b1 := by
  have hb0 := UInt8.toNat_lt b0
  have hb1 := UInt8.toNat_lt b1
  simp only [Octet.and_0x01, Octet.and_0x07, Nat.shiftRight_eq_div_pow] at hdc hcpt
  have hlow : b0.toNat < 16 := by omega
  have hack : (b0.toNat &&& 0x0f) <<< 8 ||| (b1.toNat &&& 0xff) = b0.toNat * 256 + b1.toNat := by
    rw [Octet.and_0x0f, Octet.and_0xff, Nat.mod_eq_of_lt hlow, Nat.mod_eq_of_lt hb1,
      Octet.shiftLeft_or_eq_add _ _ 8 hb1]
    omega
  rw [hack]
  refine ⟨by omega, ?_, ?_⟩
  · apply UInt8.toNat_inj.mp
    simp only [Octet.toNat_ofNat_uint8, Octet.and_0x0f, Nat.shiftRight_eq_div_pow]
    omega
  · apply UInt8.toNat_inj.mp
    simp only [Octet.toNat_ofNat_uint8, Octet.and_0xff]
    omega

set_option maxRecDepth 8000 in
/-- An octet after the ACK_SN with its seven reserved bits clear is one of
the two `pack_12bit` writes. -/
theorem e1Octet12_of_fields {b : UInt8} (hres : b.toNat &&& 0x7f = 0) :
    (b.toNat &&& 0x80 ≠ 0 → b = 0x80) ∧ (¬b.toNat &&& 0x80 ≠ 0 → b = 0x00) := by
  have key : ∀ n < 256, n &&& 0x7f = 0 →
      (n &&& 0x80 ≠ 0 → UInt8.ofNat n = 0x80) ∧ (¬n &&& 0x80 ≠ 0 → UInt8.ofNat n = 0x00) := by
    decide
  have := key b.toNat (UInt8.toNat_lt b) hres
  rwa [UInt8.ofNat_toNat] at this

theorem unpack12_eq_true {t t' : RlcAmStatusPdu} {pdu : List UInt8}
    (h : t.unpack12 pdu = (true, t')) :
    ∃ ack nacks rest, ack < 2 ^ 12 ∧ (∀ m ∈ nacks, normalizeNack m = m ∧ m.nackSn < 2 ^ 12) ∧
      pdu = ({ t with ackSn := ack, nacks := nacks }).pack12 ++ rest ∧
      t' = ({ t.reset with ackSn := ack }).pushNacks nacks := by
  match pdu, h with
  | b0 :: b1 :: b2 :: tail, h =>
    simp only [unpack12] at h
    split_ifs at h with hctl hcpt hres he1
    any_goals (simp at h; done)
    all_goals
      have hdc : (b0.toNat >>> 7) &&& 0x01 = 0 := by simpa [isControlPdu] using hctl
      simp only [ne_eq, Decidable.not_not] at hcpt hres
      obtain ⟨hack, hb0, hb1⟩ := ackOctets12_of_fields b0 b1 hdc hcpt
      obtain ⟨hset, hclear⟩ := e1Octet12_of_fields hres
      -- `reset` already zeroes CPT, so the object the NACKs go into is this one
      have hs : ({ { t.reset with cpt := (b0.toNat >>> 4) &&& 0x07 } with
          ackSn := (b0.toNat &&& 0x0f) <<< 8 ||| (b1.toNat &&& 0xff) } : RlcAmStatusPdu) =
          { t.reset with ackSn := (b0.toNat &&& 0x0f) <<< 8 ||| (b1.toNat &&& 0xff) } := by
        rw [hcpt]
        rfl
    · -- E1 set: the NACK loop ran and succeeded
      rw [hs] at h
      obtain ⟨nacks, rest, hne, hgood, htail, ht'⟩ :=
        unpackNacks_eq_true (fun rd nack e1 rest hr => (readNack12_eq_some hr).imp_right id) h
      refine ⟨_, nacks, rest, hack, hgood, ?_, ht'⟩
      have hempty : nacks.isEmpty = false := List.isEmpty_eq_false_iff.mpr hne
      simp only [pack12, hempty, Bool.not_false, if_true, List.cons_append, List.nil_append]
      rw [hb0, hb1, ← hset he1, htail]
    · -- E1 clear: no NACK
      simp only [Prod.mk.injEq, true_and] at h
      refine ⟨_, [], tail, hack, by simp, ?_, by rw [← h, hs]; rfl⟩
      simp only [pack12, List.isEmpty_nil, Bool.not_true, Bool.false_eq_true, if_false,
        List.cons_append, List.nil_append, packNacks]
      rw [hb0, hb1, ← hclear he1]

theorem ackOctets18_of_fields (b0 b1 b2 : UInt8) (hdc : (b0.toNat >>> 7) &&& 0x01 = 0)
    (hcpt : (b0.toNat >>> 4) &&& 0x07 = 0) :
    ((b0.toNat &&& 0x0f) <<< 14 ||| (b1.toNat &&& 0xff) <<< 6 ||| (b2.toNat &&& 0xfc) >>> 2) <
      2 ^ 18 ∧
    UInt8.ofNat ((((b0.toNat &&& 0x0f) <<< 14 ||| (b1.toNat &&& 0xff) <<< 6 |||
      (b2.toNat &&& 0xfc) >>> 2) >>> 14) &&& 0x0f) = b0 ∧
    UInt8.ofNat ((((b0.toNat &&& 0x0f) <<< 14 ||| (b1.toNat &&& 0xff) <<< 6 |||
      (b2.toNat &&& 0xfc) >>> 2) >>> 6) &&& 0xff) = b1 ∧
    ((b0.toNat &&& 0x0f) <<< 14 ||| (b1.toNat &&& 0xff) <<< 6 ||| (b2.toNat &&& 0xfc) >>> 2) % 64 =
      (b2.toNat &&& 0xfc) >>> 2 := by
  have hb0 := UInt8.toNat_lt b0
  have hb1 := UInt8.toNat_lt b1
  have hlow : (b2.toNat &&& 0xfc) >>> 2 < 64 := by
    have := UInt8.toNat_lt b2
    have := Nat.and_le_left (n := b2.toNat) (m := 0xfc)
    rw [Nat.shiftRight_eq_div_pow]
    omega
  simp only [Octet.and_0x01, Octet.and_0x07, Nat.shiftRight_eq_div_pow] at hdc hcpt
  have hhigh : b0.toNat < 16 := by omega
  have hack : (b0.toNat &&& 0x0f) <<< 14 ||| (b1.toNat &&& 0xff) <<< 6 ||| (b2.toNat &&& 0xfc) >>> 2 =
      b0.toNat * 16384 + b1.toNat * 64 + (b2.toNat &&& 0xfc) >>> 2 := by
    rw [Octet.and_0x0f, Octet.and_0xff, Nat.mod_eq_of_lt hhigh, Nat.mod_eq_of_lt hb1,
      Nat.shiftLeft_eq, Nat.shiftLeft_eq,
      Octet.or_eq_add (x := b0.toNat * 2 ^ 14) (k := 14) (by simp) (by omega),
      Octet.or_eq_add (k := 6) (by omega) hlow]
  rw [hack]
  refine ⟨by omega, ?_, ?_, by omega⟩
  · apply UInt8.toNat_inj.mp
    simp only [Octet.toNat_ofNat_uint8, Octet.and_0x0f, Nat.shiftRight_eq_div_pow]
    omega
  · apply UInt8.toNat_inj.mp
    simp only [Octet.toNat_ofNat_uint8, Octet.and_0xff, Nat.shiftRight_eq_div_pow]
    omega

set_option maxRecDepth 8000 in
/-- The third octet of an 18-bit status PDU with its reserved bit clear is
the one `pack_18bit` writes for the six ACK_SN bits and the E1 read from it. -/
theorem ackOctet18_of_fields (b : UInt8) (hres : b.toNat &&& 0x01 = 0) {ack : Nat}
    (hack : ack % 64 = (b.toNat &&& 0xfc) >>> 2) (e1 : Bool)
    (he1 : b.toNat &&& 0x02 ≠ 0 ↔ e1 = true) :
    ackOctet18 ack e1 = b := by
  have key : ∀ n < 256, n &&& 0x01 = 0 →
      ackOctet18 ((n &&& 0xfc) >>> 2) (decide (n &&& 0x02 ≠ 0)) = UInt8.ofNat n := by decide
  have he1' : e1 = decide (b.toNat &&& 0x02 ≠ 0) := by
    cases e1 <;> simp_all
  rw [ackOctet18_mod, hack, he1', key b.toNat (UInt8.toNat_lt b) hres, UInt8.ofNat_toNat]

theorem unpack18_eq_true {t t' : RlcAmStatusPdu} {pdu : List UInt8}
    (h : t.unpack18 pdu = (true, t')) :
    ∃ ack nacks rest, ack < 2 ^ 18 ∧ (∀ m ∈ nacks, normalizeNack m = m ∧ m.nackSn < 2 ^ 18) ∧
      pdu = ({ t with ackSn := ack, nacks := nacks }).pack18 ++ rest ∧
      t' = ({ t.reset with ackSn := ack }).pushNacks nacks := by
  match pdu, h with
  | b0 :: b1 :: b2 :: tail, h =>
    simp only [unpack18] at h
    split_ifs at h with hctl hcpt hres he1
    any_goals (simp at h; done)
    all_goals
      have hdc : (b0.toNat >>> 7) &&& 0x01 = 0 := by simpa [isControlPdu] using hctl
      simp only [ne_eq, Decidable.not_not] at hcpt hres
      obtain ⟨hack, hb0, hb1, hlow⟩ := ackOctets18_of_fields b0 b1 b2 hdc hcpt
      have hs : ({ { t.reset with cpt := (b0.toNat >>> 4) &&& 0x07 } with
          ackSn := (b0.toNat &&& 0x0f) <<< 14 ||| (b1.toNat &&& 0xff) <<< 6 |||
            (b2.toNat &&& 0xfc) >>> 2 } : RlcAmStatusPdu) =
          { t.reset with ackSn := (b0.toNat &&& 0x0f) <<< 14 ||| (b1.toNat &&& 0xff) <<< 6 |||
            (b2.toNat &&& 0xfc) >>> 2 } := by
        rw [hcpt]
        rfl
    · rw [hs] at h
      obtain ⟨nacks, rest, hne, hgood, htail, ht'⟩ :=
        unpackNacks_eq_true (fun rd nack e1 rest hr => (readNack18_eq_some hr).imp_right id) h
      refine ⟨_, nacks, rest, hack, hgood, ?_, ht'⟩
      have hempty : nacks.isEmpty = false := List.isEmpty_eq_false_iff.mpr hne
      rw [pack18_eq, ackOctet18_of_fields b2 hres hlow (!nacks.isEmpty) (by simpa [hempty] using he1)]
      simp only [List.cons_append, List.nil_append]
      rw [hb0, hb1, htail]
    · simp only [Prod.mk.injEq, true_and] at h
      refine ⟨_, [], tail, hack, by simp, ?_, by rw [← h, hs]; rfl⟩
      rw [pack18_eq, ackOctet18_of_fields b2 hres hlow (!([] : List RlcAmStatusNack).isEmpty)
        (by simpa using he1)]
      simp only [List.cons_append, List.nil_append, packNacks]
      rw [hb0, hb1]

/-! ## Round trip -/

/-- Pushing the NACKs of a canonical list, as `unpack` reads them back, into
an empty object of the same SN size appends each one: none can be merged
into the one before it. -/
theorem pushNacks_map_normalizeNack {s t : RlcAmStatusPdu} (hs : s.Canonical)
    (hsz : t.snSize = s.snSize) (hnil : t.nacks = [])
    (hsize : t.packedSize = rlcAmNrStatusPduSizeofHeaderAckSn) :
    t.pushNacks (s.nacks.map normalizeNack) =
      { t with nacks := s.nacks.map normalizeNack, packedSize := s.packedSize } := by
  have hchain : (t.nacks ++ s.nacks.map normalizeNack).IsChain
      fun left right => t.canBeMerged left right = false := by
    rw [hnil, List.nil_append, List.isChain_map, canBeMerged_congr hsz]
    simpa using hs.unmergeable
  rw [pushNacks_of_isChain hchain, hnil, List.nil_append, hsize, hs.packedSize_eq,
    nackSize_congr hsz]
  simp [Function.comp_def]

/-- `unpack` on a fresh object reads back what `pack` wrote for a canonical
status PDU, with each NACK's disabled fields at their defaults. -/
theorem unpack_pack {s : RlcAmStatusPdu} (hs : s.Canonical) (hcpt : s.cpt = 0)
    (hack : s.ackSn < cardinality s.snSize.toNumber)
    (hnacks : ∀ m ∈ s.nacks, m.nackSn < cardinality s.snSize.toNumber) :
    (init s.snSize).unpack s.pack = (true, { s with nacks := s.nacks.map normalizeNack }) := by
  have hrebuild := pushNacks_map_normalizeNack hs
    (t := { (init s.snSize).reset with ackSn := s.ackSn }) rfl rfl rfl
  obtain ⟨sz, nacks, packedSize, cpt, ackSn⟩ := s
  simp only at hcpt hack hnacks hrebuild ⊢
  subst hcpt
  cases sz with
  | size12bits =>
    rw [unpack, pack, init, unpack12_pack12 hack hnacks]
    rw [init] at hrebuild
    rw [hrebuild]
    rfl
  | size18bits =>
    rw [unpack, pack, init, unpack18_pack18 hack hnacks]
    rw [init] at hrebuild
    rw [hrebuild]
    rfl

/-- What `unpack` accepts on a fresh object: the packing of an ACK_SN and of
the NACKs it read, then octets it ignores; the object it leaves is those
NACKs pushed in turn. -/
theorem unpack_eq_true {sz : RlcAmSnSize} {pdu : List UInt8} {t : RlcAmStatusPdu}
    (h : (init sz).unpack pdu = (true, t)) :
    ∃ ack nacks rest, ack < cardinality sz.toNumber ∧
      (∀ m ∈ nacks, normalizeNack m = m ∧ m.nackSn < cardinality sz.toNumber) ∧
      pdu = ({ init sz with ackSn := ack, nacks := nacks }).pack ++ rest ∧
      t = ({ init sz with ackSn := ack }).pushNacks nacks := by
  cases sz with
  | size12bits => exact unpack12_eq_true h
  | size18bits => exact unpack18_eq_true h

/-- The status PDU codec, both ways, for both SN sizes. A status PDU built
by `reset`, an ACK_SN and `push_nack` calls packs to `get_packed_size`
octets and unpacks to itself, except that `so_start`/`so_end` of a NACK
without SO and `nack_range` of a NACK without range come back at their
defaults. Every octet string `unpack` accepts is the packing of the ACK_SN
and NACKs it read, followed by octets it ignores, and the object it leaves
is those NACKs passed through `push_nack`. -/
theorem statusPdu_roundTrip :
    (∀ (s₀ : RlcAmStatusPdu) (ack : Nat) (nacks : List RlcAmStatusNack),
      ack < cardinality s₀.snSize.toNumber →
      (∀ m ∈ nacks, m.nackSn < cardinality s₀.snSize.toNumber) →
      (({ s₀.reset with ackSn := ack }).pushNacks nacks).pack.length =
          (({ s₀.reset with ackSn := ack }).pushNacks nacks).packedSize ∧
        (init s₀.snSize).unpack (({ s₀.reset with ackSn := ack }).pushNacks nacks).pack =
          (true, { ({ s₀.reset with ackSn := ack }).pushNacks nacks with
            nacks := (({ s₀.reset with ackSn := ack }).pushNacks nacks).nacks.map normalizeNack })) ∧
    (∀ (sz : RlcAmSnSize) (pdu : List UInt8) (t : RlcAmStatusPdu),
      (init sz).unpack pdu = (true, t) →
      ∃ ack nacks rest, ack < cardinality sz.toNumber ∧
        (∀ m ∈ nacks, normalizeNack m = m ∧ m.nackSn < cardinality sz.toNumber) ∧
        pdu = ({ init sz with ackSn := ack, nacks := nacks }).pack ++ rest ∧
        t = ({ init sz with ackSn := ack }).pushNacks nacks) := by
  refine ⟨?_, fun sz pdu t h => unpack_eq_true h⟩
  intro s₀ ack nacks hack hnacks
  have hcanon : (({ s₀.reset with ackSn := ack }).pushNacks nacks).Canonical :=
    Canonical.pushNacks ⟨by simp, by simp⟩ nacks
  have hbound : ∀ m ∈ (({ s₀.reset with ackSn := ack }).pushNacks nacks).nacks,
      m.nackSn < cardinality s₀.snSize.toNumber :=
    nackSn_lt_pushNacks (by simp) hnacks
  refine ⟨by rw [length_pack, hcanon.packedSize_eq], ?_⟩
  have h := unpack_pack hcanon (by simp) (by simpa using hack) (by simpa using hbound)
  simpa using h

/-- The NACK of the 12-bit test vector in the unit tests (ACK_SN 2065,
NACK_SN 273) makes the round trip. -/
theorem statusPdu_roundTrip_testVector :
    (init .size12bits).unpack
        (({ (init .size12bits).reset with ackSn := 2065 }).pushNacks
          [{ RlcAmStatusNack.init with nackSn := 273 }]).pack =
      (true, ({ (init .size12bits).reset with ackSn := 2065 }).pushNacks
          [{ RlcAmStatusNack.init with nackSn := 273 }]) := by
  refine (statusPdu_roundTrip.1 (init .size12bits) 2065 [{ RlcAmStatusNack.init with nackSn := 273 }]
    (by decide) (by decide)).2.trans ?_
  decide

/-- Against element-wise equality and exact reproduction: a NACK pushed with
`nack_range = 1` but no range comes back with `nack_range = 0`, and four
zero octets are accepted while packing the result gives three. -/
theorem statusPdu_unpack_resets_and_ignores_trailing :
    ((init .size12bits).unpack (({ (init .size12bits).reset with ackSn := 10 }).pushNacks
        [{ RlcAmStatusNack.init with nackSn := 5, nackRange := 1 }]).pack).2.nacks ≠
      (({ (init .size12bits).reset with ackSn := 10 }).pushNacks
        [{ RlcAmStatusNack.init with nackSn := 5, nackRange := 1 }]).nacks ∧
    ((init .size12bits).unpack [0x00, 0x00, 0x00, 0x00]).1 = true ∧
    ((init .size12bits).unpack [0x00, 0x00, 0x00, 0x00]).2.pack ≠ [0x00, 0x00, 0x00, 0x00] := by
  decide

end RlcAmStatusPdu
end SrsRan.Rlc
