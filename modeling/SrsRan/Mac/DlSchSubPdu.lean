import Mathlib

/-!
The MAC PDU of the DL-SCH as TS 38.321 6.1.2 lays it out: a sequence of
subPDUs, each a subheader and its payload. A MAC SDU has an R/F/LCID/L
subheader whose F bit selects an 8-bit or a 16-bit L field, most significant
octet first; a fixed-size CE and padding have an R/R/LCID subheader, and
padding runs to the end of the PDU.

`encode` lays out one subPDU with the 8-bit L field exactly for SDUs shorter
than 256 octets, `parseDlSchPdu` reads a PDU back into subPDUs, and
`parseDlSchPdu_encodeAll` is the round trip for a sequence of well-formed
subPDUs with at most one padding subPDU at its end.
-/

namespace SrsRan.Mac

/-- A subPDU of the DL-SCH: a MAC SDU of a logical channel, the two CEs
`assemble_ce` writes, or padding of `len` octets after its subheader. -/
inductive DlSchSubPdu where
  | sdu (lcid : Nat) (payload : List UInt8)
  | ueConResId (id : List UInt8)
  | taCmd (octet : UInt8)
  | padding (len : Nat)
  deriving DecidableEq, Repr

namespace DlSchSubPdu

/-- The octets of a subPDU: subheader, then payload. Padding octets are zero. -/
def encode : DlSchSubPdu → List UInt8
  | .sdu lcid payload =>
    if payload.length < 256 then UInt8.ofNat lcid :: UInt8.ofNat payload.length :: payload
    else UInt8.ofNat (0x40 + lcid) :: UInt8.ofNat (payload.length / 256) :: UInt8.ofNat payload.length :: payload
  | .ueConResId id => 0x3e :: id
  | .taCmd octet => [0x3d, octet]
  | .padding len => 0x3f :: List.replicate len 0

/-- A subPDU that other subPDUs may follow: an SDU of `CCCH` to `LCID32` that
its L field can count, or a CE of the right size. -/
def WellFormed : DlSchSubPdu → Prop
  | .sdu lcid payload => lcid ≤ 32 ∧ payload.length < 2 ^ 16
  | .ueConResId id => id.length = 6
  | .taCmd _ => True
  | .padding _ => False

instance (s : DlSchSubPdu) : Decidable s.WellFormed :=
  match s with
  | .sdu lcid payload => inferInstanceAs (Decidable (lcid ≤ 32 ∧ payload.length < 2 ^ 16))
  | .ueConResId id => inferInstanceAs (Decidable (id.length = 6))
  | .taCmd _ => isTrue trivial
  | .padding _ => isFalse id

end DlSchSubPdu

/-- The octets of a sequence of subPDUs. -/
def encodeAll (subs : List DlSchSubPdu) : List UInt8 := subs.flatMap DlSchSubPdu.encode

/-- The size of the L field: one octet if F is 0, two if F is 1. -/
def lFieldSize (f : Bool) : Nat := if f then 2 else 1

/-- The value of the L field at the front of `rest`, most significant octet first. -/
def lField (f : Bool) (rest : List UInt8) : Nat :=
  if f then (rest.getD 0 0).toNat * 256 + (rest.getD 1 0).toNat else (rest.getD 0 0).toNat

/-- A PDU read into its subPDUs, or `none` where it breaks the layout: a set
R bit, a reserved LCID, or a length past the end. -/
def parseDlSchPdu : List UInt8 → Option (List DlSchSubPdu)
  | [] => some []
  | b :: rest =>
    let lcid := b.toNat % 64
    let f := decide (b.toNat ≥ 0x40)
    if b.toNat ≥ 0x80 then none
    else if lcid ≤ 32 then
      let body := rest.drop (lFieldSize f)
      let l := lField f rest
      if lFieldSize f ≤ rest.length ∧ l ≤ body.length then
        (parseDlSchPdu (body.drop l)).map (.sdu lcid (body.take l) :: ·)
      else none
    else if f then none
    else if lcid = 0x3d then
      match rest with
      | octet :: rest => (parseDlSchPdu rest).map (.taCmd octet :: ·)
      | [] => none
    else if lcid = 0x3e then
      if 6 ≤ rest.length then (parseDlSchPdu (rest.drop 6)).map (.ueConResId (rest.take 6) :: ·) else none
    else if lcid = 0x3f then some [.padding rest.length]
    else none
termination_by l => l.length
decreasing_by
  all_goals simp only [List.length_drop, List.length_cons]
  all_goals omega

/-! ## Reading back what `encode` lays out -/

/-- An octet below 256 read back as a number. -/
theorem toNat_ofNat_of_lt {n : Nat} (h : n < 256) : (UInt8.ofNat n).toNat = n := by
  simp [Nat.mod_eq_of_lt h]

theorem parseDlSchPdu_encode_sdu_append {lcid : Nat} {payload : List UInt8} (hl : lcid ≤ 32)
    (hp : payload.length < 2 ^ 16) (rest : List UInt8) :
    parseDlSchPdu ((DlSchSubPdu.sdu lcid payload).encode ++ rest) =
      (parseDlSchPdu rest).map (.sdu lcid payload :: ·) := by
  by_cases hs : payload.length < 256
  · -- an 8-bit L field
    have hb : (UInt8.ofNat lcid).toNat = lcid := toNat_ofNat_of_lt (by omega)
    have hlen : (UInt8.ofNat payload.length).toNat = payload.length := toNat_ofNat_of_lt hs
    rw [DlSchSubPdu.encode, if_pos hs, List.cons_append, List.cons_append, parseDlSchPdu]
    simp [hb, hlen, lFieldSize, lField, Nat.mod_eq_of_lt (show lcid < 64 by omega),
      show ¬ 0x80 ≤ lcid by omega, show ¬ 0x40 ≤ lcid by omega, hl]
  · -- a 16-bit L field
    have hb : (0x40 + lcid) % 256 = 0x40 + lcid := Nat.mod_eq_of_lt (by omega)
    have hhi : payload.length / 256 % 256 = payload.length / 256 := Nat.mod_eq_of_lt (by omega)
    have hL : payload.length / 256 * 256 + payload.length % 256 = payload.length := by omega
    rw [DlSchSubPdu.encode, if_neg hs, List.cons_append, List.cons_append, List.cons_append, parseDlSchPdu]
    simp [hb, hhi, hL, lFieldSize, lField, show (0x40 + lcid) % 64 = lcid by omega,
      show ¬ 0x80 ≤ 0x40 + lcid by omega, hl]

theorem parseDlSchPdu_encode_ueConResId_append {id : List UInt8} (hid : id.length = 6) (rest : List UInt8) :
    parseDlSchPdu ((DlSchSubPdu.ueConResId id).encode ++ rest) =
      (parseDlSchPdu rest).map (.ueConResId id :: ·) := by
  rw [DlSchSubPdu.encode, List.cons_append, parseDlSchPdu.eq_def]
  simp [hid, List.take_left' hid, List.drop_left' hid]

theorem parseDlSchPdu_encode_taCmd_append (octet : UInt8) (rest : List UInt8) :
    parseDlSchPdu ((DlSchSubPdu.taCmd octet).encode ++ rest) = (parseDlSchPdu rest).map (.taCmd octet :: ·) := by
  rw [DlSchSubPdu.encode, List.cons_append, List.cons_append, List.nil_append, parseDlSchPdu]
  simp

theorem parseDlSchPdu_encode_padding (len : Nat) :
    parseDlSchPdu (DlSchSubPdu.padding len).encode = some [.padding len] := by
  rw [DlSchSubPdu.encode, parseDlSchPdu.eq_def]
  simp

/-- One well-formed subPDU is read back, and reading goes on after it. -/
theorem parseDlSchPdu_encode_append {s : DlSchSubPdu} (hs : s.WellFormed) (rest : List UInt8) :
    parseDlSchPdu (s.encode ++ rest) = (parseDlSchPdu rest).map (s :: ·) := by
  cases s with
  | sdu lcid payload => exact parseDlSchPdu_encode_sdu_append hs.1 hs.2 rest
  | ueConResId id => exact parseDlSchPdu_encode_ueConResId_append hs rest
  | taCmd octet => exact parseDlSchPdu_encode_taCmd_append octet rest
  | padding _ => exact hs.elim

/-- The round trip: well-formed subPDUs, then at most one padding subPDU,
are read back from their octets. -/
theorem parseDlSchPdu_encodeAll {body : List DlSchSubPdu} (hw : ∀ s ∈ body, s.WellFormed) (pad : Option Nat) :
    parseDlSchPdu (encodeAll (body ++ pad.toList.map .padding)) = some (body ++ pad.toList.map .padding) := by
  induction body with
  | nil =>
    cases pad with
    | none => simp [encodeAll, parseDlSchPdu]
    | some len => simpa [encodeAll] using parseDlSchPdu_encode_padding len
  | cons s body ih =>
    have hs := hw s List.mem_cons_self
    have ih := ih fun t ht => hw t (List.mem_cons_of_mem s ht)
    rw [List.cons_append, encodeAll, List.flatMap_cons, parseDlSchPdu_encode_append hs, ← encodeAll, ih]
    rfl

/-- Zero octets read as SDUs of the CCCH with an L field of zero, two octets each. -/
theorem parseDlSchPdu_replicate_zero (k : Nat) :
    parseDlSchPdu (List.replicate (2 * k) 0) = some (List.replicate k (.sdu 0 [])) := by
  induction k with
  | zero => simp [parseDlSchPdu]
  | succ k ih =>
    rw [show 2 * (k + 1) = 2 * k + 1 + 1 by omega, List.replicate_succ, parseDlSchPdu.eq_def]
    simp [lFieldSize, lField, ih, List.replicate_succ]

end SrsRan.Mac
