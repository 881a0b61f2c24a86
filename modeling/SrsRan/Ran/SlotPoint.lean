import SrsRan.Lib.CentredMod

/-!
Slot points (`slot_point.h`): a numerology `μ` and a count of slots in the
system frame of `N = 10240 · 2^μ` slots.

The counts are meant to form the cyclic group `ZMod N`: `+=` with an `int`
jump and `++` move along the cycle, and `operator-` returns the balanced
residue of the difference. The order compares a slot with the half cycle
ahead of it, so at a distance of exactly `N / 2` neither slot is lower than
the other, while the difference is `-N/2` both ways. The unsigned `+=` adds in
32 bits before it reduces modulo `N`, and `N` does not divide `2^32`, so a
jump that carries past `2^32` lands on another slot; `-=` of an `unsigned`
goes through `int` and shares that wrap for jumps from `2^31` on.
-/

namespace SrsRan.Ran

open CentredMod

/-- `NOF_SUBFRAMES_PER_FRAME`. -/
def nofSubframesPerFrame : Nat := 10

/-- `NOF_SFNS`. -/
def nofSfns : Nat := 1024

/-- `slot_point::NOF_NUMEROLOGIES`. -/
def nofNumerologies : Nat := 5

/-- The slots of a system frame at numerology `μ`. -/
def slotsPerSystemFrame (μ : Nat) : Nat := 2 ^ μ * 10240

/-- `slot_point`: the numerology tag and the count of slots in the system
frame. -/
@[ext]
structure SlotPoint where
  numerologyVal : Nat
  countVal : Nat
  deriving DecidableEq, Repr

/-- The assertions of `slot_point`. -/
inductive SlotAssertion where
  /-- "Invalid numerology idx={} passed" -/
  | invalidNumerology (numerology : Nat)
  /-- "Invalid slot count={} passed" -/
  | invalidSlotCount (count : Nat)
  /-- "Comparing slots of different numerologies" -/
  | differentNumerologies
  deriving DecidableEq, Repr

namespace SlotPoint

/-- `nof_slots_per_subframe`. -/
def nofSlotsPerSubframe (a : SlotPoint) : Nat := 1 <<< a.numerologyVal

/-- `nof_slots_per_frame`. -/
def nofSlotsPerFrame (a : SlotPoint) : Nat := a.nofSlotsPerSubframe * nofSubframesPerFrame

/-- `nof_slots_per_system_frame`. -/
def nofSlotsPerSystemFrame (a : SlotPoint) : Nat := a.nofSlotsPerFrame * nofSfns

/-- `slot_point(numerology, count)`. -/
def make (numerology count : Nat) : Except SlotAssertion SlotPoint :=
  let sp : SlotPoint := ⟨numerology, count⟩
  if numerology ≥ nofNumerologies then .error (.invalidNumerology numerology)
  else if count ≥ sp.nofSlotsPerSystemFrame then .error (.invalidSlotCount count)
  else .ok sp

/-- `slot_point()`: the invalid slot, of numerology `NOF_NUMEROLOGIES`. -/
def invalid : SlotPoint := ⟨nofNumerologies, 0⟩

/-- `operator==`. -/
def eq (a other : SlotPoint) : Bool :=
  other.countVal == a.countVal && other.numerologyVal == a.numerologyVal

/-- `operator<`: `other` lies ahead of `a` within half the system frame. -/
def lt (a other : SlotPoint) : Except SlotAssertion Bool :=
  if a.numerologyVal ≠ other.numerologyVal then .error .differentNumerologies
  else
    let v : Int := (other.countVal : Int) - a.countVal
    let n : Int := a.nofSlotsPerSystemFrame
    .ok (if v > 0 then v < n / 2 else v < (-n).tdiv 2)

/-- `operator<=`; the comparison is skipped on equal slots. -/
def le (a other : SlotPoint) : Except SlotAssertion Bool :=
  if a.eq other then .ok true else a.lt other

/-- `operator>=`. -/
def ge (a other : SlotPoint) : Except SlotAssertion Bool :=
  (a.lt other).map (!·)

/-- `operator>`; the comparison is skipped on equal slots. -/
def gt (a other : SlotPoint) : Except SlotAssertion Bool :=
  if !a.eq other then a.ge other else .ok false

/-- `operator-`: the difference, folded once into half the system frame. -/
def sub (a other : SlotPoint) : Int :=
  let d : Int := (a.countVal : Int) - other.countVal
  let n : Int := a.nofSlotsPerSystemFrame
  if d ≥ n / 2 then d - n else if d < (-n).tdiv 2 then d + n else d

/-- `operator++`. -/
def incr (a : SlotPoint) : SlotPoint :=
  if a.countVal + 1 = a.nofSlotsPerSystemFrame then { a with countVal := 0 }
  else { a with countVal := a.countVal + 1 }

/-- `operator+=(int)`: C's remainder, moved up by `N` when negative. -/
def addInt (a : SlotPoint) (jump : Int) : SlotPoint :=
  let nofSlots : Int := a.nofSlotsPerSystemFrame
  let tmp := ((a.countVal : Int) + jump).tmod nofSlots
  { a with countVal := (tmp + if tmp < 0 then nofSlots else 0).toNat }

/-- `operator+=(Unsigned)` at `unsigned`: the sum is taken in 32 bits, then
reduced. -/
def addUnsigned (a : SlotPoint) (jump : UInt32) : SlotPoint :=
  { a with countVal := (a.countVal + jump.toNat) % 2 ^ 32 % a.nofSlotsPerSystemFrame }

/-- `operator-=(uint32_t)`: `+= -static_cast<int>(jump)`, the cast reading
the 32 bits in two's complement. -/
def subUnsigned (a : SlotPoint) (jump : UInt32) : SlotPoint :=
  a.addInt (-((jump.toNat : Int).bmod (2 ^ 32)))

/-- `operator-=(int)`. -/
def subInt (a : SlotPoint) (jump : Int) : SlotPoint :=
  a.addInt (-jump)

/-- `set_slot_numerology`: the count is shifted to the new numerology and the
slot built again. -/
def setSlotNumerology (sl : SlotPoint) (newNumerology : Nat) : Except SlotAssertion SlotPoint :=
  let oldNumerology := sl.numerologyVal
  if oldNumerology > newNumerology then
    make newNumerology (sl.countVal >>> (oldNumerology - newNumerology))
  else if oldNumerology < newNumerology then
    make newNumerology (sl.countVal <<< (newNumerology - oldNumerology) % 2 ^ 32)
  else .ok sl

/-- The slot points of numerology `μ` that the constructors build. -/
def IsValid (μ : Nat) (a : SlotPoint) : Prop :=
  μ < nofNumerologies ∧ a.numerologyVal = μ ∧ a.countVal < slotsPerSystemFrame μ

instance (μ : Nat) (a : SlotPoint) : Decidable (a.IsValid μ) := inferInstanceAs (Decidable (_ ∧ _))

/-- A slot's position on the cycle of its system frame. -/
def toZMod (μ : Nat) (a : SlotPoint) : ZMod (slotsPerSystemFrame μ) := a.countVal

/-! ### The system frame -/

theorem slotsPerSystemFrame_pos (μ : Nat) : 0 < slotsPerSystemFrame μ := by
  unfold slotsPerSystemFrame
  positivity

theorem slotsPerSystemFrame_even (μ : Nat) : slotsPerSystemFrame μ % 2 = 0 := by
  unfold slotsPerSystemFrame
  rw [show 2 ^ μ * 10240 = 2 * (2 ^ μ * 5120) by ring, Nat.mul_mod_right]

theorem nofSlotsPerSystemFrame_eq (a : SlotPoint) :
    a.nofSlotsPerSystemFrame = slotsPerSystemFrame a.numerologyVal := by
  unfold nofSlotsPerSystemFrame nofSlotsPerFrame nofSlotsPerSubframe slotsPerSystemFrame
  rw [Nat.shiftLeft_eq, Nat.one_mul, Nat.mul_assoc]
  rfl

theorem IsValid.nofSlots {μ : Nat} {a : SlotPoint} (ha : a.IsValid μ) :
    a.nofSlotsPerSystemFrame = slotsPerSystemFrame μ := by
  rw [nofSlotsPerSystemFrame_eq, ha.2.1]

/-- The constructor accepts exactly the valid slot points. -/
theorem make_ok {μ c : Nat} (hμ : μ < nofNumerologies) (hc : c < slotsPerSystemFrame μ) :
    make μ c = .ok ⟨μ, c⟩ := by
  unfold make
  rw [if_neg (by omega), if_neg (by rw [nofSlotsPerSystemFrame_eq]; exact Nat.not_le.mpr hc)]

/-! ### Moving along the cycle -/

@[simp] theorem addInt_numerologyVal (a : SlotPoint) (k : Int) :
    (a.addInt k).numerologyVal = a.numerologyVal := rfl

@[simp] theorem addUnsigned_numerologyVal (a : SlotPoint) (j : UInt32) :
    (a.addUnsigned j).numerologyVal = a.numerologyVal := rfl

theorem addInt_countVal (a : SlotPoint) (k : Int) :
    ((a.addInt k).countVal : Int) = ((a.countVal : Int) + k) % (a.nofSlotsPerSystemFrame : Int) := by
  have hpos : (0 : Int) < a.nofSlotsPerSystemFrame := by
    rw [nofSlotsPerSystemFrame_eq]
    exact_mod_cast slotsPerSystemFrame_pos _
  -- the count is C's remainder put back into range, which is the Euclidean one
  have hwrap := wrapRem_eq_emod hpos ((a.countVal : Int) + k)
  unfold wrapRem at hwrap
  unfold addInt
  dsimp only
  rw [hwrap, Int.toNat_of_nonneg (Int.emod_nonneg _ hpos.ne')]

section Cycle

variable {μ : Nat} {a b : SlotPoint}

theorem addInt_isValid (ha : a.IsValid μ) (k : Int) : (a.addInt k).IsValid μ := by
  obtain ⟨hμ, hnum, hc⟩ := ha
  refine ⟨hμ, hnum, ?_⟩
  have hcount := addInt_countVal a k
  rw [nofSlotsPerSystemFrame_eq, hnum] at hcount
  have hlt := Int.emod_lt_of_pos ((a.countVal : Int) + k)
    (by exact_mod_cast slotsPerSystemFrame_pos μ : (0 : Int) < slotsPerSystemFrame μ)
  omega

/-- `+=` with an `int` jump is addition in `ZMod N`. -/
theorem toZMod_addInt (ha : a.IsValid μ) (k : Int) : toZMod μ (a.addInt k) = toZMod μ a + k := by
  have hcount := addInt_countVal a k
  rw [ha.nofSlots] at hcount
  unfold toZMod
  rw [← Int.cast_natCast, hcount, ZMod.intCast_mod, Int.cast_add, Int.cast_natCast]

/-- Two valid slots at the same place of the cycle are the same slot. -/
theorem eq_of_toZMod_eq (ha : a.IsValid μ) (hb : b.IsValid μ) (h : toZMod μ a = toZMod μ b) :
    a = b := by
  have hmod := (ZMod.natCast_eq_natCast_iff' _ _ _).mp h
  rw [Nat.mod_eq_of_lt ha.2.2, Nat.mod_eq_of_lt hb.2.2] at hmod
  exact SlotPoint.ext (ha.2.1.trans hb.2.1.symm) hmod

theorem incr_isValid (ha : a.IsValid μ) : a.incr.IsValid μ := by
  obtain ⟨hμ, hnum, hc⟩ := ha
  unfold incr
  rw [nofSlotsPerSystemFrame_eq, hnum]
  split_ifs
  · exact ⟨hμ, rfl, slotsPerSystemFrame_pos μ⟩
  · exact ⟨hμ, rfl, show a.countVal + 1 < slotsPerSystemFrame μ by omega⟩

/-- `++` is a step of one along the cycle. -/
theorem toZMod_incr (ha : a.IsValid μ) : toZMod μ a.incr = toZMod μ a + 1 := by
  unfold incr toZMod
  rw [ha.nofSlots]
  split_ifs with hwrap
  · -- the count reaches `N`, which is `0` on the cycle
    dsimp only
    rw [← Nat.cast_add_one, hwrap, ZMod.natCast_self, Nat.cast_zero]
  · dsimp only
    rw [Nat.cast_add_one]

/-- `++a` is `a + 1`. -/
theorem incr_eq_addInt_one (ha : a.IsValid μ) : a.incr = a.addInt 1 := by
  apply eq_of_toZMod_eq (incr_isValid ha) (addInt_isValid ha 1)
  rw [toZMod_incr ha, toZMod_addInt ha, Int.cast_one]

/-- Without a carry past `2^32`, the unsigned `+=` advances by the jump
modulo `N`. -/
theorem addUnsigned_countVal (ha : a.IsValid μ) {j : UInt32} (hj : a.countVal + j.toNat < 2 ^ 32) :
    (a.addUnsigned j).countVal = (a.countVal + j.toNat) % slotsPerSystemFrame μ := by
  unfold addUnsigned
  rw [ha.nofSlots, Nat.mod_eq_of_lt hj]

/-- Below `2^31`, the unsigned `-=` moves back by the jump modulo `N`. -/
theorem subUnsigned_countVal (ha : a.IsValid μ) {j : UInt32} (hj : j.toNat < 2 ^ 31) :
    ((a.subUnsigned j).countVal : Int) = ((a.countVal : Int) - j.toNat) % (slotsPerSystemFrame μ : Int) := by
  -- `static_cast<int>` keeps a jump below `2^31`
  have hcast : ((j.toNat : Int)).bmod (2 ^ 32) = j.toNat := Int.bmod_eq_of_le (by omega) (by omega)
  unfold subUnsigned
  rw [hcast, addInt_countVal, ha.nofSlots, Int.sub_eq_add_neg]

end Cycle

/-! ### Differences and the order -/

section Order

variable {μ : Nat} {a b : SlotPoint}

/-- `operator-` folds the difference of the counts once. -/
theorem sub_eq_foldHalf (ha : a.IsValid μ) :
    a.sub b = foldHalf (slotsPerSystemFrame μ) ((a.countVal : Int) - b.countVal) := by
  unfold sub
  dsimp only
  rw [ha.nofSlots, neg_tdiv_two (by positivity)]
  rfl

/-- Between valid slots the fold is the balanced residue. -/
theorem sub_eq_bmod (ha : a.IsValid μ) (hb : b.IsValid μ) :
    a.sub b = ((a.countVal : Int) - b.countVal).bmod (slotsPerSystemFrame μ) := by
  have hca := ha.2.2
  have hcb := hb.2.2
  rw [sub_eq_foldHalf ha]
  exact foldHalf_eq_bmod (slotsPerSystemFrame_even μ) (by omega) (by omega)

/-- The difference stands for the difference on the cycle. -/
theorem intCast_sub (ha : a.IsValid μ) (hb : b.IsValid μ) :
    ((a.sub b : Int) : ZMod (slotsPerSystemFrame μ)) = toZMod μ a - toZMod μ b := by
  rw [sub_eq_bmod ha hb, intCast_bmod, Int.cast_sub, Int.cast_natCast, Int.cast_natCast]
  rfl

/-- `(a + k) - a = k` for every `k` within half the cycle. -/
theorem addInt_sub (ha : a.IsValid μ) {k : Int} (hlo : -((slotsPerSystemFrame μ : Int) / 2) ≤ k)
    (hhi : k < (slotsPerSystemFrame μ : Int) / 2) : (a.addInt k).sub a = k := by
  have hk := addInt_isValid ha k
  -- both sides are balanced residues with the same image on the cycle
  have hcan : ((a.addInt k).sub a).bmod (slotsPerSystemFrame μ) = (a.addInt k).sub a := by
    rw [sub_eq_bmod hk ha, Int.bmod_bmod]
  apply eq_of_intCast_eq hcan (Int.bmod_eq_of_le hlo (by omega))
  rw [intCast_sub hk ha, toZMod_addInt ha]
  ring

/-- `a + (b - a) = b`. -/
theorem addInt_sub_self (ha : a.IsValid μ) (hb : b.IsValid μ) : a.addInt (b.sub a) = b := by
  apply eq_of_toZMod_eq (addInt_isValid ha _) hb
  rw [toZMod_addInt ha, intCast_sub hb ha]
  ring

/-- The difference lies in `[-N/2, N/2)`. -/
theorem sub_mem_half (ha : a.IsValid μ) (hb : b.IsValid μ) :
    -((slotsPerSystemFrame μ : Int) / 2) ≤ a.sub b ∧ a.sub b < (slotsPerSystemFrame μ : Int) / 2 := by
  have heven := slotsPerSystemFrame_even μ
  have hlt := Int.bmod_lt (x := (a.countVal : Int) - b.countVal) (slotsPerSystemFrame_pos μ)
  rw [sub_eq_bmod ha hb]
  exact ⟨Int.le_bmod (slotsPerSystemFrame_pos μ), by omega⟩

theorem sub_self (ha : a.IsValid μ) : a.sub a = 0 := by
  have hpos := slotsPerSystemFrame_pos μ
  have heven := slotsPerSystemFrame_even μ
  rw [sub_eq_foldHalf ha, Int.sub_self]
  unfold foldHalf
  split_ifs <;> omega

theorem eq_iff : a.eq b = true ↔ a = b := by
  unfold eq
  rw [Bool.and_eq_true, beq_iff_eq, beq_iff_eq, SlotPoint.ext_iff]
  exact ⟨fun ⟨hc, hn⟩ => ⟨hn.symm, hc.symm⟩, fun ⟨hn, hc⟩ => ⟨hc.symm, hn.symm⟩⟩

/-- `operator<` asks whether the folded difference `b - a` is positive. -/
theorem lt_eq (ha : a.IsValid μ) (hb : b.IsValid μ) : a.lt b = .ok (decide (0 < b.sub a)) := by
  have hca := ha.2.2
  have hcb := hb.2.2
  have hhalf : halfLt (slotsPerSystemFrame μ) ((b.countVal : Int) - a.countVal) = decide (0 < b.sub a) := by
    rw [sub_eq_foldHalf hb, Bool.eq_iff_iff, decide_eq_true_iff]
    exact halfLt_iff_foldHalf (by omega) (by omega)
  unfold lt
  dsimp only
  rw [if_neg (by rw [ha.2.1, hb.2.1]; exact not_not.mpr rfl), ha.nofSlots, neg_tdiv_two (by positivity)]
  exact congrArg Except.ok hhalf

/-- `operator>` holds of distinct slots that are not lower. -/
theorem gt_eq (ha : a.IsValid μ) (hb : b.IsValid μ) :
    a.gt b = .ok (decide (a ≠ b ∧ ¬0 < b.sub a)) := by
  unfold gt ge
  by_cases hab : a = b
  · rw [eq_iff.mpr hab]
    simp [hab]
  · have hne : a.eq b = false := by
      rw [← Bool.not_eq_true, eq_iff]
      exact hab
    rw [hne, lt_eq ha hb]
    simp only [Bool.not_false, if_true, Except.map, ne_eq, hab, not_false_eq_true, true_and, decide_not]

/-- Exactly one of `a < b`, `a == b` and `a > b` holds. -/
theorem lt_eq_gt_exclusive (ha : a.IsValid μ) (hb : b.IsValid μ) :
    (a.lt b = .ok true ∧ a.eq b = false ∧ a.gt b = .ok false) ∨
      (a.lt b = .ok false ∧ a.eq b = true ∧ a.gt b = .ok false) ∨
      (a.lt b = .ok false ∧ a.eq b = false ∧ a.gt b = .ok true) := by
  rw [lt_eq ha hb, gt_eq ha hb]
  by_cases hab : a = b
  · subst hab
    right; left
    simp [sub_self ha, eq_iff]
  · have hne : a.eq b = false := by
      rw [← Bool.not_eq_true, eq_iff]
      exact hab
    by_cases hpos : 0 < b.sub a
    · left
      simp [hpos, hne]
    · right; right
      simp [hpos, hne, hab]

/-- A negative difference comes from a lower slot, or from a slot exactly half
the cycle away. -/
theorem sub_neg_iff (ha : a.IsValid μ) (hb : b.IsValid μ) :
    a.sub b < 0 ↔ a.lt b = .ok true ∨ a.sub b = -((slotsPerSystemFrame μ : Int) / 2) := by
  have hca := ha.2.2
  have hcb := hb.2.2
  have hflip : (b.countVal : Int) - a.countVal = -((a.countVal : Int) - b.countVal) := by ring
  rw [lt_eq ha hb, Except.ok.injEq, decide_eq_true_iff, sub_eq_foldHalf ha, sub_eq_foldHalf hb, hflip]
  exact foldHalf_neg_iff (slotsPerSystemFrame_even μ) (by omega) (by omega)

end Order

/-! ### Changing the numerology -/

/-- Shifting a count up to a finer numerology and back gives the slot back. -/
theorem setSlotNumerology_roundTrip {μ₁ μ₂ : Nat} {t : SlotPoint} (ht : t.IsValid μ₁) (hlt : μ₁ < μ₂)
    (hμ₂ : μ₂ < nofNumerologies) :
    (t.setSlotNumerology μ₂ >>= fun t' => t'.setSlotNumerology μ₁) = .ok t := by
  obtain ⟨-, hnum, hc⟩ := ht
  have hscale : 2 ^ μ₁ * 2 ^ (μ₂ - μ₁) = 2 ^ μ₂ := by rw [← Nat.pow_add, Nat.add_sub_cancel' hlt.le]
  -- the finer count stays inside the finer system frame, which fits in 32 bits
  have hfine : t.countVal * 2 ^ (μ₂ - μ₁) < slotsPerSystemFrame μ₂ := by
    unfold slotsPerSystemFrame at hc ⊢
    rw [← hscale]
    nlinarith [Nat.two_pow_pos (μ₂ - μ₁)]
  have hfits : slotsPerSystemFrame μ₂ ≤ 2 ^ 32 := by
    unfold slotsPerSystemFrame
    have : 2 ^ μ₂ ≤ 2 ^ 4 := Nat.pow_le_pow_right (by omega) (by unfold nofNumerologies at hμ₂; omega)
    omega
  have hup : t.setSlotNumerology μ₂ = .ok ⟨μ₂, t.countVal * 2 ^ (μ₂ - μ₁)⟩ := by
    unfold setSlotNumerology
    rw [if_neg (by omega), if_pos (by omega), hnum, Nat.shiftLeft_eq, Nat.mod_eq_of_lt (by omega)]
    exact make_ok hμ₂ hfine
  have hdown : SlotPoint.setSlotNumerology ⟨μ₂, t.countVal * 2 ^ (μ₂ - μ₁)⟩ μ₁ = .ok t := by
    unfold setSlotNumerology
    dsimp only
    rw [if_pos hlt, Nat.shiftRight_eq_div_pow, Nat.mul_div_cancel _ (Nat.two_pow_pos _),
      make_ok (hlt.trans hμ₂) hc]
    exact congrArg Except.ok (SlotPoint.ext hnum.symm rfl)
  rw [hup]
  exact hdown

/-! ### Slot arithmetic as a whole -/

/-- On valid slots of one numerology, `int` jumps within half the cycle are
read back by the difference, which lies in `[-N/2, N/2)`; `++` is `+ 1`; the
unsigned `+=` advances modulo `N` while the 32-bit sum does not carry, and the
unsigned `-=` moves back modulo `N` for jumps below `2^31`; exactly one of
`<`, `==`, `>` holds; `a < b` iff `b - a > 0`, and `a - b < 0` iff `a < b` or
`a - b = -N/2`; and a numerology round trip through a finer one is exact. -/
theorem slotPoint_cyclic (μ : Nat) (a b : SlotPoint) (ha : a.IsValid μ) (hb : b.IsValid μ) :
    (∀ k : Int, -((slotsPerSystemFrame μ : Int) / 2) ≤ k → k < (slotsPerSystemFrame μ : Int) / 2 →
      (a.addInt k).sub a = k) ∧
    a.addInt (b.sub a) = b ∧
    (-((slotsPerSystemFrame μ : Int) / 2) ≤ a.sub b ∧ a.sub b < (slotsPerSystemFrame μ : Int) / 2) ∧
    a.incr = a.addInt 1 ∧
    (∀ j : UInt32, a.countVal + j.toNat < 2 ^ 32 →
      (a.addUnsigned j).countVal = (a.countVal + j.toNat) % slotsPerSystemFrame μ) ∧
    (∀ j : UInt32, j.toNat < 2 ^ 31 →
      ((a.subUnsigned j).countVal : Int) = ((a.countVal : Int) - j.toNat) % (slotsPerSystemFrame μ : Int)) ∧
    ((a.lt b = .ok true ∧ a.eq b = false ∧ a.gt b = .ok false) ∨
      (a.lt b = .ok false ∧ a.eq b = true ∧ a.gt b = .ok false) ∨
      (a.lt b = .ok false ∧ a.eq b = false ∧ a.gt b = .ok true)) ∧
    (a.lt b = .ok true ↔ 0 < b.sub a) ∧
    (a.sub b < 0 ↔ a.lt b = .ok true ∨ a.sub b = -((slotsPerSystemFrame μ : Int) / 2)) ∧
    (∀ μ₂, μ < μ₂ → μ₂ < nofNumerologies →
      (a.setSlotNumerology μ₂ >>= fun t => t.setSlotNumerology μ) = .ok a) := by
  have hlt : a.lt b = .ok true ↔ 0 < b.sub a := by
    rw [lt_eq ha hb, Except.ok.injEq, decide_eq_true_iff]
  exact ⟨fun k hlo hhi => addInt_sub ha hlo hhi, addInt_sub_self ha hb, sub_mem_half ha hb,
    incr_eq_addInt_one ha, fun j hj => addUnsigned_countVal ha hj, fun j hj => subUnsigned_countVal ha hj,
    lt_eq_gt_exclusive ha hb, hlt, sub_neg_iff ha hb,
    fun μ₂ hμ hμ₂ => setSlotNumerology_roundTrip ha hμ hμ₂⟩

/-- Slots 10 and 20 at 15 kHz: `10 + (20 - 10)` is slot 20, and 10 is lower. -/
theorem slotPoint_cyclic_scs15 :
    SlotPoint.addInt ⟨0, 10⟩ (SlotPoint.sub ⟨0, 20⟩ ⟨0, 10⟩) = ⟨0, 20⟩ ∧
      (SlotPoint.lt ⟨0, 10⟩ ⟨0, 20⟩ = .ok true ↔ 0 < SlotPoint.sub ⟨0, 20⟩ ⟨0, 10⟩) :=
  have h := slotPoint_cyclic 0 ⟨0, 10⟩ ⟨0, 20⟩ (by decide) (by decide)
  ⟨h.2.1, h.2.2.2.2.2.2.2.1⟩

/-- At 15 kHz (`N = 10240`), slots 0 and 5120 are half the cycle apart:
neither is lower, each is greater than the other, and the difference is
negative both ways; and an unsigned jump of `2^32 - 1` from slot 1 lands on
slot 0, not on `(1 + 2^32 - 1) mod N = 4096`, while `-=` of the same jump
lands on slot 2, not on `(1 - (2^32 - 1)) mod N = 6146`. -/
theorem slotPoint_half_cycle_and_unsigned_wrap :
    SlotPoint.lt ⟨0, 0⟩ ⟨0, 5120⟩ = .ok false ∧ SlotPoint.lt ⟨0, 5120⟩ ⟨0, 0⟩ = .ok false ∧
      SlotPoint.gt ⟨0, 0⟩ ⟨0, 5120⟩ = .ok true ∧ SlotPoint.gt ⟨0, 5120⟩ ⟨0, 0⟩ = .ok true ∧
      SlotPoint.sub ⟨0, 0⟩ ⟨0, 5120⟩ = -5120 ∧ SlotPoint.sub ⟨0, 5120⟩ ⟨0, 0⟩ = -5120 ∧
      (SlotPoint.addUnsigned ⟨0, 1⟩ 4294967295).countVal = 0 ∧
      (1 + 4294967295) % slotsPerSystemFrame 0 = 4096 ∧
      (SlotPoint.subUnsigned ⟨0, 1⟩ 4294967295).countVal = 2 ∧
      (1 - 4294967295 : Int) % (slotsPerSystemFrame 0 : Int) = 6146 := by
  decide

end SlotPoint

end SrsRan.Ran
