import Mathlib

/-!
Counters on a cycle of `m` values as C computes them in `int`. The remainder
`%` truncates towards zero, and one addition of `m` moves it into `[0, m)`
(`wrapRem`); a difference of two counters is folded once into
`[-(m/2), m/2)` (`foldHalf`); and a strict order on the cycle reads the sign
of a difference on the half cycle (`halfLt`).

Each is a standard residue: `wrapRem` is `Int.emod`, and for even `m`
`foldHalf` is the balanced residue `Int.bmod`, of which `halfLt` tests
positivity. Balanced residues are the canonical representatives of `ZMod m`
(`eq_of_intCast_eq`), so arithmetic on such counters is arithmetic in `ZMod m`.
-/

namespace CentredMod

/-- `x % m` in C, moved into `[0, m)`: `t + (t < 0 ? m : 0)`. -/
def wrapRem (m x : Int) : Int :=
  let t := x.tmod m
  t + if t < 0 then m else 0

theorem wrapRem_eq_emod {m : Int} (hm : 0 < m) (x : Int) : wrapRem m x = x % m := by
  have h0 := Int.emod_nonneg x (by omega : m ≠ 0)
  have h1 := Int.emod_lt_of_pos x hm
  have habs : (m.natAbs : Int) = m := Int.natAbs_of_nonneg hm.le
  unfold wrapRem
  rw [Int.tmod_eq_emod]
  -- the truncated remainder is the Euclidean one, less `m` when it went negative
  split_ifs <;> simp only [Nat.cast_zero, habs] <;> omega

/-- C's `-m / 2` truncates, which for `m ≥ 0` is `-(m / 2)`. -/
theorem neg_tdiv_two {m : Int} (hm : 0 ≤ m) : (-m).tdiv 2 = -(m / 2) := by
  rw [Int.neg_tdiv, Int.tdiv_eq_ediv_of_nonneg hm]

/-- A difference folded once into `[-(m/2), m/2)`. -/
def foldHalf (m d : Int) : Int :=
  if d ≥ m / 2 then d - m else if d < -(m / 2) then d + m else d

/-- Within one cycle either side of zero, the Euclidean residue is `d` or
`d + m`. -/
theorem emod_of_lt_of_neg_lt {m : Nat} {d : Int} (hlo : -m < d) (hhi : d < m) :
    d % m = if 0 ≤ d then d else d + m := by
  split_ifs with hd
  · exact Int.emod_eq_of_lt hd hhi
  · rw [← Int.add_emod_right]
    exact Int.emod_eq_of_lt (by omega) (by omega)

theorem foldHalf_eq_bmod {m : Nat} (heven : m % 2 = 0) {d : Int} (hlo : -m < d) (hhi : d < m) :
    foldHalf m d = d.bmod m := by
  have hhalf : ((m : Int) + 1) / 2 = (m : Int) / 2 := by omega
  rw [Int.bmod_def, emod_of_lt_of_neg_lt hlo hhi, hhalf]
  unfold foldHalf
  split_ifs <;> omega

/-- Folding is antisymmetric except at `-(m/2)`, which is its own negation
on the cycle: a negative difference is either the negation of a positive one
or exactly half the cycle. -/
theorem foldHalf_neg_iff {m : Nat} (heven : m % 2 = 0) {d : Int} (hlo : -m < d) (hhi : d < m) :
    foldHalf m d < 0 ↔ 0 < foldHalf m (-d) ∨ foldHalf m d = -((m : Int) / 2) := by
  unfold foldHalf
  split_ifs <;> omega

/-- `v` lies ahead within the half cycle: `v > 0 ? v < m/2 : v < -m/2`. -/
def halfLt (m v : Int) : Bool := if v > 0 then v < m / 2 else v < -(m / 2)

/-- Within one cycle, `halfLt` tests the sign of the folded difference. -/
theorem halfLt_iff_foldHalf {m v : Int} (hlo : -m < v) (hhi : v < m) :
    halfLt m v = true ↔ 0 < foldHalf m v := by
  unfold halfLt foldHalf
  split_ifs <;> simp only [decide_eq_true_eq] <;> omega

/-- A balanced residue stands for the same element of `ZMod m`. -/
theorem intCast_bmod (x : Int) (m : Nat) : ((x.bmod m : Int) : ZMod m) = x :=
  (ZMod.intCast_eq_intCast_iff' _ _ m).mpr Int.bmod_emod

/-- Balanced residues are canonical: two of them with the same image in
`ZMod m` are equal. -/
theorem eq_of_intCast_eq {m : Nat} {x y : Int} (hx : x.bmod m = x) (hy : y.bmod m = y)
    (h : (x : ZMod m) = y) : x = y := by
  have hmod : x % m = y % m := (ZMod.intCast_eq_intCast_iff' x y m).mp h
  rw [← hx, ← hy, ← Int.emod_bmod, hmod, Int.emod_bmod]

end CentredMod
