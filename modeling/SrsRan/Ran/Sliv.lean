import Mathlib

/-!
Start and length indicator values (`sliv.h`, TS 38.214 5.1.2.2.1 and
6.1.2.2.2) and the RIV of frequency allocation type 1
(`resource_allocation_frequency.cpp`).

The pairs of a start `S` and a length `L ≥ 1` with `S + L ≤ N` are numbered
row by row in a triangle of `N (N + 1) / 2` cells: a short allocation gets
`N (L - 1) + S`, a long one is folded into the cells the short ones leave
free. The numbering in exact arithmetic is `slivIndex`; `sliv_from_s_and_l`
computes it in `unsigned` arithmetic, which is exact while the triangle fits
in 32 bits (`N ≤ 92681`). Past that the largest values wrap around and decode
to other pairs.
-/

namespace SrsRan.Ran

/-! ## The numbering of the triangle -/

/-- The SLIV of TS 38.214, in exact arithmetic. -/
def slivIndex (N S L : Nat) : Nat :=
  if L - 1 ≤ N / 2 then N * (L - 1) + S else N * (N - L + 1) + (N - 1 - S)

/-- Its inverse: the start and the length of a SLIV. -/
def slivPair (N v : Nat) : Nat × Nat :=
  if v / N + 1 + v % N ≤ N then (v % N, v / N + 1) else (N - 1 - v % N, N - v / N + 1)

/-- The pairs the numbering covers. -/
def ValidAllocation (N S L : Nat) : Prop := 1 ≤ L ∧ S + L ≤ N

instance (N S L : Nat) : Decidable (ValidAllocation N S L) := inferInstanceAs (Decidable (_ ∧ _))

section Triangle

variable {N S L : Nat}

/-- A short allocation lies in the rows below `N / 2`. -/
theorem slivIndex_lt_of_short (hv : ValidAllocation N S L) (hshort : L - 1 ≤ N / 2) :
    2 * (N * (L - 1) + S) < N * (N + 1) := by
  obtain ⟨hL, hSL⟩ := hv
  obtain ⟨m, rfl⟩ : ∃ m, L = m + 1 := ⟨L - 1, by omega⟩
  -- `N = 2m + a`: the row is at most half the width
  obtain ⟨a, rfl⟩ : ∃ a, N = 2 * m + a := ⟨N - 2 * m, by omega⟩
  simp only [Nat.add_sub_cancel] at hshort ⊢
  nlinarith

/-- A long allocation is folded into the free cells of the rows above. -/
theorem slivIndex_lt_of_long (hv : ValidAllocation N S L) (hlong : ¬L - 1 ≤ N / 2) :
    2 * (N * (N - L + 1) + (N - 1 - S)) < N * (N + 1) := by
  obtain ⟨hL, hSL⟩ := hv
  obtain ⟨m, rfl⟩ : ∃ m, L = m + 1 := ⟨L - 1, by omega⟩
  obtain ⟨c, rfl⟩ : ∃ c, N = S + m + 1 + c := ⟨N - S - m - 1, by omega⟩
  have hrow : S + m + 1 + c - (m + 1) + 1 = S + c + 1 := by omega
  have hcol : S + m + 1 + c - 1 - S = m + c := by omega
  rw [hrow, hcol]
  -- `2 (L - 1) > N`: the fold stays below the diagonal
  have hfold : S + c + 2 ≤ m := by omega
  nlinarith

/-- Every valid pair is numbered inside the triangle. -/
theorem slivIndex_lt (hv : ValidAllocation N S L) : slivIndex N S L < N * (N + 1) / 2 := by
  have heven : N * (N + 1) % 2 = 0 := Nat.even_iff.mp (Nat.even_mul_succ_self N)
  unfold slivIndex
  split
  · have h := slivIndex_lt_of_short hv ‹_›
    omega
  · have h := slivIndex_lt_of_long hv ‹_›
    omega

/-- The numbering is read back: `slivPair` inverts `slivIndex` on valid pairs. -/
theorem slivPair_slivIndex (hv : ValidAllocation N S L) : slivPair N (slivIndex N S L) = (S, L) := by
  obtain ⟨hL, hSL⟩ := hv
  have hN : 0 < N := by omega
  unfold slivIndex slivPair
  split
  · -- row `L - 1`, column `S`
    have hdiv : (N * (L - 1) + S) / N = L - 1 := by
      rw [Nat.mul_add_div hN, Nat.div_eq_of_lt (by omega), Nat.add_zero]
    have hmod : (N * (L - 1) + S) % N = S := by
      rw [Nat.mul_add_mod, Nat.mod_eq_of_lt (by omega)]
    rw [hdiv, hmod, if_pos (by omega)]
    congr 1
    omega
  · -- row `N - L + 1`, column `N - 1 - S`, past the diagonal
    have hdiv : (N * (N - L + 1) + (N - 1 - S)) / N = N - L + 1 := by
      rw [Nat.mul_add_div hN, Nat.div_eq_of_lt (by omega), Nat.add_zero]
    have hmod : (N * (N - L + 1) + (N - 1 - S)) % N = N - 1 - S := by
      rw [Nat.mul_add_mod, Nat.mod_eq_of_lt (by omega)]
    rw [hdiv, hmod, if_neg (by omega)]
    congr 1 <;> omega

/-- So distinct pairs have distinct numbers. -/
theorem slivIndex_injective {S' L' : Nat} (hv : ValidAllocation N S L) (hv' : ValidAllocation N S' L')
    (h : slivIndex N S L = slivIndex N S' L') : S = S' ∧ L = L' := by
  have hpair := slivPair_slivIndex hv
  rw [h, slivPair_slivIndex hv'] at hpair
  exact ⟨(Prod.mk.inj hpair).1.symm, (Prod.mk.inj hpair).2.symm⟩

end Triangle

/-! ## `sliv.h` in `unsigned` arithmetic -/

/-- `sliv_from_s_and_l`. -/
def slivFromSAndL (N S L : UInt32) : UInt32 :=
  if L - 1 ≤ N / 2 then N * (L - 1) + S else N * (N - L + 1) + (N - 1 - S)

/-- `sliv_to_s_and_l` into `unsigned` outputs: the start and the length. -/
def slivToSAndL (N sliv : UInt32) : UInt32 × UInt32 :=
  let low := sliv % N
  let high := sliv / N
  if high + 1 + low ≤ N then (low, high + 1) else (N - 1 - low, N - high + 1)

/-- The triangle of `N` fits in 32 bits. -/
def TriangleFits (N : UInt32) : Prop := N.toNat * (N.toNat + 1) / 2 ≤ 2 ^ 32

instance (N : UInt32) : Decidable (TriangleFits N) := inferInstanceAs (Decidable (_ ≤ _))

section Unsigned

variable {N S L : UInt32}

theorem toNat_sub_one {x : UInt32} (h : 1 ≤ x.toNat) : (x - 1).toNat = x.toNat - 1 :=
  UInt32.toNat_sub_of_le _ _ (UInt32.le_iff_toNat_le.mpr h)

/-- Where the triangle fits, `sliv_from_s_and_l` computes the SLIV exactly. -/
theorem slivFromSAndL_toNat (hv : ValidAllocation N.toNat S.toNat L.toNat) (hfit : TriangleFits N) :
    (slivFromSAndL N S L).toNat = slivIndex N.toNat S.toNat L.toNat := by
  have hlt := slivIndex_lt hv
  obtain ⟨hL, hSL⟩ := hv
  have hL1 := toNat_sub_one hL
  unfold slivFromSAndL
  by_cases hshort : L.toNat - 1 ≤ N.toNat / 2
  · have hbound : N.toNat * (L.toNat - 1) + S.toNat < 2 ^ 32 := by
      unfold slivIndex TriangleFits at *
      rw [if_pos hshort] at hlt
      omega
    rw [if_pos (by rw [UInt32.le_iff_toNat_le, hL1, UInt32.toNat_div]; exact hshort)]
    unfold slivIndex
    rw [if_pos hshort, UInt32.toNat_add, UInt32.toNat_mul, hL1,
      Nat.mod_eq_of_lt (by omega : N.toNat * (L.toNat - 1) < 2 ^ 32), Nat.mod_eq_of_lt hbound]
  · have hbound : N.toNat * (N.toNat - L.toNat + 1) + (N.toNat - 1 - S.toNat) < 2 ^ 32 := by
      unfold slivIndex TriangleFits at *
      rw [if_neg hshort] at hlt
      omega
    have hrow : (N - L + 1).toNat = N.toNat - L.toNat + 1 := by
      rw [UInt32.toNat_add, UInt32.toNat_sub_of_le _ _ (UInt32.le_iff_toNat_le.mpr (by omega))]
      have := N.toNat_lt
      simp only [UInt32.toNat_one]
      omega
    have hcol : (N - 1 - S).toNat = N.toNat - 1 - S.toNat := by
      have hN1 := toNat_sub_one (x := N) (by omega)
      rw [UInt32.toNat_sub_of_le _ _ (UInt32.le_iff_toNat_le.mpr (by omega)), hN1]
    rw [if_neg (by rw [UInt32.le_iff_toNat_le, hL1, UInt32.toNat_div]; exact hshort)]
    unfold slivIndex
    rw [if_neg hshort, UInt32.toNat_add, UInt32.toNat_mul, hrow, hcol,
      Nat.mod_eq_of_lt (by omega : N.toNat * (N.toNat - L.toNat + 1) < 2 ^ 32), Nat.mod_eq_of_lt hbound]

/-- A triangle that fits keeps twice its width in range. -/
theorem TriangleFits.two_mul_lt (hfit : TriangleFits N) : 2 * N.toNat + 2 < 2 ^ 32 := by
  unfold TriangleFits at hfit
  by_contra hbig
  have hN : 2 ^ 31 - 1 ≤ N.toNat := by omega
  have : (2 ^ 31 - 1) * 2 ^ 31 ≤ N.toNat * (N.toNat + 1) := Nat.mul_le_mul hN (by omega)
  omega

/-- Below the size of a triangle that fits, `sliv_to_s_and_l` computes
`slivPair` exactly. -/
theorem slivToSAndL_toNat {v : UInt32} (hN : 1 ≤ N.toNat) (hfit : TriangleFits N)
    (hv : v.toNat < N.toNat * (N.toNat + 1) / 2) :
    ((slivToSAndL N v).1.toNat, (slivToSAndL N v).2.toNat) = slivPair N.toNat v.toNat := by
  have hwide := hfit.two_mul_lt
  have hlow : (v % N).toNat = v.toNat % N.toNat := UInt32.toNat_mod _ _
  have hhigh : (v / N).toNat = v.toNat / N.toNat := UInt32.toNat_div _ _
  have hmodlt : v.toNat % N.toNat < N.toNat := Nat.mod_lt _ (by omega)
  -- the row of `v` is at most `N`, so no sum below wraps
  have hrowle : v.toNat / N.toNat ≤ N.toNat := by
    apply Nat.div_le_of_le_mul
    have : N.toNat * (N.toNat + 1) / 2 ≤ N.toNat * N.toNat := by
      apply Nat.div_le_of_le_mul
      nlinarith
    omega
  have hsum : (v / N + 1 + v % N).toNat = v.toNat / N.toNat + 1 + v.toNat % N.toNat := by
    rw [UInt32.toNat_add, UInt32.toNat_add, hhigh, hlow, UInt32.toNat_one,
      Nat.mod_eq_of_lt (by omega : v.toNat / N.toNat + 1 < 2 ^ 32), Nat.mod_eq_of_lt (by omega)]
  unfold slivToSAndL slivPair
  by_cases hfold : v.toNat / N.toNat + 1 + v.toNat % N.toNat ≤ N.toNat
  · rw [if_pos (by rw [UInt32.le_iff_toNat_le, hsum]; exact hfold), if_pos hfold]
    rw [hlow, UInt32.toNat_add, hhigh, UInt32.toNat_one,
      Nat.mod_eq_of_lt (by omega : v.toNat / N.toNat + 1 < 2 ^ 32)]
  · rw [if_neg (by rw [UInt32.le_iff_toNat_le, hsum]; exact hfold), if_neg hfold]
    have hcol : (N - 1 - v % N).toNat = N.toNat - 1 - v.toNat % N.toNat := by
      rw [UInt32.toNat_sub_of_le _ _ (UInt32.le_iff_toNat_le.mpr (by rw [toNat_sub_one hN, hlow]; omega)),
        toNat_sub_one hN, hlow]
    have hrow : (N - v / N + 1).toNat = N.toNat - v.toNat / N.toNat + 1 := by
      rw [UInt32.toNat_add, UInt32.toNat_sub_of_le _ _ (UInt32.le_iff_toNat_le.mpr (by rw [hhigh]; exact hrowle)),
        hhigh, UInt32.toNat_one, Nat.mod_eq_of_lt (by omega)]
    rw [hcol, hrow]

/-- Where the triangle fits, `sliv_to_s_and_l` reads back what
`sliv_from_s_and_l` wrote. -/
theorem slivToSAndL_slivFromSAndL (hv : ValidAllocation N.toNat S.toNat L.toNat) (hfit : TriangleFits N) :
    slivToSAndL N (slivFromSAndL N S L) = (S, L) := by
  have hN : 1 ≤ N.toNat := by
    obtain ⟨hL, hSL⟩ := hv
    omega
  have hlt := slivIndex_lt hv
  have hpair := slivToSAndL_toNat hN hfit (v := slivFromSAndL N S L) (by rw [slivFromSAndL_toNat hv hfit]; exact hlt)
  rw [slivFromSAndL_toNat hv hfit, slivPair_slivIndex hv, Prod.mk.injEq] at hpair
  exact Prod.ext (UInt32.toNat_inj.mp hpair.1) (UInt32.toNat_inj.mp hpair.2)

end Unsigned

/-! ## Frequency allocation type 1 -/

/-- `ra_frequency_type1_configuration`. -/
structure RaFrequencyType1Configuration where
  nBwpSize : UInt32
  startVrb : UInt32
  lengthVrb : UInt32
  deriving DecidableEq, Repr

/-- `ra_frequency_type1_special_configuration`. -/
structure RaFrequencyType1SpecialConfiguration where
  nBwpInitial : UInt32
  nBwpActive : UInt32
  startVrb : UInt32
  lengthVrb : UInt32
  deriving DecidableEq, Repr

/-- The assertions of the RIV encoders, with the computed values their messages
print. -/
inductive RivAssertion where
  /-- "The number of contiguous allocated blocks must be greater than or equal to 1." -/
  | lengthBelowOne
  /-- "The number of contiguous allocated blocks exceeds the maximum ({})." -/
  | lengthExceedsMaximum (maximum : UInt32)
  /-- "The number of contiguous allocated blocks ({}) exceeds the maximum ({}). K={} ...",
  with the scaled length, the maximum and `K`. -/
  | specialLengthExceedsMaximum (lengthVrb maximum k : UInt32)
  deriving DecidableEq, Repr

/-- `ra_frequency_type1_get_riv`. -/
def raFrequencyType1GetRiv (config : RaFrequencyType1Configuration) : Except RivAssertion UInt32 :=
  if config.lengthVrb < 1 then .error .lengthBelowOne
  else if config.lengthVrb > config.nBwpSize - config.startVrb then
    .error (.lengthExceedsMaximum (config.nBwpSize - config.startVrb))
  else .ok (slivFromSAndL config.nBwpSize config.startVrb config.lengthVrb)

/-- `ra_frequency_type1_from_riv`. -/
def raFrequencyType1FromRiv (nBwpSize riv : UInt32) : RaFrequencyType1Configuration :=
  { nBwpSize, startVrb := (slivToSAndL nBwpSize riv).1, lengthVrb := (slivToSAndL nBwpSize riv).2 }

/-- The loop of `ra_frequency_type1_special_get_riv` that determines `K`: from
`K`, halve it until it is at most the ratio of the BWP sizes or reaches 1, one
unit of fuel per pass. -/
def determineK (ratio : UInt32) : Nat → UInt32 → UInt32
  | 0, k => k
  | fuel + 1, k => if k > 1 then (if k ≤ ratio then k else determineK ratio fuel (k / 2)) else k

/-- The `K` of a special configuration: the loop starts at `K = 8` and passes at
most three times. -/
def RaFrequencyType1SpecialConfiguration.k (config : RaFrequencyType1SpecialConfiguration) : UInt32 :=
  determineK (config.nBwpActive / config.nBwpInitial) 3 8

/-- `ra_frequency_type1_special_get_riv`. -/
def raFrequencyType1SpecialGetRiv (config : RaFrequencyType1SpecialConfiguration) :
    Except RivAssertion UInt32 :=
  let k := config.k
  let startVrb := config.startVrb / k
  let lengthVrb := config.lengthVrb / k
  if lengthVrb < 1 then .error .lengthBelowOne
  else if lengthVrb > config.nBwpInitial - startVrb then
    .error (.specialLengthExceedsMaximum lengthVrb (config.nBwpInitial - startVrb) k)
  else .ok (slivFromSAndL config.nBwpInitial startVrb lengthVrb)

/-- The `K` of the loop in closed form. -/
theorem determineK_eq (ratio : UInt32) :
    determineK ratio 3 8 =
      if 8 ≤ ratio then 8 else if 4 ≤ ratio then 4 else if 2 ≤ ratio then 2 else 1 := by
  simp only [determineK]
  split_ifs <;> first | rfl | contradiction

/-- Three passes are all the loop makes: more fuel gives the same `K`. -/
theorem determineK_fuel (ratio : UInt32) (fuel : Nat) :
    determineK ratio (fuel + 3) 8 = determineK ratio 3 8 := by
  simp only [determineK]
  split_ifs <;> first | rfl | contradiction | (cases fuel <;> rfl)

/-- The scales the loop can stop at. -/
theorem determineK_mem (ratio : UInt32) : determineK ratio 3 8 ∈ [1, 2, 4, 8] := by
  rw [determineK_eq]
  split_ifs <;> simp

/-- `K` fits the ratio unless it is 1. -/
theorem determineK_le (ratio : UInt32) : determineK ratio 3 8 ≤ ratio ∨ determineK ratio 3 8 = 1 := by
  rw [determineK_eq]
  split_ifs with h8 h4 h2
  · exact .inl h8
  · exact .inl h4
  · exact .inl h2
  · exact .inr rfl

/-- No larger scale fits the ratio. -/
theorem le_determineK {ratio k : UInt32} (hk : k ∈ [1, 2, 4, 8]) (hkr : k ≤ ratio) :
    k ≤ determineK ratio 3 8 := by
  simp only [List.mem_cons, List.not_mem_nil, or_false] at hk
  rw [determineK_eq]
  rcases hk with rfl | rfl | rfl | rfl <;> split_ifs <;> simp_all [UInt32.le_iff_toNat_le]

/-- On a valid allocation neither assertion of the RIV encoders fires. -/
theorem ValidAllocation.asserts_pass {N S L : UInt32} (hv : ValidAllocation N.toNat S.toNat L.toNat) :
    ¬L < 1 ∧ ¬L > N - S := by
  obtain ⟨hL, hSL⟩ := hv
  have hsub : (N - S).toNat = N.toNat - S.toNat :=
    UInt32.toNat_sub_of_le _ _ (UInt32.le_iff_toNat_le.mpr (by omega))
  constructor
  · rw [UInt32.lt_iff_toNat_lt, UInt32.toNat_one]
    omega
  · rw [gt_iff_lt, UInt32.lt_iff_toNat_lt, hsub]
    omega

/-- `ra_frequency_type1_get_riv` encodes every valid allocation. -/
theorem raFrequencyType1GetRiv_ok {config : RaFrequencyType1Configuration}
    (hv : ValidAllocation config.nBwpSize.toNat config.startVrb.toNat config.lengthVrb.toNat) :
    raFrequencyType1GetRiv config = .ok (slivFromSAndL config.nBwpSize config.startVrb config.lengthVrb) := by
  obtain ⟨hone, hmax⟩ := hv.asserts_pass
  unfold raFrequencyType1GetRiv
  rw [if_neg hone, if_neg hmax]

/-- Where the triangle fits, `ra_frequency_type1_from_riv` gives back the
allocation `ra_frequency_type1_get_riv` encoded. -/
theorem raFrequencyType1FromRiv_getRiv {config : RaFrequencyType1Configuration}
    (hv : ValidAllocation config.nBwpSize.toNat config.startVrb.toNat config.lengthVrb.toNat)
    (hfit : TriangleFits config.nBwpSize) :
    ∃ riv, raFrequencyType1GetRiv config = .ok riv ∧
      riv.toNat < config.nBwpSize.toNat * (config.nBwpSize.toNat + 1) / 2 ∧
      raFrequencyType1FromRiv config.nBwpSize riv = config := by
  refine ⟨_, raFrequencyType1GetRiv_ok hv, ?_, ?_⟩
  · rw [slivFromSAndL_toNat hv hfit]
    exact slivIndex_lt hv
  · unfold raFrequencyType1FromRiv
    rw [slivToSAndL_slivFromSAndL hv hfit]

/-- Twenty RBs from RB 10 of a 275-RB BWP. -/
theorem raFrequencyType1FromRiv_getRiv_275 :
    ∃ riv, raFrequencyType1GetRiv ⟨275, 10, 20⟩ = .ok riv ∧ riv.toNat < 275 * (275 + 1) / 2 ∧
      raFrequencyType1FromRiv 275 riv = ⟨275, 10, 20⟩ :=
  raFrequencyType1FromRiv_getRiv (by unfold ValidAllocation; decide) (by decide)

/-- Dividing by a `K` that divides and multiplying back is exact in `unsigned`. -/
theorem div_mul_cancel_of_dvd {x k : UInt32} (hk : k.toNat ∣ x.toNat) : x / k * k = x := by
  apply UInt32.toNat_inj.mp
  rw [UInt32.toNat_mul, UInt32.toNat_div, Nat.div_mul_cancel hk, Nat.mod_eq_of_lt x.toNat_lt]

section Special

variable {config : RaFrequencyType1SpecialConfiguration}

theorem RaFrequencyType1SpecialConfiguration.one_le_k (config : RaFrequencyType1SpecialConfiguration) :
    1 ≤ config.k.toNat := by
  have hmem := determineK_mem (config.nBwpActive / config.nBwpInitial)
  simp only [List.mem_cons, List.not_mem_nil, or_false] at hmem
  unfold RaFrequencyType1SpecialConfiguration.k
  rcases hmem with h | h | h | h <;> rw [h] <;> decide

/-- `ra_frequency_type1_special_get_riv` encodes every allocation whose scaled
form is valid over the initial BWP. -/
theorem raFrequencyType1SpecialGetRiv_ok
    (hv : ValidAllocation config.nBwpInitial.toNat (config.startVrb / config.k).toNat
      (config.lengthVrb / config.k).toNat) :
    raFrequencyType1SpecialGetRiv config =
      .ok (slivFromSAndL config.nBwpInitial (config.startVrb / config.k) (config.lengthVrb / config.k)) := by
  obtain ⟨hone, hmax⟩ := hv.asserts_pass
  unfold raFrequencyType1SpecialGetRiv
  dsimp only
  rw [if_neg hone, if_neg hmax]

/-- A special allocation on multiples of `K` is read back from its RIV over the
initial BWP and scaled by `K`. -/
theorem raFrequencyType1FromRiv_specialGetRiv (hstart : config.k.toNat ∣ config.startVrb.toNat)
    (hlength : config.k.toNat ∣ config.lengthVrb.toNat) (hk : config.k ≤ config.lengthVrb)
    (hsum : (config.lengthVrb / config.k).toNat + (config.startVrb / config.k).toNat ≤ config.nBwpInitial.toNat)
    (hfit : TriangleFits config.nBwpInitial) :
    ∃ riv, raFrequencyType1SpecialGetRiv config = .ok riv ∧
      (raFrequencyType1FromRiv config.nBwpInitial riv).startVrb * config.k = config.startVrb ∧
      (raFrequencyType1FromRiv config.nBwpInitial riv).lengthVrb * config.k = config.lengthVrb := by
  have hone : 1 ≤ (config.lengthVrb / config.k).toNat := by
    rw [UInt32.toNat_div]
    exact (Nat.one_le_div_iff (by have := config.one_le_k; omega)).mpr (UInt32.le_iff_toNat_le.mp hk)
  have hv : ValidAllocation config.nBwpInitial.toNat (config.startVrb / config.k).toNat
      (config.lengthVrb / config.k).toNat := ⟨hone, by omega⟩
  refine ⟨_, raFrequencyType1SpecialGetRiv_ok hv, ?_, ?_⟩
  all_goals
    unfold raFrequencyType1FromRiv
    rw [slivToSAndL_slivFromSAndL hv hfit]
  · exact div_mul_cancel_of_dvd hstart
  · exact div_mul_cancel_of_dvd hlength

end Special

/-! ## The round trip of SLIV and RIV -/

/-- While the triangle of `N` fits in 32 bits, a valid allocation gets a SLIV
inside the triangle, which `sliv_to_s_and_l` reads back, so distinct
allocations get distinct values; `K` is the largest of 1, 2, 4 and 8 that fits
the ratio of the BWP sizes (1 when none does), and a special allocation on
multiples of `K`, at least `K` long, is read back over the initial BWP. -/
theorem slivRiv_roundTrip :
    (∀ N S L : UInt32, ValidAllocation N.toNat S.toNat L.toNat → TriangleFits N →
      (slivFromSAndL N S L).toNat < N.toNat * (N.toNat + 1) / 2 ∧
        slivToSAndL N (slivFromSAndL N S L) = (S, L)) ∧
    (∀ N S L S' L' : UInt32, ValidAllocation N.toNat S.toNat L.toNat →
      ValidAllocation N.toNat S'.toNat L'.toNat → TriangleFits N →
      slivFromSAndL N S L = slivFromSAndL N S' L' → S = S' ∧ L = L') ∧
    (∀ ratio : UInt32, determineK ratio 3 8 ∈ [1, 2, 4, 8] ∧
      (determineK ratio 3 8 ≤ ratio ∨ determineK ratio 3 8 = 1) ∧
      ∀ k ∈ [1, 2, 4, 8], k ≤ ratio → k ≤ determineK ratio 3 8) ∧
    (∀ config : RaFrequencyType1SpecialConfiguration,
      config.k.toNat ∣ config.startVrb.toNat → config.k.toNat ∣ config.lengthVrb.toNat →
      config.k ≤ config.lengthVrb →
      (config.lengthVrb / config.k).toNat + (config.startVrb / config.k).toNat ≤ config.nBwpInitial.toNat →
      TriangleFits config.nBwpInitial →
      ∃ riv, raFrequencyType1SpecialGetRiv config = .ok riv ∧
        (raFrequencyType1FromRiv config.nBwpInitial riv).startVrb * config.k = config.startVrb ∧
        (raFrequencyType1FromRiv config.nBwpInitial riv).lengthVrb * config.k = config.lengthVrb) := by
  refine ⟨?_, ?_, ?_, ?_⟩
  · intro N S L hv hfit
    refine ⟨?_, slivToSAndL_slivFromSAndL hv hfit⟩
    rw [slivFromSAndL_toNat hv hfit]
    exact slivIndex_lt hv
  · intro N S L S' L' hv hv' hfit h
    have hpair := slivToSAndL_slivFromSAndL hv hfit
    rw [h, slivToSAndL_slivFromSAndL hv' hfit, Prod.mk.injEq] at hpair
    exact ⟨hpair.1.symm, hpair.2.symm⟩
  · intro ratio
    exact ⟨determineK_mem ratio, determineK_le ratio, fun k hk hkr => le_determineK hk hkr⟩
  · intro config hstart hlength hk hsum hfit
    exact raFrequencyType1FromRiv_specialGetRiv hstart hlength hk hsum hfit

/-- A 20-block allocation at block 10 of a 275-block BWP, and a special
allocation of 16 blocks at block 8 with `K = 8` over a 24-block initial BWP. -/
theorem slivRiv_roundTrip_bwp275 :
    ((slivFromSAndL 275 10 20).toNat < 275 * 276 / 2 ∧ slivToSAndL 275 (slivFromSAndL 275 10 20) = (10, 20)) ∧
    ∃ riv, raFrequencyType1SpecialGetRiv ⟨24, 275, 8, 16⟩ = .ok riv ∧
      (raFrequencyType1FromRiv 24 riv).startVrb * 8 = 8 ∧ (raFrequencyType1FromRiv 24 riv).lengthVrb * 8 = 16 :=
  ⟨slivRiv_roundTrip.1 275 10 20 (by decide) (by decide),
    slivRiv_roundTrip.2.2.2 ⟨24, 275, 8, 16⟩ (by decide) (by decide) (by decide) (by decide) (by decide)⟩

/-- Past `N = 92681` the triangle no longer fits: the long allocation of 46342
blocks at 46340 in a BWP of 92682 wraps around and reads back as one block at
55606. -/
theorem slivToSAndL_wraps_past_92681 :
    ValidAllocation 92682 46340 46342 ∧ ¬TriangleFits 92682 ∧
      slivToSAndL 92682 (slivFromSAndL 92682 46340 46342) = (55606, 1) := by
  decide

end SrsRan.Ran
