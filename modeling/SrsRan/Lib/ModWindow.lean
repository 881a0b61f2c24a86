import Mathlib

/-!
Sequence numbers in a space of `m` values, compared relative to a moving
base: `modBase m base x` is how far `x` lies ahead of `base`, counted modulo
`m`. A sliding window is a range `[base, base + w)` of such distances.

Everything follows from one characterisation (`modBase_spec`,
`modBase_unique`): the distance is the unique `d < m` with
`(base + d) % m = x % m`. Moving the base forward by `k` subtracts `k` from
the distances of the values at least `k` ahead (`modBase_rebase`), and
values less than `n` apart, for `n` dividing `m`, fall into distinct
residues modulo `n` (`mod_eq_of_modBase_lt`): the fact that a window of
`n` values fits in `n` slots.
-/

namespace ModWindow

/-- The distance from `base` up to `x` modulo `m`: `(x - base) mod m`. -/
def modBase (m base x : Nat) : Nat := (x + (m - base % m)) % m

variable {m : Nat}

theorem modBase_spec (hm : 0 < m) (base x : Nat) :
    modBase m base x < m ∧ (base + modBase m base x) % m = x % m := by
  refine ⟨Nat.mod_lt _ hm, ?_⟩
  have hdiv := Nat.mod_add_div base m
  have hlt := Nat.mod_lt base hm
  unfold modBase
  rw [Nat.add_mod_mod]
  have hsum : base + (x + (m - base % m)) = x + m * (1 + base / m) := by
    rw [Nat.mul_add, Nat.mul_one]
    omega
  rw [hsum, Nat.add_mul_mod_self_left]

theorem modBase_lt (hm : 0 < m) (base x : Nat) : modBase m base x < m :=
  (modBase_spec hm base x).1

/-- The distance is the only one below `m` that leads from the base to `x`. -/
theorem modBase_unique (hm : 0 < m) {base x d : Nat} (hd : d < m)
    (h : (base + d) % m = x % m) : modBase m base x = d := by
  obtain ⟨hlt, hspec⟩ := modBase_spec hm base x
  have heq : base + modBase m base x ≡ base + d [MOD m] := by
    unfold Nat.ModEq
    rw [hspec, h]
  have hcancel := Nat.ModEq.add_left_cancel' base heq
  unfold Nat.ModEq at hcancel
  rwa [Nat.mod_eq_of_lt hlt, Nat.mod_eq_of_lt hd] at hcancel

@[simp] theorem modBase_self (hm : 0 < m) (base : Nat) : modBase m base base = 0 :=
  modBase_unique hm hm (by simp)

theorem modBase_mod (hm : 0 < m) (base x : Nat) : modBase m base (x % m) = modBase m base x := by
  obtain ⟨hlt, hspec⟩ := modBase_spec hm base x
  exact modBase_unique hm hlt (by rw [hspec, Nat.mod_mod])

theorem modBase_add (hm : 0 < m) (base x k : Nat) :
    modBase m base (x + k) = (modBase m base x + k) % m := by
  obtain ⟨-, hspec⟩ := modBase_spec hm base x
  apply modBase_unique hm (Nat.mod_lt _ hm)
  rw [Nat.add_mod_mod, ← Nat.add_assoc, Nat.add_mod, hspec, ← Nat.add_mod]

/-- Moving the base forward to `base'` subtracts its distance from the
distances of the values at least as far ahead. -/
theorem modBase_rebase (hm : 0 < m) {base base' x : Nat}
    (h : modBase m base base' ≤ modBase m base x) :
    modBase m base' x = modBase m base x - modBase m base base' := by
  obtain ⟨hlt, hspec⟩ := modBase_spec hm base x
  obtain ⟨-, hspec'⟩ := modBase_spec hm base base'
  apply modBase_unique hm (by omega)
  rw [Nat.add_mod, ← hspec', ← Nat.add_mod, Nat.add_assoc, Nat.add_sub_cancel' h, hspec]

/-- The values the base has moved past end up far ahead of it. -/
theorem modBase_rebase_of_lt (hm : 0 < m) {base base' x : Nat}
    (h : modBase m base x < modBase m base base') :
    modBase m base' x = m - (modBase m base base' - modBase m base x) := by
  obtain ⟨hlt, hspec⟩ := modBase_spec hm base x
  obtain ⟨hlt', hspec'⟩ := modBase_spec hm base base'
  apply modBase_unique hm (by omega)
  have hsum : base + modBase m base base' + (m - (modBase m base base' - modBase m base x)) =
      base + modBase m base x + m := by omega
  rw [Nat.add_mod, ← hspec', ← Nat.add_mod, hsum, Nat.add_mod_right, hspec]

/-- Two values below `m` at the same distance are equal. -/
theorem eq_of_modBase_eq (hm : 0 < m) {base x y : Nat} (hx : x < m) (hy : y < m)
    (h : modBase m base x = modBase m base y) : x = y := by
  have hx' := (modBase_spec hm base x).2
  have hy' := (modBase_spec hm base y).2
  rw [h] at hx'
  rw [← Nat.mod_eq_of_lt hx, ← Nat.mod_eq_of_lt hy, ← hx', hy']

/-- Values less than `n` ahead of one base, for `n` dividing `m`, that agree
modulo `n` agree modulo `m`. -/
theorem mod_eq_of_modBase_lt (hm : 0 < m) {n base x y : Nat} (hn : n ∣ m)
    (hx : modBase m base x < n) (hy : modBase m base y < n) (h : x % n = y % n) :
    x % m = y % m := by
  obtain ⟨-, hx'⟩ := modBase_spec hm base x
  obtain ⟨-, hy'⟩ := modBase_spec hm base y
  have hxn : (base + modBase m base x) % n = x % n := by
    rw [← Nat.mod_mod_of_dvd _ hn, hx', Nat.mod_mod_of_dvd _ hn]
  have hyn : (base + modBase m base y) % n = y % n := by
    rw [← Nat.mod_mod_of_dvd _ hn, hy', Nat.mod_mod_of_dvd _ hn]
  have heq : base + modBase m base x ≡ base + modBase m base y [MOD n] := by
    unfold Nat.ModEq
    rw [hxn, hyn, h]
  have hcancel := Nat.ModEq.add_left_cancel' base heq
  unfold Nat.ModEq at hcancel
  rw [Nat.mod_eq_of_lt hx, Nat.mod_eq_of_lt hy] at hcancel
  rw [← hx', ← hy', hcancel]

end ModWindow
