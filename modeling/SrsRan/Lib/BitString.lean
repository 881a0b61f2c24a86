import Mathlib

/-!
Bit strings as lists of booleans, most significant bit first: the `n` low
bits of a number, the number a bit string denotes, and the bits of a run of
octets. A bit-stream writer is correct when the bits of its octets are the
fields it was given, one after the other; these are the lemmas that split
and join such fields.
-/

namespace BitString

/-- The `n` low bits of `v`, most significant first. -/
def msbBits : Nat → Nat → List Bool
  | 0, _ => []
  | n + 1, v => v.testBit n :: msbBits n v

/-- The number a bit string denotes, most significant bit first. -/
def ofMsbBits : List Bool → Nat
  | [] => 0
  | b :: bs => b.toNat * 2 ^ bs.length + ofMsbBits bs

/-- The bits of a run of octets, each most significant bit first. -/
def octetBits (bs : List UInt8) : List Bool :=
  bs.flatMap fun b => msbBits 8 b.toNat

@[simp] theorem msbBits_zero (v : Nat) : msbBits 0 v = [] := rfl

@[simp] theorem length_msbBits (n v : Nat) : (msbBits n v).length = n := by
  induction n with
  | zero => rfl
  | succ n ih => simp [msbBits, ih]

@[simp] theorem ofMsbBits_nil : ofMsbBits [] = 0 := rfl

theorem ofMsbBits_append (xs ys : List Bool) :
    ofMsbBits (xs ++ ys) = ofMsbBits xs * 2 ^ ys.length + ofMsbBits ys := by
  induction xs with
  | nil => simp
  | cons b xs ih =>
    simp only [List.cons_append, ofMsbBits, List.length_append, ih, pow_add]
    ring

theorem ofMsbBits_lt (bs : List Bool) : ofMsbBits bs < 2 ^ bs.length := by
  induction bs with
  | nil => simp
  | cons b bs ih =>
    simp only [ofMsbBits, List.length_cons, pow_succ]
    cases b <;> simp <;> omega

@[simp] theorem ofMsbBits_replicate_false (n : Nat) :
    ofMsbBits (List.replicate n false) = 0 := by
  induction n with
  | zero => rfl
  | succ n ih => simp [List.replicate_succ, ofMsbBits, ih]

theorem ofMsbBits_msbBits (n v : Nat) : ofMsbBits (msbBits n v) = v % 2 ^ n := by
  induction n with
  | zero => simp [Nat.mod_one]
  | succ n ih =>
    simp only [msbBits, ofMsbBits, length_msbBits, ih, Nat.mod_pow_succ,
      Nat.testBit_eq_decide_div_mod_eq]
    have h := Nat.mod_two_eq_zero_or_one (v / 2 ^ n)
    rcases h with h | h <;> simp [h]
    ring

/-- Only the low `m` bits of a number reach its `n ≤ m` low bits. -/
theorem msbBits_mod_of_le {n m : Nat} (h : n ≤ m) (v : Nat) :
    msbBits n (v % 2 ^ m) = msbBits n v := by
  induction n with
  | zero => rfl
  | succ n ih =>
    simp only [msbBits, Nat.testBit_mod_two_pow, ih (by omega)]
    simp [show n < m by omega]

@[simp] theorem msbBits_mod (n v : Nat) : msbBits n (v % 2 ^ n) = msbBits n v :=
  msbBits_mod_of_le le_rfl v

theorem msbBits_congr {n v v' : Nat} (h : v % 2 ^ n = v' % 2 ^ n) :
    msbBits n v = msbBits n v' := by
  rw [← msbBits_mod, h, msbBits_mod]

/-- A field of `a + b` bits is its `a` high bits followed by its `b` low ones. -/
theorem msbBits_add (a b v : Nat) : msbBits (a + b) v = msbBits a (v / 2 ^ b) ++ msbBits b v := by
  induction a with
  | zero => simp
  | succ a ih =>
    rw [Nat.add_right_comm, msbBits, ih, msbBits, Nat.testBit_div_two_pow]
    rfl

theorem msbBits_two_pow_mul_add (a b p x : Nat) (hx : x < 2 ^ b) :
    msbBits (a + b) (2 ^ b * p + x) = msbBits a p ++ msbBits b x := by
  have hdiv : (2 ^ b * p + x) / 2 ^ b = p := by
    rw [Nat.add_comm, Nat.add_mul_div_left _ _ (Nat.two_pow_pos b), Nat.div_eq_of_lt hx,
      Nat.zero_add]
  have hmod : (2 ^ b * p + x) % 2 ^ b = x % 2 ^ b := by
    rw [Nat.add_comm, Nat.add_mul_mod_self_left]
  rw [msbBits_add, hdiv, msbBits_congr hmod]

@[simp] theorem msbBits_zero_val (n : Nat) : msbBits n 0 = List.replicate n false := by
  induction n with
  | zero => rfl
  | succ n ih => simp [msbBits, ih, List.replicate_succ]

theorem msbBits_ofMsbBits (bs : List Bool) : msbBits bs.length (ofMsbBits bs) = bs := by
  induction bs with
  | nil => rfl
  | cons b bs ih =>
    have h := msbBits_two_pow_mul_add 1 bs.length b.toNat (ofMsbBits bs) (ofMsbBits_lt bs)
    rw [List.length_cons, Nat.add_comm, ofMsbBits, Nat.mul_comm, h, ih]
    cases b <;> rfl

theorem take_msbBits {k n : Nat} (h : k ≤ n) (v : Nat) :
    (msbBits n v).take k = msbBits k (v / 2 ^ (n - k)) := by
  obtain ⟨m, rfl⟩ := Nat.exists_eq_add_of_le h
  rw [msbBits_add, Nat.add_sub_cancel_left, List.take_left' (length_msbBits _ _)]

theorem drop_msbBits {k n : Nat} (h : k ≤ n) (v : Nat) :
    (msbBits n v).drop k = msbBits (n - k) v := by
  obtain ⟨m, rfl⟩ := Nat.exists_eq_add_of_le h
  rw [msbBits_add, Nat.add_sub_cancel_left, List.drop_left' (length_msbBits _ _)]

/-- A field followed by `b` zero bits is the field times `2 ^ b`. -/
theorem msbBits_mul_two_pow (a b p : Nat) :
    msbBits (a + b) (2 ^ b * p) = msbBits a p ++ List.replicate b false := by
  simpa using msbBits_two_pow_mul_add a b p 0 (Nat.two_pow_pos b)

@[simp] theorem octetBits_nil : octetBits [] = [] := rfl

@[simp] theorem octetBits_cons (b : UInt8) (bs : List UInt8) :
    octetBits (b :: bs) = msbBits 8 b.toNat ++ octetBits bs := rfl

@[simp] theorem octetBits_append (xs ys : List UInt8) :
    octetBits (xs ++ ys) = octetBits xs ++ octetBits ys := by
  simp [octetBits]

@[simp] theorem length_octetBits (bs : List UInt8) : (octetBits bs).length = 8 * bs.length := by
  induction bs with
  | nil => rfl
  | cons b bs ih => simp [ih]; ring

/-- The bits from bit `o` of octet `i` on. -/
theorem drop_octetBits {bs : List UInt8} {i : Nat} {c : UInt8} (hc : bs[i]? = some c)
    {o : Nat} (ho : o ≤ 8) :
    (octetBits bs).drop (8 * i + o) = msbBits (8 - o) c.toNat ++ octetBits (bs.drop (i + 1)) := by
  induction bs generalizing i with
  | nil => simp at hc
  | cons b bs ih =>
    cases i with
    | zero =>
      simp only [List.getElem?_cons_zero, Option.some.injEq] at hc
      subst hc
      rw [octetBits_cons, List.drop_append_of_le_length (by simp; omega), Nat.mul_zero,
        Nat.zero_add, drop_msbBits ho]
      rfl
    | succ i =>
      simp only [List.getElem?_cons_succ] at hc
      rw [octetBits_cons, show 8 * (i + 1) + o = 8 + (8 * i + o) by ring,
        ← List.drop_drop, List.drop_left' (length_msbBits _ _), ih hc]
      rfl

theorem ofMsbBits_octet (b : UInt8) : ofMsbBits (msbBits 8 b.toNat) = b.toNat := by
  rw [ofMsbBits_msbBits, Nat.mod_eq_of_lt b.toNat_lt]

theorem octetBits_injective {xs ys : List UInt8} (h : octetBits xs = octetBits ys) : xs = ys := by
  induction xs generalizing ys with
  | nil =>
    have := congrArg List.length h
    simp only [octetBits_nil, List.length_nil, length_octetBits] at this
    exact (List.length_eq_zero_iff.mp (by omega)).symm
  | cons x xs ih =>
    cases ys with
    | nil =>
      have := congrArg List.length h
      simp at this
    | cons y ys =>
      simp only [octetBits_cons] at h
      obtain ⟨hxy, hrest⟩ := List.append_inj h (by simp)
      have hb : x.toNat = y.toNat := by rw [← ofMsbBits_octet x, hxy, ofMsbBits_octet]
      rw [UInt8.toNat_inj.mp hb, ih hrest]

/-- The `k` low octets of `v`, most significant first. -/
def msbOctets : Nat → Nat → List UInt8
  | 0, _ => []
  | k + 1, v => UInt8.ofNat (v / 2 ^ (8 * k)) :: msbOctets k v

@[simp] theorem length_msbOctets (k v : Nat) : (msbOctets k v).length = k := by
  induction k with
  | zero => rfl
  | succ k ih => simp [msbOctets, ih]

theorem octetBits_msbOctets (k v : Nat) : octetBits (msbOctets k v) = msbBits (8 * k) v := by
  induction k with
  | zero => rfl
  | succ k ih =>
    rw [msbOctets, octetBits_cons, ih, show 8 * (k + 1) = 8 + 8 * k by ring, msbBits_add,
      UInt8.toNat_ofNat', msbBits_mod]

theorem octetBits_replicate_zero (p : Nat) : octetBits (List.replicate p 0) = List.replicate (8 * p) false := by
  induction p with
  | zero => rfl
  | succ p ih =>
    rw [List.replicate_succ, octetBits_cons, ih, show 8 * (p + 1) = 8 + 8 * p by ring, List.replicate_add]
    simp

/-! ## Fields in a row -/

/-- Fields of the given widths and values, one after the other. -/
def fieldBits : List (Nat × Nat) → List Bool
  | [] => []
  | (n, v) :: fields => msbBits n v ++ fieldBits fields

@[simp] theorem fieldBits_nil : fieldBits [] = [] := rfl

@[simp] theorem fieldBits_cons (n v : Nat) (fields : List (Nat × Nat)) :
    fieldBits ((n, v) :: fields) = msbBits n v ++ fieldBits fields := rfl

@[simp] theorem fieldBits_append (xs ys : List (Nat × Nat)) :
    fieldBits (xs ++ ys) = fieldBits xs ++ fieldBits ys := by
  induction xs with
  | nil => rfl
  | cons field xs ih =>
    obtain ⟨n, v⟩ := field
    simp [ih]

@[simp] theorem length_fieldBits (fields : List (Nat × Nat)) :
    (fieldBits fields).length = (fields.map Prod.fst).sum := by
  induction fields with
  | nil => rfl
  | cons field fields ih =>
    obtain ⟨n, v⟩ := field
    simp [ih]

/-! ## Octet arithmetic -/

/-- An octet holding the field `P` in its `o` high bits, plus `y` shifted to
the `k` bits after it, holds both fields followed by zeros. -/
theorem msbBits_fill {o k P y : Nat} (hk : o + k ≤ 8) (hP : P < 2 ^ o) (hy : y < 2 ^ k) :
    msbBits 8 (UInt8.ofNat (2 ^ (8 - o) * P) + UInt8.ofNat (2 ^ (8 - o - k) * y)).toNat =
      msbBits o P ++ msbBits k y ++ List.replicate (8 - o - k) false := by
  have hlow : 2 ^ (8 - o - k) * y < 2 ^ (8 - o) := by
    calc 2 ^ (8 - o - k) * y < 2 ^ (8 - o - k) * 2 ^ k := Nat.mul_lt_mul_of_pos_left hy (by positivity)
      _ = 2 ^ (8 - o) := by rw [← pow_add]; congr 1; omega
  have hhigh : 2 ^ (8 - o) * (P + 1) ≤ 2 ^ 8 := by
    calc 2 ^ (8 - o) * (P + 1) ≤ 2 ^ (8 - o) * 2 ^ o := Nat.mul_le_mul_left _ hP
      _ = 2 ^ 8 := by rw [← pow_add]; congr 1; omega
  have hsum : (UInt8.ofNat (2 ^ (8 - o) * P) + UInt8.ofNat (2 ^ (8 - o - k) * y)).toNat =
      2 ^ (8 - o) * P + 2 ^ (8 - o - k) * y := by
    rw [Nat.mul_succ] at hhigh
    have h1 : 2 ^ (8 - o) * P < 2 ^ 8 := by omega
    have h2 : 2 ^ (8 - o - k) * y < 2 ^ 8 := by omega
    simp only [UInt8.toNat_add, UInt8.toNat_ofNat', Nat.mod_eq_of_lt h1, Nat.mod_eq_of_lt h2]
    exact Nat.mod_eq_of_lt (by omega)
  have h8 : msbBits 8 (2 ^ (8 - o) * P + 2 ^ (8 - o - k) * y) =
      msbBits (o + (8 - o)) (2 ^ (8 - o) * P + 2 ^ (8 - o - k) * y) := by
    rw [Nat.add_sub_cancel' (by omega)]
  have hk' : msbBits (8 - o) (2 ^ (8 - o - k) * y) = msbBits (k + (8 - o - k)) (2 ^ (8 - o - k) * y) := by
    rw [Nat.add_sub_cancel' (by omega)]
  rw [hsum, h8, msbBits_two_pow_mul_add _ _ _ _ hlow, hk', msbBits_mul_two_pow, List.append_assoc]

/-- The bits of `c` at the positions `b ≤ j < a` of a mask, shifted down. -/
theorem and_two_pow_sub_two_pow_shiftRight (c : Nat) {a b : Nat} (h : b ≤ a) :
    (c &&& (2 ^ a - 2 ^ b)) >>> b = c % 2 ^ a / 2 ^ b := by
  have hm : 2 ^ a - 2 ^ b = (2 ^ (a - b) - 1) <<< b := by
    rw [Nat.shiftLeft_eq, Nat.sub_mul, one_mul, ← pow_add, Nat.sub_add_cancel h]
  apply Nat.eq_of_testBit_eq
  intro i
  rw [hm, Nat.testBit_shiftRight, Nat.testBit_and, Nat.testBit_shiftLeft, Nat.testBit_div_two_pow,
    Nat.testBit_mod_two_pow, Nat.testBit_two_pow_sub_one]
  by_cases hi : i + b < a
  · simp [hi, Nat.add_comm b i, show i < a - b by omega]
  · simp [hi, Nat.add_comm b i, show ¬ i < a - b by omega]

/-! ## Splicing -/

section Splice

variable {α : Type} {l m m₁ m₂ : List α} {p : Nat}

/-- `l` with the run from position `p` on overwritten by `m`. -/
def splice (l : List α) (p : Nat) (m : List α) : List α := l.take p ++ m ++ l.drop (p + m.length)

@[simp] theorem splice_nil (l : List α) (p : Nat) : splice l p [] = l := by
  simp [splice]

/-- What follows position `p` of a splice there. -/
theorem drop_splice (h : p ≤ l.length) : (splice l p m).drop p = m ++ l.drop (p + m.length) := by
  rw [splice, List.append_assoc, List.drop_left' (by simp; omega)]

/-- Two runs spliced one after the other are one run. -/
theorem splice_splice (h : p + m₁.length ≤ l.length) :
    splice (splice l p m₁) (p + m₁.length) m₂ = splice l p (m₁ ++ m₂) := by
  have hlen : (l.take p ++ m₁).length = p + m₁.length := by simp; omega
  unfold splice
  rw [List.append_assoc (l.take p) m₁, ← List.append_assoc, List.take_left' hlen, ← List.drop_drop,
    List.drop_left' hlen, List.drop_drop, List.length_append, Nat.add_assoc]
  simp only [List.append_assoc]

end Splice

/-! ## Bits of a word -/

theorem getElem_msbBits {n v i : Nat} (h : i < (msbBits n v).length) :
    (msbBits n v)[i] = v.testBit (n - 1 - i) := by
  induction n generalizing i with
  | zero => simp at h
  | succ n ih =>
    cases i with
    | zero => simp [msbBits]
    | succ i =>
      simp only [msbBits, List.getElem_cons_succ]
      rw [ih]
      congr 1
      omega

/-- The mask of the bits `l ≤ j < m`. -/
theorem testBit_two_pow_sub_two_pow {l m : Nat} (h : l ≤ m) (j : Nat) :
    (2 ^ m - 2 ^ l).testBit j = decide (l ≤ j ∧ j < m) := by
  have hm : 2 ^ m - 2 ^ l = (2 ^ (m - l) - 1) <<< l := by
    rw [Nat.shiftLeft_eq, Nat.sub_mul, one_mul, ← pow_add, Nat.sub_add_cancel h]
  rw [hm, Nat.testBit_shiftLeft, Nat.testBit_two_pow_sub_one]
  by_cases hj : l ≤ j
  · simp [hj]; omega
  · simp [hj]

/-- Masking the bits `a ≤ i < a + k` out of an octet, counted from the most
significant, and or-ing `y` shifted into them replaces those bits by the `k`
low bits of `y`. When `a > 0`, `y` must fit its `k` bits, or its high bits
land on the ones kept in front. -/
theorem msbBits_splice {x y a k : Nat} (hak : a + k ≤ 8) (hy : a = 0 ∨ y < 2 ^ k) :
    msbBits 8 ((x &&& ((2 ^ 8 - 2 ^ (8 - a)) ||| (2 ^ (8 - a - k) - 1))) ||| (y <<< (8 - a - k))) =
      (msbBits 8 x).take a ++ msbBits k y ++ (msbBits 8 x).drop (a + k) := by
  apply List.ext_getElem
  · simp; omega
  · intro i h₁ h₂
    simp only [length_msbBits] at h₁
    rw [getElem_msbBits]
    simp only [List.getElem_append, List.getElem_take, List.getElem_drop, getElem_msbBits,
      List.length_append, List.length_take, length_msbBits, Nat.testBit_or, Nat.testBit_and,
      Nat.testBit_shiftLeft, Nat.testBit_two_pow_sub_one,
      testBit_two_pow_sub_two_pow (show 8 - a ≤ 8 by omega)]
    rw [Nat.min_eq_left (by omega : a ≤ 8)] at *
    split_ifs with h₃ h₄
    · -- a high bit of the octet, kept by the mask; `y` has nothing there
      have hy0 : y.testBit (8 - 1 - i - (8 - a - k)) = false := by
        rcases hy with rfl | hy
        · omega
        · exact Nat.testBit_eq_false_of_lt
            (lt_of_lt_of_le hy (Nat.pow_le_pow_right (by norm_num) (by omega)))
      simp [hy0, show 8 - a ≤ 8 - 1 - i by omega, show 8 - 1 - i < 8 by omega]
    · -- a bit of the field
      simp [show ¬ 8 - a ≤ 8 - 1 - i by omega, show ¬ 8 - 1 - i < 8 - a - k by omega,
        show 8 - 1 - i ≥ 8 - a - k by omega,
        show 8 - 1 - i - (8 - a - k) = k - 1 - (i - a) by omega]
    · -- a low bit of the octet, kept by the mask
      simp [show 8 - 1 - i < 8 - a - k by omega, show ¬ 8 - 1 - i ≥ 8 - a - k by omega,
        show 8 - 1 - (a + k + (i - (a + k))) = 8 - 1 - i by omega]

/-- The octets of a list with octet `i` replaced. -/
theorem octetBits_set {l : List UInt8} {i : Nat} (hi : i < l.length) (x : UInt8) :
    octetBits (l.set i x) = octetBits (l.take i) ++ msbBits 8 x.toNat ++ octetBits (l.drop (i + 1)) := by
  rw [List.set_eq_take_append_cons_drop, if_pos hi, octetBits_append, octetBits_cons,
    List.append_assoc]

theorem octetBits_eq_take_getElem_drop {l : List UInt8} {i : Nat} (hi : i < l.length) :
    octetBits l = octetBits (l.take i) ++ msbBits 8 l[i].toNat ++ octetBits (l.drop (i + 1)) := by
  conv_lhs => rw [← List.set_getElem_self hi]
  exact octetBits_set hi _

/-- Replacing octet `i` by one that differs from it in the run of bits
`[a, a + m.length)`, now `m`, replaces that run of the whole bit string. -/
theorem octetBits_set_splice {l : List UInt8} {i a : Nat} {x : UInt8} {m : List Bool}
    (hi : i < l.length) (ha : a + m.length ≤ 8)
    (hx : msbBits 8 x.toNat =
      (msbBits 8 l[i].toNat).take a ++ m ++ (msbBits 8 l[i].toNat).drop (a + m.length)) :
    octetBits (l.set i x) =
      (octetBits l).take (8 * i + a) ++ m ++ (octetBits l).drop (8 * i + a + m.length) := by
  have hlen : (octetBits (l.take i)).length = 8 * i := by
    simp [Nat.min_eq_left hi.le]
  rw [octetBits_set hi, hx, octetBits_eq_take_getElem_drop hi, ← hlen]
  simp only [List.append_assoc]
  rw [List.take_length_add_append, Nat.add_assoc, List.drop_length_add_append,
    List.take_append_of_le_length (by simp; omega), List.drop_append_of_le_length (by simp; omega)]
  simp only [List.append_assoc]

end BitString
