import Mathlib

/-!
A map of fixed capacity `n` from natural-number keys to values that keeps
the entry of key `k` in slot `k % n`. Looking a key up compares it with the
key stored in its slot; inserting into a taken slot fails; overwriting first
erases whatever entry holds the slot, whatever its key.

The abstract view of such a map is the partial function from keys to values
(`get?`). Erasing and writing through a present key act on the view as
function updates; so does overwriting, as long as the slot is free or holds
the same key (`evicts` is false). When it holds another key, that key
silently leaves the view.
-/

/-- The slot of a key. -/
def CircularMap.slot (n : Nat) [NeZero n] (key : Nat) : Fin n := Fin.ofNat n key

/-- A circular map of capacity `n`: every stored key sits in its own slot. -/
structure CircularMap (V : Type) (n : Nat) [NeZero n] where
  slots : Fin n → Option (Nat × V)
  slot_key : ∀ i k v, slots i = some (k, v) → CircularMap.slot n k = i

namespace CircularMap

variable {V : Type} {n : Nat} [NeZero n]

def empty : CircularMap V n := ⟨fun _ => none, by simp⟩

/-- The value stored under `key`: its slot is taken by `key` itself. -/
def get? (m : CircularMap V n) (key : Nat) : Option V :=
  match m.slots (slot n key) with
  | some (k, v) => if k = key then some v else none
  | none => none

def contains (m : CircularMap V n) (key : Nat) : Bool :=
  (m.get? key).isSome

/-- Free one slot. -/
def clearSlot (m : CircularMap V n) (i : Fin n) : CircularMap V n :=
  ⟨Function.update m.slots i none, by
    intro j k v h
    by_cases hj : j = i
    · subst hj
      simp at h
    · rw [Function.update_of_ne hj] at h
      exact m.slot_key j k v h⟩

/-- Store `v` under `key` in the slot of `key`. -/
def putEntry (m : CircularMap V n) (key : Nat) (v : V) : CircularMap V n :=
  ⟨Function.update m.slots (slot n key) (some (key, v)), by
    intro j k w h
    by_cases hj : j = slot n key
    · subst hj
      simp only [Function.update_self, Option.some.injEq, Prod.mk.injEq] at h
      rw [h.1]
    · rw [Function.update_of_ne hj] at h
      exact m.slot_key j k w h⟩

/-- Insert under `key`; fails, leaving the map as it is, when the slot is taken. -/
def insert (m : CircularMap V n) (key : Nat) (v : V) : Bool × CircularMap V n :=
  match m.slots (slot n key) with
  | some _ => (false, m)
  | none => (true, m.putEntry key v)

def erase (m : CircularMap V n) (key : Nat) : CircularMap V n :=
  if m.contains key then m.clearSlot (slot n key) else m

/-- Insert under `key` after erasing the entry that holds its slot. -/
def overwrite (m : CircularMap V n) (key : Nat) (v : V) : CircularMap V n :=
  let m := match m.slots (slot n key) with
    | some (k, _) => m.erase k
    | none => m
  (m.insert key v).2

/-- A write through a reference to the value of a present key; `none` when
the key is absent. -/
def modify (m : CircularMap V n) (key : Nat) (f : V → V) : Option (CircularMap V n) :=
  (m.get? key).map fun v => m.putEntry key (f v)

/-- The number of entries. -/
def size (m : CircularMap V n) : Nat := (List.finRange n).countP fun i => (m.slots i).isSome

def full (m : CircularMap V n) : Bool := m.size == n

def isEmpty (m : CircularMap V n) : Bool := m.size == 0

/-- Overwriting `key` drops an entry of another key. -/
def evicts (m : CircularMap V n) (key : Nat) : Bool :=
  match m.slots (slot n key) with
  | some (k, _) => k != key
  | none => false

/-! ## Slots -/

theorem slot_eq_iff {a b : Nat} : slot n a = slot n b ↔ a % n = b % n := by
  simp [slot, Fin.ext_iff]

theorem get?_eq_some_iff {m : CircularMap V n} {key : Nat} {v : V} :
    m.get? key = some v ↔ m.slots (slot n key) = some (key, v) := by
  unfold get?
  split
  · rename_i k w hslot
    rw [hslot]
    by_cases hk : k = key
    · subst hk
      simp
    · simp [hk]
  · rename_i hslot
    simp [hslot]

/-- A slot holds at most one key: another key of the same slot is absent. -/
theorem get?_eq_none_of_slot_eq {m : CircularMap V n} {key k : Nat} {v : V}
    (h : m.get? key = some v) (hs : slot n k = slot n key) (hk : k ≠ key) : m.get? k = none := by
  unfold get?
  rw [hs, get?_eq_some_iff.mp h]
  simp [Ne.symm hk]

/-- Nor does another key of the slot of a key that would not evict. -/
theorem get?_eq_none_of_not_evicts {m : CircularMap V n} {key k : Nat}
    (hev : m.evicts key = false) (hs : slot n k = slot n key) (hk : k ≠ key) : m.get? k = none := by
  unfold evicts at hev
  unfold get?
  rw [hs]
  split
  · rename_i k' w hslot
    rw [hslot] at hev
    have : k' = key := by simpa using hev
    simp [this, Ne.symm hk]
  · rfl

@[simp] theorem get?_empty (key : Nat) : (empty : CircularMap V n).get? key = none := rfl

theorem get?_clearSlot (m : CircularMap V n) (i : Fin n) (k : Nat) :
    (m.clearSlot i).get? k = if slot n k = i then none else m.get? k := by
  unfold get? clearSlot
  by_cases hs : slot n k = i
  · subst hs
    simp
  · simp [hs]

theorem get?_putEntry (m : CircularMap V n) (key : Nat) (v : V) (k : Nat) :
    (m.putEntry key v).get? k =
      if k = key then some v else if slot n k = slot n key then none else m.get? k := by
  unfold get? putEntry
  by_cases hk : k = key
  · subst hk
    simp
  · by_cases hs : slot n k = slot n key
    · simp [hs, hk, Ne.symm hk]
    · simp [hs, hk]

/-! ## The abstract view -/

@[simp] theorem get?_erase (m : CircularMap V n) (key k : Nat) :
    (m.erase key).get? k = if k = key then none else m.get? k := by
  unfold erase
  by_cases hc : m.contains key
  · obtain ⟨v, hv⟩ := Option.isSome_iff_exists.mp hc
    rw [if_pos hc, get?_clearSlot]
    by_cases hk : k = key
    · simp [hk]
    · by_cases hs : slot n k = slot n key
      · simp [hs, hk, get?_eq_none_of_slot_eq hv hs hk]
      · simp [hs, hk]
  · rw [if_neg hc]
    by_cases hk : k = key
    · subst hk
      simpa [contains] using hc
    · simp [hk]

/-- Overwriting stores the key in its slot over what was there before, and
erasing that leaves the other slots as they were. -/
theorem overwrite_eq_putEntry (m : CircularMap V n) (key : Nat) (v : V) :
    ∃ m₀ : CircularMap V n, m.overwrite key v = m₀.putEntry key v ∧
      ∀ k, slot n k ≠ slot n key → m₀.get? k = m.get? k := by
  unfold overwrite
  cases hslot : m.slots (slot n key) with
  | none => exact ⟨m, by simp [insert, hslot], fun _ _ => rfl⟩
  | some e =>
    obtain ⟨k', w⟩ := e
    have hs : slot n k' = slot n key := m.slot_key _ k' w hslot
    have hget : m.get? k' = some w := get?_eq_some_iff.mpr (by rw [hs]; exact hslot)
    have hfree : (m.erase k').slots (slot n key) = none := by
      simp [erase, contains, hget, clearSlot, hs]
    refine ⟨m.erase k', by simp [insert, hfree], fun k hk => ?_⟩
    rw [get?_erase, if_neg]
    rintro rfl
    exact hk hs

/-- The view after an overwrite: the key holds the new value, another key of
its slot is gone, and every other key is unchanged. -/
theorem get?_overwrite_eq (m : CircularMap V n) (key : Nat) (v : V) (k : Nat) :
    (m.overwrite key v).get? k =
      if k = key then some v else if slot n k = slot n key then none else m.get? k := by
  obtain ⟨m₀, heq, hsame⟩ := m.overwrite_eq_putEntry key v
  rw [heq, get?_putEntry]
  by_cases hk : k = key
  · simp [hk]
  · by_cases hs : slot n k = slot n key
    · simp [hk, hs]
    · simp [hk, hs, hsame k hs]

/-- With its slot free or already its own, overwriting a key updates the
view at that key only. -/
theorem get?_overwrite {m : CircularMap V n} {key : Nat} (hev : m.evicts key = false)
    (v : V) (k : Nat) :
    (m.overwrite key v).get? k = if k = key then some v else m.get? k := by
  rw [get?_overwrite_eq]
  by_cases hk : k = key
  · simp [hk]
  · by_cases hs : slot n k = slot n key
    · simp [hk, hs, get?_eq_none_of_not_evicts hev hs hk]
    · simp [hk, hs]

/-- Keys below `n` take distinct slots: a map holding exactly the keys below
`k < n` holds exactly those below `k + 1` once `k` is stored. -/
theorem get?_overwrite_succ {m : CircularMap V n} {k : Nat} (hk : k < n) {f : Nat → V}
    (hm : ∀ j, m.get? j = if j < k then some (f j) else none) (j : Nat) :
    (m.overwrite k (f k)).get? j = if j < k + 1 then some (f j) else none := by
  rw [get?_overwrite_eq, hm]
  by_cases hj : j = k
  · subst hj
    simp
  · by_cases hlt : j < k
    · have hs : slot n j ≠ slot n k := by
        rw [Ne, slot_eq_iff, Nat.mod_eq_of_lt (by omega), Nat.mod_eq_of_lt hk]
        exact hj
      simp [hj, hs, hlt, Nat.lt_succ_of_lt hlt]
    · have hge : ¬j < k + 1 := by omega
      simp [hj, hlt, hge]

theorem get?_modify {m m' : CircularMap V n} {key : Nat} {f : V → V}
    (h : m.modify key f = some m') (k : Nat) :
    m'.get? k = if k = key then (m.get? key).map f else m.get? k := by
  unfold modify at h
  cases hv : m.get? key with
  | none => simp [hv] at h
  | some v =>
    simp only [hv, Option.map_some, Option.some.injEq] at h
    subst h
    rw [get?_putEntry]
    by_cases hk : k = key
    · simp [hk]
    · by_cases hs : slot n k = slot n key
      · simp [hs, hk, get?_eq_none_of_slot_eq hv hs hk]
      · simp [hs, hk]

theorem modify_isSome {m : CircularMap V n} {key : Nat} (f : V → V) :
    (m.modify key f).isSome = m.contains key := by
  simp [modify, contains]

/-- Overwriting evicts only an entry of another key that shares the slot. -/
theorem evicts_eq_true {m : CircularMap V n} {key : Nat} (h : m.evicts key = true) :
    ∃ k, k ≠ key ∧ k % n = key % n ∧ m.contains k = true := by
  unfold evicts at h
  split at h
  · rename_i k v hslot
    have hs : slot n k = slot n key := m.slot_key _ k v hslot
    refine ⟨k, by simpa using h, slot_eq_iff.mp hs, ?_⟩
    have : m.get? k = some v := get?_eq_some_iff.mpr (by rw [hs]; exact hslot)
    simp [contains, this]
  · cases h

end CircularMap
