import SrsRan.Lib.CircularMap

/-!
`sdu_window_impl` (`lib/support/sdu_window_impl.h`): the SN-indexed window
of the RLC and PDCP entities, a `circular_map` of capacity `WINDOW_SIZE`.
`add_sn` asserts that the SN is absent and then overwrites its slot,
`remove_sn` asserts that it is present, and reading an SN goes through
`circular_map::operator[]`, which asserts that it is present. A failed
assertion is the `error` of the result.
-/

namespace SrsRan

/-- The assertions of the SDU window. -/
inductive SduWindowAssertion
  /-- `add_sn`: "sn={} already present in window." -/
  | snAlreadyPresent (sn : Nat)
  /-- `remove_sn`: "Cannot remove sn={} because not contained in the window." -/
  | removeAbsentSn (sn : Nat)
  /-- `circular_map::operator[]`: "Accessing non-existent ID={}" -/
  | accessNonExistent (sn : Nat)
  deriving DecidableEq, Repr

/-- `sdu_window_impl<T, WINDOW_SIZE>`. -/
abbrev SduWindow (V : Type) (n : Nat) [NeZero n] := CircularMap V n

namespace SduWindow

variable {V : Type} {n : Nat} [NeZero n]

def hasSn (w : SduWindow V n) (sn : Nat) : Bool := CircularMap.contains w sn

/-- `add_sn`: a default value under a new SN. -/
def addSn (w : SduWindow V n) (sn : Nat) (init : V) : Except SduWindowAssertion (SduWindow V n) :=
  if w.hasSn sn then .error (.snAlreadyPresent sn) else .ok (CircularMap.overwrite w sn init)

def removeSn (w : SduWindow V n) (sn : Nat) : Except SduWindowAssertion (SduWindow V n) :=
  if !w.hasSn sn then .error (.removeAbsentSn sn) else .ok (CircularMap.erase w sn)

/-- `operator[]` read. -/
def get (w : SduWindow V n) (sn : Nat) : Except SduWindowAssertion V :=
  match CircularMap.get? w sn with
  | some v => .ok v
  | none => .error (.accessNonExistent sn)

def full (w : SduWindow V n) : Bool := CircularMap.full w

def isEmpty (w : SduWindow V n) : Bool := CircularMap.isEmpty w

/-- A write through `operator[]`. -/
def set (w : SduWindow V n) (sn : Nat) (v : V) : Except SduWindowAssertion (SduWindow V n) :=
  match CircularMap.modify w sn (fun _ => v) with
  | some w' => .ok w'
  | none => .error (.accessNonExistent sn)

/-- `add_sn` with the SN's slot free or its own: the SN is added and no
other SN is lost. -/
theorem addSn_get? {w w' : SduWindow V n} {sn : Nat} {init : V}
    (hev : CircularMap.evicts w sn = false) (h : w.addSn sn init = .ok w') (k : Nat) :
    CircularMap.get? w' k = if k = sn then some init else CircularMap.get? w k := by
  unfold addSn at h
  split at h
  · cases h
  · cases h
    exact CircularMap.get?_overwrite hev init k

theorem addSn_ok_iff {w : SduWindow V n} {sn : Nat} {init : V} :
    (∃ w', w.addSn sn init = .ok w') ↔ w.hasSn sn = false := by
  unfold addSn
  split <;> simp_all

theorem removeSn_get? {w w' : SduWindow V n} {sn : Nat} (h : w.removeSn sn = .ok w') (k : Nat) :
    CircularMap.get? w' k = if k = sn then none else CircularMap.get? w k := by
  unfold removeSn at h
  split at h
  · cases h
  · cases h
    exact CircularMap.get?_erase w sn k

theorem removeSn_ok_iff {w : SduWindow V n} {sn : Nat} :
    (∃ w', w.removeSn sn = .ok w') ↔ w.hasSn sn = true := by
  unfold removeSn
  split <;> simp_all

theorem get_ok_iff {w : SduWindow V n} {sn : Nat} {v : V} :
    w.get sn = .ok v ↔ CircularMap.get? w sn = some v := by
  unfold get
  split <;> simp_all

theorem set_get? {w w' : SduWindow V n} {sn : Nat} {v : V} (h : w.set sn v = .ok w') (k : Nat) :
    CircularMap.get? w' k = if k = sn then some v else CircularMap.get? w k := by
  unfold set at h
  split at h
  · rename_i w'' hmod
    cases h
    rw [CircularMap.get?_modify hmod]
    by_cases hk : k = sn
    · subst hk
      have : (CircularMap.modify w k fun _ => v).isSome := by rw [hmod]; rfl
      rw [CircularMap.modify_isSome] at this
      obtain ⟨x, hx⟩ := Option.isSome_iff_exists.mp this
      simp [hx]
    · simp [hk]
  · cases h

theorem set_ok_iff {w : SduWindow V n} {sn : Nat} {v : V} :
    (∃ w', w.set sn v = .ok w') ↔ w.hasSn sn = true := by
  unfold set hasSn
  rw [← CircularMap.modify_isSome (fun _ => v)]
  split <;> simp_all

/-! ## A property of every entry -/

/-- Every entry of the window satisfies `P`. -/
def All (P : Nat → V → Prop) (w : SduWindow V n) : Prop :=
  ∀ sn v, CircularMap.get? w sn = some v → P sn v

variable {P : Nat → V → Prop} {w w' : SduWindow V n} {sn : Nat} {v : V}

theorem all_empty (P : Nat → V → Prop) : All P (CircularMap.empty : SduWindow V n) := by
  intro sn v h
  simp at h

theorem All.get (hw : All P w) (h : w.get sn = .ok v) : P sn v :=
  hw sn v (get_ok_iff.mp h)

/-- `add_sn` adds one entry and may drop another. -/
theorem All.addSn (hw : All P w) (hv : P sn v) (h : w.addSn sn v = .ok w') : All P w' := by
  unfold SduWindow.addSn at h
  split at h
  · cases h
  · cases h
    intro k x hk
    rw [CircularMap.get?_overwrite_eq] at hk
    split_ifs at hk with hks hslot
    · subst hks
      cases hk
      exact hv
    · exact hw k x hk

theorem All.removeSn (hw : All P w) (h : w.removeSn sn = .ok w') : All P w' := by
  intro k x hk
  rw [SduWindow.removeSn_get? h] at hk
  split_ifs at hk
  exact hw k x hk

/-- A write keeps `P` when the new value keeps what `P` says of the old. -/
theorem All.set (hw : All P w) (h : w.set sn v = .ok w') (hv : ∀ v₀, P sn v₀ → P sn v) :
    All P w' := by
  obtain ⟨v₀, hv₀⟩ := Option.isSome_iff_exists.mp (set_ok_iff.mp ⟨w', h⟩)
  intro k x hk
  rw [set_get? h] at hk
  split_ifs at hk with hks
  · subst hks
    cases hk
    exact hv v₀ (hw k v₀ hv₀)
  · exact hw k x hk

theorem All.mono {Q : Nat → V → Prop} (hw : All P w) (h : ∀ sn v, P sn v → Q sn v) : All Q w :=
  fun sn v hv => h sn v (hw sn v hv)

/-! ## Removing a set of SNs -/

/-- `w'` is `w` less the SNs `R` holds of. -/
def Erases (R : Nat → Prop) (w w' : SduWindow V n) : Prop :=
  ∀ sn, (R sn → CircularMap.get? w' sn = none) ∧ (¬R sn → CircularMap.get? w' sn = CircularMap.get? w sn)

variable {R S : Nat → Prop}

theorem erases_false (w : SduWindow V n) : Erases (fun _ => False) w w :=
  fun _ => ⟨False.elim, fun _ => rfl⟩

theorem erases_of_eq_none (h : CircularMap.get? w sn = none) : Erases (· = sn) w w :=
  fun _ => ⟨fun hk => hk ▸ h, fun _ => rfl⟩

theorem erases_removeSn (h : w.removeSn sn = .ok w') : Erases (· = sn) w w' := by
  intro k
  rw [removeSn_get? h]
  exact ⟨fun hk => if_pos hk, fun hk => if_neg hk⟩

theorem Erases.trans {w'' : SduWindow V n} (h₁ : Erases R w w') (h₂ : Erases S w' w'') :
    Erases (fun sn => R sn ∨ S sn) w w'' := by
  intro k
  refine ⟨fun hk => ?_, fun hk => ?_⟩
  · by_cases hs : S k
    · exact (h₂ k).1 hs
    · rw [(h₂ k).2 hs]
      exact (h₁ k).1 (hk.resolve_right hs)
  · rw [(h₂ k).2 (fun hs => hk (.inr hs)), (h₁ k).2 (fun hr => hk (.inl hr))]

theorem Erases.congr (h : Erases R w w') (hRS : ∀ sn, R sn ↔ S sn) : Erases S w w' :=
  fun k => ⟨fun hs => (h k).1 ((hRS k).mpr hs), fun hs => (h k).2 (fun hr => hs ((hRS k).mp hr))⟩

/-- Erasures that agree on the keys the window holds are the same: a key it
does not hold is not there afterwards either way. -/
theorem Erases.congr_of_all (h : Erases R w w') (hRS : All (fun sn _ => R sn ↔ S sn) w) :
    Erases S w w' := by
  intro sn
  obtain ⟨hin, hout⟩ := h sn
  cases hv : CircularMap.get? w sn with
  | none =>
    have hnone : CircularMap.get? w' sn = none := by
      by_cases hR : R sn
      · exact hin hR
      · rw [hout hR, hv]
    exact ⟨fun _ => hnone, fun _ => hnone⟩
  | some v =>
    have hiff := hRS sn v hv
    exact ⟨fun hS => hin (hiff.mpr hS), fun hS => (hout (mt hiff.mp hS)).trans hv⟩

end SduWindow

end SrsRan
