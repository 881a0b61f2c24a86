import SrsRan.Rlc.AmPdu

/-!
What a status PDU reports missing (TS 38.322 6.2.2.5). A NACK stands for
the SNs `nack_sn` to `nack_sn + range - 1` modulo the SN space, the first
from `so_start` on and the last up to `so_end`; the list stands for the
union of its NACKs (`missing`). `push_nack` adds exactly the pairs of the
NACK pushed as long as no range involved is 0 (`pushNack_missing`): the
NACK it widens covers, SDU by SDU, what the two NACKs covered
(`coversAt_mergeNack`).

`trim` pops NACKs from the back (`Trimmed`, `trimNacks_stops`). On a status
PDU whose NACKs of one SN are adjacent and none of which is of `ack_sn`,
what is left fits, is a prefix of the list, and has no NACK of the new
`ack_sn` (`trim_spec`).
-/

namespace SrsRan.Rlc
namespace RlcAmStatusPdu

/-- The bytes a NACK reports missing in the `i`-th SDU of its range,
counted from `nack_sn`: from `so_start` on in the first, up to `so_end`
(to the end for `so_end_of_sdu`) in the last. -/
def CoversAt (nack : RlcAmStatusNack) (i off : Nat) : Prop :=
  i < rangeOf nack ∧
    (nack.hasSo = true →
      (i = 0 → nack.soStart.toNat ≤ off) ∧
      (i + 1 = rangeOf nack → nack.soEnd = soEndOfSdu ∨ off ≤ nack.soEnd.toNat))

instance (nack : RlcAmStatusNack) (i off : Nat) : Decidable (CoversAt nack i off) :=
  inferInstanceAs (Decidable (_ ∧ _))

/-- The (SN, byte offset) pairs a NACK reports missing; SNs wrap modulo `mod`. -/
def nackSet (mod : Nat) (nack : RlcAmStatusNack) : Set (Nat × Nat) :=
  {p | ∃ i, p.1 = (nack.nackSn + i) % mod ∧ CoversAt nack i p.2}

/-- The pairs a list of NACKs reports missing. -/
def listSet (mod : Nat) (nacks : List RlcAmStatusNack) : Set (Nat × Nat) :=
  {p | ∃ nack ∈ nacks, p ∈ nackSet mod nack}

/-- What a status PDU reports missing. -/
def missing (s : RlcAmStatusPdu) : Set (Nat × Nat) := listSet s.modNr s.nacks

theorem listSet_append (mod : Nat) (l₁ l₂ : List RlcAmStatusNack) :
    listSet mod (l₁ ++ l₂) = listSet mod l₁ ∪ listSet mod l₂ := by
  ext p
  simp only [listSet, Set.mem_ofPred_eq, Set.mem_union, List.mem_append, or_and_right, exists_or]

theorem listSet_singleton (mod : Nat) (nack : RlcAmStatusNack) :
    listSet mod [nack] = nackSet mod nack := by
  ext p
  simp [listSet]

theorem soEnd_mergeNack (prev nack : RlcAmStatusNack) :
    (mergeNack prev nack).soEnd =
      if nack.hasSo then nack.soEnd else if prev.hasSo then soEndOfSdu else prev.soEnd := by
  simp only [mergeNack]
  split_ifs <;> simp_all

/-- The SN a mergeable NACK starts at: the one after the previous NACK's range. -/
theorem nackSn_of_canBeMerged {s : RlcAmStatusPdu} {prev nack : RlcAmStatusNack}
    (h : s.canBeMerged prev nack = true) : nack.nackSn = (prev.nackSn + rangeOf prev) % s.modNr := by
  rw [(canBeMerged_eq_true.mp h).1, rangeOf]
  split <;> rfl

/-- The widened NACK covers, in its first `rangeOf prev` SDUs, what `prev`
covers, and in the rest what `nack` covers. -/
theorem coversAt_mergeNack {s : RlcAmStatusPdu} {prev nack : RlcAmStatusNack}
    (h : s.canBeMerged prev nack = true) (hp : 0 < rangeOf prev) (hn : 0 < rangeOf nack)
    (i off : Nat) :
    CoversAt (mergeNack prev nack) i off ↔
      CoversAt prev i off ∨ (rangeOf prev ≤ i ∧ CoversAt nack (i - rangeOf prev) off) := by
  obtain ⟨-, hend, hstart, hsum⟩ := canBeMerged_eq_true.mp h
  simp only [CoversAt, rangeOf_mergeNack hsum, hasSo_mergeNack, soStart_mergeNack_eq,
    soEnd_mergeNack]
  by_cases hi : i < rangeOf prev
  · -- inside the previous NACK's range: its last SDU is covered to the end
    have hlast : ¬(i + 1 = rangeOf prev + rangeOf nack) := by omega
    have hpast : ¬(rangeOf prev ≤ i) := by omega
    have hin : i < rangeOf prev + rangeOf nack := by omega
    cases hps : prev.hasSo
    · -- with no SO of its own, the widened NACK starts at offset 0
      refine ⟨fun _ => .inl ⟨hi, by simp⟩,
        fun _ => ⟨hin, fun hso => ⟨fun _ => ?_, fun h => absurd h hlast⟩⟩⟩
      cases hns : nack.hasSo <;> simp [hns] at hso ⊢
    · have hend' : prev.soEnd = soEndOfSdu := by simpa [hps] using hend
      simp [hi, hin, hlast, hpast, hend']
  · -- past it: the SDUs of `nack`, whose first is covered from offset 0
    obtain ⟨j, rfl⟩ : ∃ j, i = rangeOf prev + j := ⟨i - rangeOf prev, by omega⟩
    have hj : rangeOf prev + j - rangeOf prev = j := Nat.add_sub_cancel_left ..
    have hlast : rangeOf prev + j + 1 = rangeOf prev + rangeOf nack ↔ j + 1 = rangeOf nack := by omega
    rw [hj, hlast]
    cases hns : nack.hasSo
    · simp only [hns, Bool.false_eq_true, false_implies, and_true] at hstart ⊢
      cases hps : prev.hasSo <;> simp [hp.ne']
    · have h0 : nack.soStart = 0 := by simpa [hns] using hstart
      cases hps : prev.hasSo <;> simp [h0, hp.ne']

/-- Merging two NACKs reports what the two reported. -/
theorem nackSet_mergeNack {s : RlcAmStatusPdu} {prev nack : RlcAmStatusNack}
    (h : s.canBeMerged prev nack = true) (hp : 0 < rangeOf prev) (hn : 0 < rangeOf nack) :
    nackSet s.modNr (mergeNack prev nack) = nackSet s.modNr prev ∪ nackSet s.modNr nack := by
  have hsn := nackSn_of_canBeMerged h
  -- the `j`-th SDU of `nack` is the `rangeOf prev + j`-th of the widened NACK
  have hshift : ∀ j, (nack.nackSn + j) % s.modNr = (prev.nackSn + (rangeOf prev + j)) % s.modNr := by
    intro j
    rw [hsn, Nat.mod_add_mod, Nat.add_assoc]
  ext ⟨sn, off⟩
  simp only [nackSet, Set.mem_ofPred_eq, Set.mem_union, nackSn_mergeNack, coversAt_mergeNack h hp hn]
  constructor
  · rintro ⟨i, hi, hprev | ⟨hle, hnack⟩⟩
    · exact .inl ⟨i, hi, hprev⟩
    · refine .inr ⟨i - rangeOf prev, ?_, hnack⟩
      rw [hshift, Nat.add_sub_cancel' hle]
      exact hi
  · rintro (⟨i, hi, hprev⟩ | ⟨j, hj, hnack⟩)
    · exact ⟨i, hi, .inl hprev⟩
    · refine ⟨rangeOf prev + j, by rw [hj, hshift], .inr ⟨Nat.le_add_right _ _, ?_⟩⟩
      rwa [Nat.add_sub_cancel_left]

theorem rangeOf_le (nack : RlcAmStatusNack) : rangeOf nack ≤ 255 := by
  unfold rangeOf
  split
  · exact Nat.le_of_lt_succ nack.nackRange.toNat_lt
  · decide

/-- The two things `push_nack` can do to the list. -/
theorem nacks_pushNack (s : RlcAmStatusPdu) (nack : RlcAmStatusNack) :
    (s.pushNack nack).nacks = s.nacks ++ [nack] ∨
      ∃ prev, s.nacks.getLast? = some prev ∧ s.canBeMerged prev nack = true ∧
        (s.pushNack nack).nacks = s.nacks.dropLast ++ [mergeNack prev nack] := by
  cases hlast : s.nacks.getLast? with
  | none => exact .inl (by rw [pushNack_of_not_canBeMerged (by simp [hlast])])
  | some prev =>
    by_cases hm : s.canBeMerged prev nack = true
    · exact .inr ⟨prev, rfl, hm, by rw [pushNack_of_canBeMerged hlast hm]⟩
    · exact .inl (by rw [pushNack_of_not_canBeMerged (by simpa [hlast] using hm)])

@[simp] theorem modNr_pushNack (s : RlcAmStatusPdu) (nack : RlcAmStatusNack) :
    (s.pushNack nack).modNr = s.modNr := by
  simp [modNr]

/-- `push_nack` adds to what the status PDU reports exactly what the NACK
reports, as long as no NACK involved has a zero range; the ranges stay
positive and within `uint8_t`, and `packed_size` keeps counting the NACKs. -/
theorem pushNack_missing {s : RlcAmStatusPdu} {nack : RlcAmStatusNack}
    (hs : ∀ m ∈ s.nacks, 0 < rangeOf m) (hn : 0 < rangeOf nack) (hc : s.Canonical) :
    (s.pushNack nack).missing = s.missing ∪ nackSet s.modNr nack ∧
      (∀ m ∈ (s.pushNack nack).nacks, 0 < rangeOf m ∧ rangeOf m ≤ 255) ∧
      (s.pushNack nack).packedSize =
        rlcAmNrStatusPduSizeofHeaderAckSn + ((s.pushNack nack).nacks.map s.nackSize).sum := by
  have hsize := (hc.pushNack nack).packedSize_eq
  rw [nackSize_congr (snSize_pushNack s nack)] at hsize
  refine ⟨?_, ?_, hsize⟩
  · rw [missing, missing, modNr_pushNack]
    rcases nacks_pushNack s nack with happ | ⟨prev, hlast, hm, hmerge⟩
    · rw [happ, listSet_append, listSet_singleton]
    · have hprev : prev ∈ s.nacks := List.mem_of_getLast? hlast
      obtain ⟨front, hfront⟩ := List.getLast?_eq_some_iff.mp hlast
      rw [hmerge, hfront, List.dropLast_concat, listSet_append, listSet_append, listSet_singleton,
        listSet_singleton, nackSet_mergeNack hm (hs prev hprev) hn, Set.union_assoc]
  · intro m hm
    refine ⟨?_, rangeOf_le m⟩
    rcases nacks_pushNack s nack with happ | ⟨prev, hlast, hmerge, hnacks⟩
    · rw [happ, List.mem_append, List.mem_singleton] at hm
      rcases hm with hm | rfl
      · exact hs m hm
      · exact hn
    · rw [hnacks, List.mem_append, List.mem_singleton] at hm
      rcases hm with hm | rfl
      · exact hs m (List.dropLast_subset _ hm)
      · rw [rangeOf_mergeNack (canBeMerged_eq_true.mp hmerge).2.2.2]
        exact Nat.add_pos_left (hs prev (List.mem_of_getLast? hlast)) _

/-- NACK 5 from offset 100 to the end of the SDU, then NACK 6 to 8 in full:
merged into NACK 5 with range 4 from offset 100. -/
theorem pushNack_missing_merge :
    let s : RlcAmStatusPdu := ⟨.size12bits, [⟨5, true, 100, soEndOfSdu, false, 0⟩], 9, 0, 10⟩
    let nack : RlcAmStatusNack := ⟨6, false, 0, soEndOfSdu, true, 3⟩
    s.pushNack nack = ⟨.size12bits, [⟨5, true, 100, soEndOfSdu, true, 4⟩], 10, 0, 10⟩ ∧
      (s.pushNack nack).missing = s.missing ∪ nackSet s.modNr nack ∧
      (∀ m ∈ (s.pushNack nack).nacks, 0 < rangeOf m ∧ rangeOf m ≤ 255) ∧
      (s.pushNack nack).packedSize =
        rlcAmNrStatusPduSizeofHeaderAckSn + ((s.pushNack nack).nacks.map s.nackSize).sum :=
  ⟨by decide, pushNack_missing (by decide) (by decide) ⟨by decide, List.isChain_singleton _⟩⟩

/-- A NACK with `has_nack_range` and range 0 reports no SN, yet the next
NACK of the same SN is merged into it and takes its `so_start`: byte 0 of
SN 5 is reported missing before the push and not after it. -/
theorem pushNack_after_empty_range_narrows :
    (5, 0) ∈ missing ⟨.size12bits, [⟨5, true, 100, soEndOfSdu, true, 0⟩], 10, 0, 10⟩ ∪
        nackSet 4096 ⟨5, false, 0, soEndOfSdu, false, 0⟩ ∧
      (5, 0) ∉ missing ((⟨.size12bits, [⟨5, true, 100, soEndOfSdu, true, 0⟩], 10, 0, 10⟩ :
        RlcAmStatusPdu).pushNack ⟨5, false, 0, soEndOfSdu, false, 0⟩) := by
  have hpush : (⟨.size12bits, [⟨5, true, 100, soEndOfSdu, true, 0⟩], 10, 0, 10⟩ :
      RlcAmStatusPdu).pushNack ⟨5, false, 0, soEndOfSdu, false, 0⟩ =
        ⟨.size12bits, [⟨5, true, 100, soEndOfSdu, true, 1⟩], 10, 0, 10⟩ := by
    decide
  refine ⟨.inr ⟨0, rfl, by decide, fun h => absurd h Bool.false_ne_true⟩, ?_⟩
  rw [hpush]
  rintro ⟨m, hm, i, -, hi, hso⟩
  rw [List.mem_singleton] at hm
  subst hm
  have hi0 : i = 0 := by simpa [rangeOf] using hi
  have hstart := (hso rfl).1 hi0
  simp at hstart

/-! ## Trimming -/

/-- `s'` is `s` after NACKs were popped from the back: the popped NACKs are
`removed`, their sizes are gone from `packed_size`, and `ack_sn` is the SN
of the first of them, or unchanged if there are none. -/
structure Trimmed (s s' : RlcAmStatusPdu) (removed : List RlcAmStatusNack) : Prop where
  nacks_eq : s.nacks = s'.nacks ++ removed
  snSize_eq : s'.snSize = s.snSize
  packedSize_eq : s'.packedSize = s.packedSize - (removed.map s.nackSize).sum
  ackSn_of_nil : removed = [] → s'.ackSn = s.ackSn
  ackSn_head : ∀ first ∈ removed.head?, first.nackSn = s'.ackSn

theorem Trimmed.refl (s : RlcAmStatusPdu) : Trimmed s s [] :=
  ⟨by simp, rfl, by simp, fun _ => rfl, by simp⟩

/-- One round of the loop of `trim`: the last NACK goes, and its SN becomes
`ack_sn`. -/
def popLast (s : RlcAmStatusPdu) (last : RlcAmStatusNack) : RlcAmStatusPdu :=
  { s with packedSize := s.packedSize - s.nackSize last, ackSn := last.nackSn, nacks := s.nacks.dropLast }

@[simp] theorem nacks_popLast (s : RlcAmStatusPdu) (last : RlcAmStatusNack) :
    (s.popLast last).nacks = s.nacks.dropLast := rfl

@[simp] theorem packedSize_popLast (s : RlcAmStatusPdu) (last : RlcAmStatusNack) :
    (s.popLast last).packedSize = s.packedSize - s.nackSize last := rfl

@[simp] theorem ackSn_popLast (s : RlcAmStatusPdu) (last : RlcAmStatusNack) :
    (s.popLast last).ackSn = last.nackSn := rfl

@[simp] theorem snSize_popLast (s : RlcAmStatusPdu) (last : RlcAmStatusNack) :
    (s.popLast last).snSize = s.snSize := rfl

theorem trimNacks_succ (maxPackedSize fuel : Nat) (s : RlcAmStatusPdu) :
    trimNacks maxPackedSize (fuel + 1) s =
      match s.nacks.getLast? with
      | some last =>
        if maxPackedSize < s.packedSize ∨ last.nackSn = s.ackSn then
          trimNacks maxPackedSize fuel (s.popLast last)
        else s
      | none => s := rfl

/-- One round of the loop, then the rest. -/
theorem Trimmed.pop {s s' : RlcAmStatusPdu} {last : RlcAmStatusNack} {removed : List RlcAmStatusNack}
    (hlast : s.nacks.getLast? = some last) (hc : s.Canonical) (h : Trimmed (s.popLast last) s' removed) :
    Trimmed s s' (removed ++ [last]) := by
  obtain ⟨front, hfront⟩ := List.getLast?_eq_some_iff.mp hlast
  have hsize : (s.popLast last).nackSize = s.nackSize := nackSize_congr rfl
  have hpacked := hc.packedSize_eq
  rw [hfront, List.map_append, List.sum_append] at hpacked
  obtain ⟨hnacks, hsn, hps, hnil, hhead⟩ := h
  rw [hsize] at hps
  simp only [nacks_popLast, packedSize_popLast, snSize_popLast, hfront, List.dropLast_concat]
    at hnacks hps hsn
  refine ⟨by rw [hfront, hnacks, List.append_assoc], hsn, ?_, by simp, ?_⟩
  · simp only [List.map_append, List.sum_append, hps]
    simp only [List.map_cons, List.map_nil, List.sum_cons, List.sum_nil] at hpacked ⊢
    omega
  · cases removed with
    | nil => simpa using (hnil rfl).symm
    | cons first rest => exact hhead

theorem Canonical.popLast {s : RlcAmStatusPdu} (hc : s.Canonical) {last : RlcAmStatusNack}
    (hlast : s.nacks.getLast? = some last) : (s.popLast last).Canonical := by
  obtain ⟨front, hfront⟩ := List.getLast?_eq_some_iff.mp hlast
  have hsize : (s.popLast last).nackSize = s.nackSize := nackSize_congr rfl
  have hmerge : (s.popLast last).canBeMerged = s.canBeMerged := canBeMerged_congr rfl
  have hpacked := hc.packedSize_eq
  have hchain := hc.unmergeable
  rw [hfront] at hpacked hchain
  constructor
  · simp only [hsize, nacks_popLast, packedSize_popLast, hfront, List.dropLast_concat]
    simp only [List.map_append, List.map_cons, List.map_nil, List.sum_append, List.sum_cons,
      List.sum_nil] at hpacked
    omega
  · rw [hmerge]
    simpa [hfront] using (List.isChain_append.mp hchain).1

theorem trimNacks_succ_of_pop {maxPackedSize fuel : Nat} {s : RlcAmStatusPdu} {last : RlcAmStatusNack}
    (hlast : s.nacks.getLast? = some last)
    (hcond : maxPackedSize < s.packedSize ∨ last.nackSn = s.ackSn) :
    trimNacks maxPackedSize (fuel + 1) s = trimNacks maxPackedSize fuel (s.popLast last) := by
  rw [trimNacks_succ, hlast]
  exact if_pos hcond

theorem trimNacks_succ_of_stop {maxPackedSize fuel : Nat} {s : RlcAmStatusPdu}
    (h : ∀ last, s.nacks.getLast? = some last →
      ¬(maxPackedSize < s.packedSize ∨ last.nackSn = s.ackSn)) :
    trimNacks maxPackedSize (fuel + 1) s = s := by
  rw [trimNacks_succ]
  split
  · rename_i last hlast
    rw [if_neg (h last hlast)]
  · rfl

theorem trimNacks_trimmed (maxPackedSize : Nat) :
    ∀ (fuel : Nat) (s : RlcAmStatusPdu), s.Canonical →
      ∃ removed, Trimmed s (trimNacks maxPackedSize fuel s) removed := by
  intro fuel
  induction fuel with
  | zero => exact fun s _ => ⟨[], Trimmed.refl s⟩
  | succ fuel ih =>
    intro s hc
    by_cases hpop : ∃ last, s.nacks.getLast? = some last ∧
        (maxPackedSize < s.packedSize ∨ last.nackSn = s.ackSn)
    · obtain ⟨last, hlast, hcond⟩ := hpop
      obtain ⟨removed, h⟩ := ih (s.popLast last) (hc.popLast hlast)
      rw [trimNacks_succ_of_pop hlast hcond]
      exact ⟨removed ++ [last], h.pop hlast hc⟩
    · rw [trimNacks_succ_of_stop (fun last hlast hcond => hpop ⟨last, hlast, hcond⟩)]
      exact ⟨[], Trimmed.refl s⟩

/-- With a round per NACK the loop ends on its own test: no NACK is left, or
the status PDU fits and its last NACK is not of `ack_sn`. -/
theorem trimNacks_stops (maxPackedSize : Nat) :
    ∀ (fuel : Nat) (s : RlcAmStatusPdu), s.nacks.length ≤ fuel →
      (trimNacks maxPackedSize fuel s).nacks = [] ∨
        ∃ last, (trimNacks maxPackedSize fuel s).nacks.getLast? = some last ∧
          ¬(maxPackedSize < (trimNacks maxPackedSize fuel s).packedSize ∨
            last.nackSn = (trimNacks maxPackedSize fuel s).ackSn) := by
  intro fuel
  induction fuel with
  | zero =>
    intro s hlen
    exact .inl (List.eq_nil_of_length_eq_zero (Nat.le_zero.mp hlen) : s.nacks = [])
  | succ fuel ih =>
    intro s hlen
    by_cases hpop : ∃ last, s.nacks.getLast? = some last ∧
        (maxPackedSize < s.packedSize ∨ last.nackSn = s.ackSn)
    · obtain ⟨last, hlast, hcond⟩ := hpop
      rw [trimNacks_succ_of_pop hlast hcond]
      exact ih _ (by simp only [nacks_popLast, List.length_dropLast]; omega)
    · have hstop : ∀ last, s.nacks.getLast? = some last →
          ¬(maxPackedSize < s.packedSize ∨ last.nackSn = s.ackSn) :=
        fun last hlast hcond => hpop ⟨last, hlast, hcond⟩
      rw [trimNacks_succ_of_stop hstop]
      cases hlast : s.nacks.getLast? with
      | none => exact .inl (List.getLast?_eq_none_iff.mp hlast)
      | some last => exact .inr ⟨last, rfl, hstop last hlast⟩

theorem Trimmed.canonical {s s' : RlcAmStatusPdu} {removed : List RlcAmStatusNack}
    (h : Trimmed s s' removed) (hc : s.Canonical) : s'.Canonical := by
  have hsize : s'.nackSize = s.nackSize := nackSize_congr h.snSize_eq
  have hmerge : s'.canBeMerged = s.canBeMerged := canBeMerged_congr h.snSize_eq
  have hpacked := hc.packedSize_eq
  have hchain := hc.unmergeable
  rw [h.nacks_eq] at hpacked hchain
  rw [List.map_append, List.sum_append] at hpacked
  constructor
  · rw [h.packedSize_eq, hsize, hpacked]
    omega
  · rw [hmerge]
    exact (List.isChain_append.mp hchain).1

/-- The NACKs of one SN are adjacent in the list, as `refresh_status_report`
pushes them. -/
def SnContiguous (nacks : List RlcAmStatusNack) : Prop :=
  ∀ a b c, List.Sublist [a, b, c] nacks → a.nackSn = c.nackSn → b.nackSn = a.nackSn

/-- After the loop popped `first :: rest`, no NACK left has the SN of
`first`: the last one left has another SN, and so then have those before
it. -/
theorem nackSn_ne_of_popped {kept rest : List RlcAmStatusNack} {first : RlcAmStatusNack}
    (hcont : SnContiguous (kept ++ first :: rest))
    (hlast : ∀ last ∈ kept.getLast?, last.nackSn ≠ first.nackSn) :
    ∀ m ∈ kept, m.nackSn ≠ first.nackSn := by
  intro m hm hsn
  obtain ⟨front, last, hkept⟩ : ∃ front last, kept = front ++ [last] :=
    ⟨kept.dropLast, kept.getLast (List.ne_nil_of_mem hm), (List.dropLast_concat_getLast _).symm⟩
  subst hkept
  have hl : last.nackSn ≠ first.nackSn := hlast last (by simp)
  rcases List.mem_append.mp hm with hfront | hm
  · have hsub : List.Sublist [m, last, first] (front ++ [last] ++ first :: rest) :=
      ((List.singleton_sublist.mpr hfront).append (List.Sublist.refl [last])).append
        (List.singleton_sublist.mpr List.mem_cons_self)
    exact hl ((hcont m last first hsub hsn).trans hsn)
  · rw [List.mem_singleton.mp hm] at hsn
    exact hl hsn

/-- `trim` on a status PDU whose `packed_size` counts its NACKs, whose
`ack_sn` has no NACK and whose NACKs of one SN are adjacent: from 3 octets
on it succeeds, the result fits and still counts its NACKs, keeps a prefix
of them, has no NACK of its `ack_sn`, and the NACKs it dropped start with
one of that SN; below 3 octets it fails and changes nothing. -/
theorem trim_spec {s : RlcAmStatusPdu} (hc : s.Canonical) (hack : ∀ m ∈ s.nacks, m.nackSn ≠ s.ackSn)
    (hcont : SnContiguous s.nacks) (maxPackedSize : Nat) :
    (rlcAmNrStatusPduSizeofHeaderAckSn ≤ maxPackedSize →
      ∃ s' removed, s.trim maxPackedSize = (true, s') ∧ s'.packedSize ≤ maxPackedSize ∧
        s'.packedSize = rlcAmNrStatusPduSizeofHeaderAckSn + (s'.nacks.map s'.nackSize).sum ∧
        s.nacks = s'.nacks ++ removed ∧ (∀ m ∈ s'.nacks, m.nackSn ≠ s'.ackSn) ∧
        ∀ first ∈ removed.head?, first.nackSn = s'.ackSn) ∧
    (maxPackedSize < rlcAmNrStatusPduSizeofHeaderAckSn → s.trim maxPackedSize = (false, s)) := by
  have hpacked := hc.packedSize_eq
  refine ⟨fun hmin => ?_, fun hlt => ?_⟩
  · by_cases hfit : maxPackedSize ≥ s.packedSize
    · exact ⟨s, [], by simp [trim, hfit], hfit, hpacked, by simp, hack, by simp⟩
    · obtain ⟨removed, ht⟩ := trimNacks_trimmed maxPackedSize s.nacks.length s hc
      have hc' := ht.canonical hc
      refine ⟨_, removed, by simp [trim, hfit, Nat.not_lt.mpr hmin], ?_, hc'.packedSize_eq,
        ht.nacks_eq, ?_, ht.ackSn_head⟩
      · rcases trimNacks_stops maxPackedSize _ s le_rfl with hnil | ⟨last, -, hstop⟩
        · rw [hc'.packedSize_eq, hnil]
          exact hmin
        · exact Nat.not_lt.mp fun h => hstop (.inl h)
      · cases hremoved : removed with
        | nil =>
          rw [ht.ackSn_of_nil hremoved]
          intro m hm
          exact hack m (by rw [ht.nacks_eq, hremoved, List.append_nil]; exact hm)
        | cons first rest =>
          rw [← ht.ackSn_head first (by simp [hremoved])]
          rw [ht.nacks_eq, hremoved] at hcont
          apply nackSn_ne_of_popped hcont
          intro last hlast
          rcases trimNacks_stops maxPackedSize _ s le_rfl with hnil | ⟨last', hlast', hstop⟩
          · simp [hnil] at hlast
          · rw [hlast', Option.mem_def, Option.some.injEq] at hlast
            subst hlast
            rw [ht.ackSn_head first (by simp [hremoved])]
            exact fun h => hstop (.inr h)
  · have hge : ¬(maxPackedSize ≥ s.packedSize) := by omega
    simp [trim, hge, hlt]

/-- Three NACKs pushed in the order SN 5, 7, 5, with `ack_sn = 8`: trimmed
to 12 octets, the second NACK of SN 5 goes and `ack_sn` becomes 5, while
the first NACK of SN 5 stays. -/
theorem trim_keeps_nack_of_new_ackSn :
    ({ (init .size12bits).pushNacks [⟨5, true, 0, 9, false, 0⟩, ⟨7, false, 0, soEndOfSdu, false, 0⟩,
        ⟨5, true, 20, 29, false, 0⟩] with ackSn := 8 } : RlcAmStatusPdu).trim 12 =
      (true, ⟨.size12bits, [⟨5, true, 0, 9, false, 0⟩, ⟨7, false, 0, soEndOfSdu, false, 0⟩], 11, 0, 5⟩) := by
  decide

/-- Two NACKs, SN 3 and 5, with `ack_sn = 8`, trimmed to 5 octets: the NACK
of SN 5 goes and `ack_sn` becomes 5. -/
theorem trim_spec_two_nacks :
    let s : RlcAmStatusPdu :=
      ⟨.size12bits, [⟨3, false, 0, soEndOfSdu, false, 0⟩, ⟨5, false, 0, soEndOfSdu, false, 0⟩], 7, 0, 8⟩
    (rlcAmNrStatusPduSizeofHeaderAckSn ≤ 5 →
      ∃ s' removed, s.trim 5 = (true, s') ∧ s'.packedSize ≤ 5 ∧
        s'.packedSize = rlcAmNrStatusPduSizeofHeaderAckSn + (s'.nacks.map s'.nackSize).sum ∧
        s.nacks = s'.nacks ++ removed ∧ (∀ m ∈ s'.nacks, m.nackSn ≠ s'.ackSn) ∧
        ∀ first ∈ removed.head?, first.nackSn = s'.ackSn) ∧
    (5 < rlcAmNrStatusPduSizeofHeaderAckSn → s.trim 5 = (false, s)) :=
  trim_spec ⟨by decide, by decide⟩ (by decide)
    (fun a b c h _ => absurd h.length_le (by simp)) 5

end RlcAmStatusPdu

end SrsRan.Rlc
