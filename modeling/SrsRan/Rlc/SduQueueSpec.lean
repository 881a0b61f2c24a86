import SrsRan.Lib.Fallible
import SrsRan.Rlc.SduQueue

/-!
What the SDU queue is for, and that `rlc_sdu_queue_lockfree` implements it
when its calls come one after another.

The abstract queue (`SduFifo`) is a FIFO of at most `capacity` SDUs, each
marked once it is discarded: a write is refused when the FIFO is full or an
SDU it holds has the same PDCP SN modulo the capacity; a discard marks the
queued SDU with that SN if it is not marked yet; a read drops the marked SDUs
at the head and returns the first unmarked one. Its totals are the number and
the octets of the unmarked SDUs.

The slot table and the packed totals of the implementation agree with the
abstract queue (`SlotsAgree`): each queued SDU with a PDCP SN owns its slot,
which records whether it was discarded and its size, every other slot is
free, and the 64-bit state is the sum of `2^32 + size` over the unmarked
SDUs. Each call keeps that agreement and returns what the abstract queue
returns (`apply_refines`), so a whole run does (`run_refines`). `get_state`
then reads the totals back exactly while the octets stay below `2^32`; past
that the byte count carries into the SDU count.
-/

namespace SrsRan.Rlc

/-- An SDU of the abstract queue, and whether it was discarded. -/
structure QueuedSdu where
  sdu : RlcSdu
  discarded : Bool
  deriving DecidableEq, Repr

/-- The abstract SDU queue: the SDUs written and not yet read, oldest first. -/
structure SduFifo where
  capacity : Nat
  entries : List QueuedSdu
  deriving DecidableEq, Repr

/-- The calls of one thread after the other. -/
inductive SduQueueOp where
  | write (sdu : RlcSdu)
  | tryDiscard (pdcpSn : Nat)
  | read
  deriving DecidableEq, Repr

/-- What each call returns. -/
inductive SduQueueOutput where
  | written (ok : Bool)
  | discarded (ok : Bool)
  | read (sdu : Option RlcSdu)
  deriving DecidableEq, Repr

namespace QueuedSdu

/-- The share of the packed state an SDU holds while it is queued and not
discarded: one SDU in the upper half, its size as a `uint32_t` in the lower. -/
def weight (e : QueuedSdu) : Nat := if e.discarded then 0 else 2 ^ 32 + e.sdu.buf.length % 2 ^ 32

/-- The slot of the SDU, if it has a PDCP SN. -/
def slot (capacity : Nat) (e : QueuedSdu) : Option Nat := e.sdu.pdcpSn.map (· % capacity)

/-- The mark that `try_discard sn` puts on the SDU with this PDCP SN. -/
def mark (sn : Nat) (e : QueuedSdu) : QueuedSdu :=
  if e.sdu.pdcpSn = some sn then { e with discarded := true } else e

@[simp] theorem sdu_mark (sn : Nat) (e : QueuedSdu) : (e.mark sn).sdu = e.sdu := by
  unfold mark
  split_ifs <;> rfl

end QueuedSdu

namespace SduFifo

def empty (capacity : Nat) : SduFifo := ⟨capacity, []⟩

/-- A queued SDU, discarded or not, has the PDCP SN `sn` modulo the
capacity. -/
def slotTaken (f : SduFifo) (sn : Nat) : Bool :=
  f.entries.any fun e => e.slot f.capacity == some (sn % f.capacity)

/-- A queued SDU with the PDCP SN `sn` is not discarded. -/
def holds (f : SduFifo) (sn : Nat) : Bool :=
  f.entries.any fun e => !e.discarded && e.sdu.pdcpSn == some sn

def write (f : SduFifo) (sdu : RlcSdu) : Bool × SduFifo :=
  if f.entries.length ≥ f.capacity || sdu.pdcpSn.any f.slotTaken then (false, f)
  else (true, { f with entries := f.entries ++ [⟨sdu, false⟩] })

def tryDiscard (f : SduFifo) (sn : Nat) : Bool × SduFifo :=
  if f.holds sn then (true, { f with entries := f.entries.map (QueuedSdu.mark sn) }) else (false, f)

/-- A read of a list of entries: the discarded SDUs at its head are dropped and
the first one left is returned. -/
def takeLive (l : List QueuedSdu) : Option RlcSdu × List QueuedSdu :=
  match l.dropWhile (·.discarded) with
  | [] => (none, [])
  | e :: rest => (some e.sdu, rest)

def read (f : SduFifo) : Option RlcSdu × SduFifo :=
  ((takeLive f.entries).1, { f with entries := (takeLive f.entries).2 })

/-- The SDUs that are queued and not discarded. -/
def live (f : SduFifo) : List RlcSdu := (f.entries.filter (!·.discarded)).map (·.sdu)

def nofSdus (f : SduFifo) : Nat := f.live.length

def nofBytes (f : SduFifo) : Nat := (f.live.map (·.buf.length)).sum

def apply (f : SduFifo) : SduQueueOp → SduQueueOutput × SduFifo
  | .write sdu => (.written (f.write sdu).1, (f.write sdu).2)
  | .tryDiscard sn => (.discarded (f.tryDiscard sn).1, (f.tryDiscard sn).2)
  | .read => (.read f.read.1, f.read.2)

def run (f : SduFifo) : List SduQueueOp → List SduQueueOutput × SduFifo
  | [] => ([], f)
  | op :: ops => ((f.apply op).1 :: ((f.apply op).2.run ops).1, ((f.apply op).2.run ops).2)

end SduFifo

namespace RlcSduQueue

/-- One call; `write` and `try_discard` may fault. -/
def apply (q : RlcSduQueue) : SduQueueOp → Except SduQueueFault (SduQueueOutput × RlcSduQueue)
  | .write sdu => (q.write sdu).map fun r => (.written r.1, r.2)
  | .tryDiscard sn => (q.tryDiscard sn).map fun r => (.discarded r.1, r.2)
  | .read => .ok (.read q.read.1, q.read.2)

/-- The calls in turn, stopping at the first fault. -/
def run (q : RlcSduQueue) : List SduQueueOp → Except SduQueueFault (List SduQueueOutput × RlcSduQueue)
  | [] => .ok ([], q)
  | op :: ops => do
    let (out, q) ← q.apply op
    let (outs, q) ← q.run ops
    return (out :: outs, q)

end RlcSduQueue

/-! ## Slots owned by the queued SDUs -/

/-- The slots the entries own, in order. -/
def slots (capacity : Nat) (l : List QueuedSdu) : List Nat := l.filterMap (QueuedSdu.slot capacity)

section Slots

variable {cap : Nat} {l : List QueuedSdu}

theorem slots_cons_of_sn {e : QueuedSdu} {sn : Nat} (hsn : e.sdu.pdcpSn = some sn) (l : List QueuedSdu) :
    slots cap (e :: l) = sn % cap :: slots cap l := by
  simp [slots, QueuedSdu.slot, hsn]

theorem slots_cons_of_none {e : QueuedSdu} (hsn : e.sdu.pdcpSn = none) (l : List QueuedSdu) :
    slots cap (e :: l) = slots cap l := by
  simp [slots, QueuedSdu.slot, hsn]

theorem slots_append (l l' : List QueuedSdu) : slots cap (l ++ l') = slots cap l ++ slots cap l' :=
  List.filterMap_append

theorem mem_slots {i : Nat} :
    i ∈ slots cap l ↔ ∃ e ∈ l, ∃ sn, e.sdu.pdcpSn = some sn ∧ sn % cap = i := by
  simp [slots, QueuedSdu.slot]

theorem mem_slots_of_mem {e : QueuedSdu} (he : e ∈ l) {sn : Nat} (hsn : e.sdu.pdcpSn = some sn) :
    sn % cap ∈ slots cap l :=
  mem_slots.mpr ⟨e, he, sn, hsn, rfl⟩

/-- Marking leaves every SDU in its slot. -/
theorem slots_map_mark (sn : Nat) (l : List QueuedSdu) : slots cap (l.map (QueuedSdu.mark sn)) = slots cap l := by
  unfold slots
  rw [List.filterMap_map]
  congr 1
  funext e
  unfold QueuedSdu.mark
  rw [Function.comp_apply]
  split_ifs <;> rfl

/-- While the slots are distinct, an SDU is the only one in its slot. Induction
on the entries. -/
theorem eq_of_slot_eq (hnd : (slots cap l).Nodup) {x y : QueuedSdu} (hx : x ∈ l) (hy : y ∈ l)
    {i : Nat} (hxi : x.slot cap = some i) (hyi : y.slot cap = some i) : x = y := by
  induction l with
  | nil => cases hx
  | cons z zs ih =>
    have hz : ∀ w ∈ zs, w.slot cap = some i → z.slot cap = some i → False := by
      intro w hw hwi hzi
      obtain ⟨sn, hsn, rfl⟩ : ∃ sn, z.sdu.pdcpSn = some sn ∧ sn % cap = i := by
        simpa [QueuedSdu.slot] using hzi
      rw [slots_cons_of_sn hsn, List.nodup_cons] at hnd
      exact hnd.1 (List.mem_filterMap.mpr ⟨w, hw, hwi⟩)
    have htail : (slots cap zs).Nodup := by
      cases hsn : z.sdu.pdcpSn with
      | none => rwa [slots_cons_of_none hsn] at hnd
      | some sn => exact (List.nodup_cons.mp (slots_cons_of_sn hsn zs ▸ hnd)).2
    rcases List.mem_cons.mp hx with rfl | hx' <;> rcases List.mem_cons.mp hy with rfl | hy'
    · rfl
    · exact (hz y hy' hyi hxi).elim
    · exact (hz x hx' hxi hyi).elim
    · exact ih htail hx' hy'

end Slots

/-! ## The packed totals -/

namespace RlcSduQueue

/-- `1 << 32 | size`: the two halves do not overlap. -/
theorem stateChange_eq (n : Nat) : stateChange n = 2 ^ 32 + n % 2 ^ 32 := by
  rw [stateChange, ← Nat.shiftLeft_add_eq_or_of_lt (Nat.mod_lt _ (by norm_num)), Nat.shiftLeft_eq, Nat.one_mul]

theorem state_stateAdd (q : RlcSduQueue) (n : Nat) :
    (q.stateAdd n).state = (q.state + (2 ^ 32 + n % 2 ^ 32)) % 2 ^ 64 := by
  cases q
  rw [stateAdd, stateChange_eq]

theorem state_stateSub (q : RlcSduQueue) (n : Nat) :
    (q.stateSub n).state = (q.state + 2 ^ 64 - (2 ^ 32 + n % 2 ^ 32)) % 2 ^ 64 := by
  cases q
  rw [stateSub, stateChange_eq]

end RlcSduQueue

namespace QueuedSdu

theorem weight_of_live {e : QueuedSdu} (he : e.discarded = false) : e.weight = 2 ^ 32 + e.sdu.buf.length % 2 ^ 32 := by
  rw [weight, he]
  rfl

theorem weight_of_discarded {e : QueuedSdu} (he : e.discarded = true) : e.weight = 0 := by
  rw [weight, he]
  rfl

end QueuedSdu

/-- The sum of the shares: the number of SDUs not discarded in the upper half,
their sizes as `uint32_t` in the lower. Induction on the entries. -/
theorem sum_weight (l : List QueuedSdu) :
    (l.map QueuedSdu.weight).sum =
      (l.filter (!·.discarded)).length * 2 ^ 32 + ((l.filter (!·.discarded)).map (·.sdu.buf.length % 2 ^ 32)).sum := by
  induction l with
  | nil => rfl
  | cons e l ih =>
    cases he : e.discarded
    · simp only [List.map_cons, List.sum_cons, QueuedSdu.weight_of_live he, ih, List.filter_cons, he,
        Bool.not_false, if_true, List.length_cons]
      ring
    · simp only [List.map_cons, List.sum_cons, QueuedSdu.weight_of_discarded he, ih, List.filter_cons, he,
        Bool.not_true, Bool.false_eq_true, if_false, Nat.zero_add]

/-- Marking the one live SDU with a PDCP SN takes its share off the sum.
Induction on the entries; the distinct slots make the SDU the only one
marked. -/
theorem sum_weight_mark {cap sn : Nat} {l : List QueuedSdu} (hnd : (slots cap l).Nodup) {e : QueuedSdu}
    (he : e ∈ l) (hsn : e.sdu.pdcpSn = some sn) (hlive : e.discarded = false) :
    ((l.map (QueuedSdu.mark sn)).map QueuedSdu.weight).sum + e.weight = (l.map QueuedSdu.weight).sum := by
  induction l with
  | nil => cases he
  | cons x xs ih =>
    by_cases hx : x.sdu.pdcpSn = some sn
    · -- `x` is `e`, and no other SDU has its SN
      have hxe : x = e :=
        eq_of_slot_eq hnd List.mem_cons_self he (i := sn % cap) (by simp [QueuedSdu.slot, hx])
          (by simp [QueuedSdu.slot, hsn])
      subst hxe
      have hrest : xs.map (QueuedSdu.mark sn) = xs := by
        rw [slots_cons_of_sn hx, List.nodup_cons] at hnd
        refine (List.map_congr_left fun y hy => ?_).trans (List.map_id xs)
        unfold QueuedSdu.mark
        rw [if_neg fun hy' => hnd.1 (mem_slots_of_mem hy hy')]
        rfl
      have hmarked : (QueuedSdu.mark sn x).weight = 0 := by
        unfold QueuedSdu.mark
        rw [if_pos hx]
        exact QueuedSdu.weight_of_discarded rfl
      simp only [List.map_cons, List.sum_cons, hrest, hmarked]
      omega
    · have he' : e ∈ xs := by
        rcases List.mem_cons.mp he with rfl | he'
        · exact absurd hsn hx
        · exact he'
      have hnd' : (slots cap xs).Nodup := by
        cases hxs : x.sdu.pdcpSn with
        | none => rwa [slots_cons_of_none hxs] at hnd
        | some m => exact (List.nodup_cons.mp (slots_cons_of_sn hxs xs ▸ hnd)).2
      have hmark : QueuedSdu.mark sn x = x := by
        unfold QueuedSdu.mark
        rw [if_neg hx]
      simp only [List.map_cons, List.sum_cons, hmark]
      have := ih hnd' he'
      omega

/-! ## The slot table agrees with the abstract queue -/

/-- The slot table and the packed totals of `q` agree with the entries `l`:
each entry with a PDCP SN owns its slot, which records whether it was
discarded and its size; every other slot is free; and the state is the sum of
the shares of the entries. -/
structure SlotsAgree (q : RlcSduQueue) (l : List QueuedSdu) : Prop where
  nodup : (slots q.capacity l).Nodup
  kept_of_none : ∀ e ∈ l, e.sdu.pdcpSn = none → e.discarded = false
  owned : ∀ e ∈ l, ∀ sn, e.sdu.pdcpSn = some sn →
    q.sduStates (sn % q.capacity) = (if e.discarded then .discarded else .held sn) ∧
      q.sduSizes (sn % q.capacity) = e.sdu.buf.length
  free : ∀ i ∉ slots q.capacity l, q.sduStates i = .free
  state_eq : q.state = (l.map QueuedSdu.weight).sum % 2 ^ 64

/-- The implementation refines the abstract queue. -/
structure Refines (q : RlcSduQueue) (f : SduFifo) : Prop where
  capacity_eq : q.capacity = f.capacity
  queue_eq : q.queue = f.entries.map (·.sdu)
  agree : SlotsAgree q f.entries

namespace SlotsAgree

variable {q q' : RlcSduQueue} {l : List QueuedSdu}

/-- A slot some entry owns is not free. -/
theorem not_free (h : SlotsAgree q l) {i : Nat} (hi : i ∈ slots q.capacity l) : q.sduStates i ≠ .free := by
  obtain ⟨e, he, sn, hsn, rfl⟩ := mem_slots.mp hi
  rw [(h.owned e he sn hsn).1]
  split_ifs <;> simp

theorem free_iff (h : SlotsAgree q l) (i : Nat) : q.sduStates i = .free ↔ i ∉ slots q.capacity l :=
  ⟨fun hfree hi => h.not_free hi hfree, h.free i⟩

/-- A slot holds `sn` exactly when a live entry has that SN. -/
theorem held_iff (h : SlotsAgree q l) (sn : Nat) :
    q.sduStates (sn % q.capacity) = .held sn ↔ ∃ e ∈ l, e.discarded = false ∧ e.sdu.pdcpSn = some sn := by
  constructor
  · intro hheld
    have hi : sn % q.capacity ∈ slots q.capacity l := by
      by_contra hi
      rw [h.free _ hi] at hheld
      cases hheld
    obtain ⟨e, he, sn', hsn', hmod⟩ := mem_slots.mp hi
    have howned := (h.owned e he sn' hsn').1
    rw [hmod, hheld] at howned
    cases hd : e.discarded
    · rw [hd] at howned
      cases howned
      exact ⟨e, he, hd, hsn'⟩
    · rw [hd] at howned
      cases howned
  · rintro ⟨e, he, hlive, hsn⟩
    rw [(h.owned e he sn hsn).1, hlive]
    rfl

/-- Every field but the table of slot states and the state is left as it was. -/
theorem congr (h : SlotsAgree q l) (hc : q'.capacity = q.capacity) (hs : q'.sduStates = q.sduStates)
    (hz : q'.sduSizes = q.sduSizes) (ht : q'.state = q.state) : SlotsAgree q' l := by
  obtain ⟨hnd, hkept, howned, hfree, hstate⟩ := h
  refine ⟨?_, hkept, ?_, ?_, ?_⟩
  · rwa [hc]
  · rw [hc, hs, hz]
    exact howned
  · rw [hc, hs]
    exact hfree
  · rw [ht]
    exact hstate

/-- A size stored in a free slot is not read. -/
theorem update_sizes (h : SlotsAgree q l) {i v : Nat} (hi : i ∉ slots q.capacity l) :
    SlotsAgree { q with sduSizes := Function.update q.sduSizes i v } l := by
  obtain ⟨hnd, hkept, howned, hfree, hstate⟩ := h
  refine ⟨hnd, hkept, ?_, hfree, hstate⟩
  intro e he sn hsn
  have hne : sn % q.capacity ≠ i := fun heq => hi (heq ▸ mem_slots_of_mem he hsn)
  dsimp only
  rw [Function.update_of_ne hne]
  exact howned e he sn hsn

/-- A written SDU with a PDCP SN takes its free slot and adds its share. -/
theorem snoc_held (h : SlotsAgree q l) {sdu : RlcSdu} {sn : Nat} (hsn : sdu.pdcpSn = some sn)
    (hi : sn % q.capacity ∉ slots q.capacity l) (hc : q'.capacity = q.capacity)
    (hs : q'.sduStates = Function.update q.sduStates (sn % q.capacity) (.held sn))
    (hz : q'.sduSizes = Function.update q.sduSizes (sn % q.capacity) sdu.buf.length)
    (ht : q'.state = (q.state + (2 ^ 32 + sdu.buf.length % 2 ^ 32)) % 2 ^ 64) :
    SlotsAgree q' (l ++ [⟨sdu, false⟩]) := by
  have hnew : slots q.capacity [⟨sdu, false⟩] = [sn % q.capacity] := by
    simp [slots, QueuedSdu.slot, hsn]
  refine ⟨?_, ?_, ?_, ?_, ?_⟩
  · rw [hc, slots_append, hnew, List.nodup_append]
    refine ⟨h.nodup, List.nodup_singleton _, ?_⟩
    rintro a ha b hb rfl
    rw [List.mem_singleton] at hb
    exact hi (hb ▸ ha)
  · intro e he hnone
    rcases List.mem_append.mp he with he | he
    · exact h.kept_of_none e he hnone
    · rw [List.mem_singleton] at he
      rw [he]
  · intro e he sn' hsn'
    rw [hc, hs, hz]
    rcases List.mem_append.mp he with he | he
    · -- an entry already queued keeps its slot, which is not the new one
      have hne : sn' % q.capacity ≠ sn % q.capacity := fun heq => hi (heq ▸ mem_slots_of_mem he hsn')
      rw [Function.update_of_ne hne, Function.update_of_ne hne]
      exact h.owned e he sn' hsn'
    · rw [List.mem_singleton] at he
      subst he
      rw [hsn] at hsn'
      cases hsn'
      simp
  · intro j hj
    rw [hc, slots_append, hnew] at hj
    have hne : j ≠ sn % q.capacity := fun heq => hj (List.mem_append_right _ (List.mem_singleton.mpr heq))
    rw [hs, Function.update_of_ne hne]
    exact h.free j fun hj' => hj (List.mem_append_left _ hj')
  · rw [ht, h.state_eq, List.map_append, List.sum_append, List.map_singleton, List.sum_singleton,
      QueuedSdu.weight_of_live rfl]
    dsimp only
    omega

/-- A written SDU without a PDCP SN adds its share. -/
theorem snoc_none (h : SlotsAgree q l) {sdu : RlcSdu} (hsn : sdu.pdcpSn = none) (hc : q'.capacity = q.capacity)
    (hs : q'.sduStates = q.sduStates) (hz : q'.sduSizes = q.sduSizes)
    (ht : q'.state = (q.state + (2 ^ 32 + sdu.buf.length % 2 ^ 32)) % 2 ^ 64) :
    SlotsAgree q' (l ++ [⟨sdu, false⟩]) := by
  have hnew : slots q.capacity (l ++ [⟨sdu, false⟩]) = slots q.capacity l := by
    simp [slots, QueuedSdu.slot, hsn]
  refine ⟨?_, ?_, ?_, ?_, ?_⟩
  · rw [hc, hnew]
    exact h.nodup
  · intro e he hnone
    rcases List.mem_append.mp he with he | he
    · exact h.kept_of_none e he hnone
    · rw [List.mem_singleton] at he
      rw [he]
  · intro e he sn' hsn'
    rw [hc, hs, hz]
    rcases List.mem_append.mp he with he | he
    · exact h.owned e he sn' hsn'
    · rw [List.mem_singleton] at he
      subst he
      rw [hsn] at hsn'
      cases hsn'
  · intro j hj
    rw [hc, hnew] at hj
    rw [hs]
    exact h.free j hj
  · rw [ht, h.state_eq, List.map_append, List.sum_append, List.map_singleton, List.sum_singleton,
      QueuedSdu.weight_of_live rfl]
    dsimp only
    omega

/-- What the head of the entries leaves to the rest: the distinct slots, the
rest's ownership, and its slots. -/
theorem tail_of_cons (h : SlotsAgree q (e :: l)) :
    (slots q.capacity l).Nodup ∧ (∀ x ∈ l, x.sdu.pdcpSn = none → x.discarded = false) ∧
      ∀ x ∈ l, ∀ sn, x.sdu.pdcpSn = some sn →
        (q.sduStates (sn % q.capacity) = if x.discarded then .discarded else .held sn) ∧
          q.sduSizes (sn % q.capacity) = x.sdu.buf.length := by
  have hnd : (slots q.capacity l).Nodup := by
    cases hsn : e.sdu.pdcpSn with
    | none => simpa [slots_cons_of_none hsn] using h.nodup
    | some sn => exact (List.nodup_cons.mp (slots_cons_of_sn hsn l ▸ h.nodup)).2
  exact ⟨hnd, fun x hx => h.kept_of_none x (List.mem_cons_of_mem _ hx),
    fun x hx => h.owned x (List.mem_cons_of_mem _ hx)⟩

/-- Reading an SDU with a PDCP SN frees its slot; the totals lose its share
unless it was discarded. -/
theorem tail_of_sn (h : SlotsAgree q (e :: l)) {sn : Nat} (hsn : e.sdu.pdcpSn = some sn)
    (hc : q'.capacity = q.capacity) (hs : q'.sduStates = Function.update q.sduStates (sn % q.capacity) .free)
    (hz : q'.sduSizes = q.sduSizes)
    (ht : q'.state = if e.discarded then q.state
      else (q.state + 2 ^ 64 - (2 ^ 32 + q.sduSizes (sn % q.capacity) % 2 ^ 32)) % 2 ^ 64) :
    SlotsAgree q' l := by
  obtain ⟨hnd, hkept, howned⟩ := h.tail_of_cons
  have hi : sn % q.capacity ∉ slots q.capacity l :=
    (List.nodup_cons.mp (slots_cons_of_sn hsn l ▸ h.nodup)).1
  refine ⟨?_, hkept, ?_, ?_, ?_⟩
  · rwa [hc]
  · intro x hx sn' hsn'
    have hne : sn' % q.capacity ≠ sn % q.capacity := fun heq => hi (heq ▸ mem_slots_of_mem hx hsn')
    rw [hc, hs, hz, Function.update_of_ne hne]
    exact howned x hx sn' hsn'
  · intro j hj
    rw [hc] at hj
    rw [hs]
    by_cases hne : j = sn % q.capacity
    · rw [hne, Function.update_self]
    · rw [Function.update_of_ne hne]
      apply h.free j
      rw [slots_cons_of_sn hsn, List.mem_cons]
      exact fun hj' => hj'.elim hne hj
  · have hshare := h.state_eq
    rw [List.map_cons, List.sum_cons] at hshare
    rw [ht, hshare]
    cases hd : e.discarded
    · -- the share taken off is the size the slot recorded
      rw [if_neg (by simp), QueuedSdu.weight_of_live hd, (h.owned e List.mem_cons_self sn hsn).2]
      omega
    · rw [if_pos rfl, QueuedSdu.weight_of_discarded hd, Nat.zero_add]

/-- Reading an SDU without a PDCP SN takes its share off. -/
theorem tail_of_none (h : SlotsAgree q (e :: l)) (hsn : e.sdu.pdcpSn = none)
    (hc : q'.capacity = q.capacity) (hs : q'.sduStates = q.sduStates) (hz : q'.sduSizes = q.sduSizes)
    (ht : q'.state = (q.state + 2 ^ 64 - (2 ^ 32 + e.sdu.buf.length % 2 ^ 32)) % 2 ^ 64) :
    SlotsAgree q' l := by
  obtain ⟨hnd, hkept, howned⟩ := h.tail_of_cons
  refine ⟨?_, hkept, ?_, ?_, ?_⟩
  · rwa [hc]
  · rw [hc, hs, hz]
    exact howned
  · intro j hj
    rw [hc] at hj
    rw [hs]
    exact h.free j (by rwa [slots_cons_of_none hsn])
  · have hshare := h.state_eq
    rw [List.map_cons, List.sum_cons, QueuedSdu.weight_of_live (h.kept_of_none e List.mem_cons_self hsn)]
      at hshare
    rw [ht, hshare]
    omega

/-- Discarding the live SDU with a PDCP SN marks its slot and takes its share
off. -/
theorem mark (h : SlotsAgree q l) {e : QueuedSdu} (he : e ∈ l) {sn : Nat} (hsn : e.sdu.pdcpSn = some sn)
    (hlive : e.discarded = false) (hc : q'.capacity = q.capacity)
    (hs : q'.sduStates = Function.update q.sduStates (sn % q.capacity) .discarded) (hz : q'.sduSizes = q.sduSizes)
    (ht : q'.state = (q.state + 2 ^ 64 - (2 ^ 32 + q.sduSizes (sn % q.capacity) % 2 ^ 32)) % 2 ^ 64) :
    SlotsAgree q' (l.map (QueuedSdu.mark sn)) := by
  refine ⟨?_, ?_, ?_, ?_, ?_⟩
  · rw [hc, slots_map_mark]
    exact h.nodup
  · intro x hx hnone
    obtain ⟨y, hy, rfl⟩ := List.mem_map.mp hx
    have hnone' : y.sdu.pdcpSn = none := by rwa [QueuedSdu.sdu_mark] at hnone
    unfold QueuedSdu.mark
    rw [if_neg (by rw [hnone']; simp)]
    exact h.kept_of_none y hy hnone'
  · intro x hx sn' hsn'
    obtain ⟨y, hy, rfl⟩ := List.mem_map.mp hx
    have hsn'' : y.sdu.pdcpSn = some sn' := by rwa [QueuedSdu.sdu_mark] at hsn'
    rw [hc, hs, hz]
    by_cases hys : sn' = sn
    · -- the entry with this SN is `e`, now marked
      subst hys
      have hye : y = e := eq_of_slot_eq h.nodup hy he (i := sn' % q.capacity)
        (by simp [QueuedSdu.slot, hsn'']) (by simp [QueuedSdu.slot, hsn])
      subst hye
      unfold QueuedSdu.mark
      rw [if_pos hsn, Function.update_self]
      exact ⟨rfl, (h.owned y hy sn' hsn).2⟩
    · have hne : sn' % q.capacity ≠ sn % q.capacity := by
        intro heq
        have hye : y = e := eq_of_slot_eq h.nodup hy he (i := sn % q.capacity)
          (by simp [QueuedSdu.slot, hsn'', heq]) (by simp [QueuedSdu.slot, hsn])
        rw [hye, hsn] at hsn''
        exact hys (Option.some.inj hsn'').symm
      have hmark : QueuedSdu.mark sn y = y := by
        unfold QueuedSdu.mark
        rw [if_neg (by rw [hsn'']; exact fun h' => hys (Option.some.inj h'))]
      rw [hmark, Function.update_of_ne hne]
      exact h.owned y hy sn' hsn''
  · intro j hj
    rw [hc, slots_map_mark] at hj
    have hne : j ≠ sn % q.capacity := fun heq => hj (heq ▸ mem_slots_of_mem he hsn)
    rw [hs, Function.update_of_ne hne]
    exact h.free j hj
  · have hsum := sum_weight_mark h.nodup he hsn hlive
    rw [ht, h.state_eq, ← hsum, QueuedSdu.weight_of_live hlive, (h.owned e he sn hsn).2]
    omega

end SlotsAgree

/-! ## Each call refines the abstract one -/

namespace SduFifo

@[simp] theorem capacity_apply (f : SduFifo) (op : SduQueueOp) : (f.apply op).2.capacity = f.capacity := by
  cases op with
  | write sdu =>
    show (f.write sdu).2.capacity = f.capacity
    unfold write
    split <;> rfl
  | tryDiscard sn =>
    show (f.tryDiscard sn).2.capacity = f.capacity
    unfold tryDiscard
    split <;> rfl
  | read => rfl

theorem slotTaken_iff (f : SduFifo) (sn : Nat) :
    f.slotTaken sn = true ↔ sn % f.capacity ∈ slots f.capacity f.entries := by
  simp [slotTaken, slots, List.mem_filterMap]

theorem holds_iff (f : SduFifo) (sn : Nat) :
    f.holds sn = true ↔ ∃ e ∈ f.entries, e.discarded = false ∧ e.sdu.pdcpSn = some sn := by
  simp [holds]

end SduFifo

section Calls

variable {q : RlcSduQueue} {f : SduFifo}

/-- At a capacity other than 0, `write` does not fault, returns what the
abstract write returns and keeps the refinement. -/
theorem write_refines (h : Refines q f) (hc : f.capacity ≠ 0) (sdu : RlcSdu) :
    ∃ r, q.write sdu = .ok r ∧ r.1 = (f.write sdu).1 ∧ Refines r.2 (f.write sdu).2 := by
  obtain ⟨cap, entries⟩ := f
  obtain ⟨hcap, hqueue, hagree⟩ := h
  dsimp only at hcap hqueue hagree hc
  subst hcap
  have hlen : q.queue.length = entries.length := by rw [hqueue, List.length_map]
  -- `SPSCQueue`'s rounding leaves a capacity other than 0 as it is
  have hmax : max q.capacity 1 = q.capacity := max_eq_left (Nat.one_le_iff_ne_zero.mpr hc)
  unfold RlcSduQueue.write SduFifo.write
  cases hsn : sdu.pdcpSn with
  | none =>
    simp only [hlen, hmax, Option.any_none, Bool.or_false]
    by_cases hfull : entries.length ≥ q.capacity
    · rw [if_pos (decide_eq_true hfull), if_pos (decide_eq_true hfull)]
      exact ⟨_, rfl, rfl, rfl, hqueue, hagree⟩
    · rw [if_neg (by simpa using hfull), if_neg (by simpa using hfull)]
      refine ⟨_, rfl, rfl, by simp, by simp [hqueue], ?_⟩
      exact hagree.snoc_none hsn (by simp) (by simp) (by simp) (by rw [RlcSduQueue.state_stateAdd])
  | some sn =>
    simp only [hlen, hmax, Option.any_some]
    rw [if_neg hc]
    -- the slot is free exactly when no queued SDU owns it
    have hslot : q.sduStates (sn % q.capacity) = .free ↔ SduFifo.slotTaken ⟨q.capacity, entries⟩ sn = false := by
      rw [hagree.free_iff, ← Bool.not_eq_true, SduFifo.slotTaken_iff]
    by_cases hfree : q.sduStates (sn % q.capacity) = .free
    · have htaken := hslot.mp hfree
      have hi : sn % q.capacity ∉ slots q.capacity entries := (hagree.free_iff _).mp hfree
      rw [if_neg (not_not.mpr hfree), htaken, Bool.or_false]
      by_cases hfull : entries.length ≥ q.capacity
      · rw [if_pos (decide_eq_true hfull), if_pos (decide_eq_true hfull)]
        exact ⟨_, rfl, rfl, rfl, hqueue, hagree.update_sizes hi⟩
      · rw [if_neg (by simpa using hfull), if_neg (by simpa using hfull)]
        refine ⟨_, rfl, rfl, by simp, by simp [hqueue], ?_⟩
        exact hagree.snoc_held hsn hi (by simp) (by simp) (by simp)
          (by rw [RlcSduQueue.state_stateAdd, RlcSduQueue.state_setSlot])
    · have htaken : SduFifo.slotTaken ⟨q.capacity, entries⟩ sn = true := by
        simpa using (not_congr hslot).mp hfree
      rw [if_pos hfree, htaken, Bool.or_true, if_pos rfl]
      exact ⟨_, rfl, rfl, rfl, hqueue, hagree⟩

/-- At a capacity other than 0, so does `try_discard`. -/
theorem tryDiscard_refines (h : Refines q f) (hc : f.capacity ≠ 0) (sn : Nat) :
    ∃ r, q.tryDiscard sn = .ok r ∧ r.1 = (f.tryDiscard sn).1 ∧ Refines r.2 (f.tryDiscard sn).2 := by
  obtain ⟨cap, entries⟩ := f
  obtain ⟨hcap, hqueue, hagree⟩ := h
  dsimp only at hcap hqueue hagree hc
  subst hcap
  -- the slot holds the SN exactly when a live SDU has it
  have hholds : q.sduStates (sn % q.capacity) = .held sn ↔ SduFifo.holds ⟨q.capacity, entries⟩ sn = true := by
    rw [hagree.held_iff, SduFifo.holds_iff]
  unfold RlcSduQueue.tryDiscard SduFifo.tryDiscard
  rw [if_neg hc]
  dsimp only
  by_cases hheld : q.sduStates (sn % q.capacity) = .held sn
  · obtain ⟨e, he, hlive, hsn⟩ := (hagree.held_iff sn).mp hheld
    rw [if_pos hheld, if_pos (hholds.mp hheld)]
    refine ⟨_, rfl, rfl, by simp, by simp [hqueue, Function.comp_def], ?_⟩
    exact hagree.mark he hsn hlive (by simp) (by simp) (by simp)
      (by rw [RlcSduQueue.state_stateSub, RlcSduQueue.state_setSlot])
  · rw [if_neg hheld, if_neg (fun hh => hheld (hholds.mpr hh))]
    exact ⟨_, rfl, rfl, rfl, hqueue, hagree⟩

end Calls

namespace SduFifo

theorem takeLive_cons_of_live {e : QueuedSdu} (he : e.discarded = false) (l : List QueuedSdu) :
    takeLive (e :: l) = (some e.sdu, l) := by
  rw [takeLive, List.dropWhile_cons, if_neg (by rw [he]; decide)]

theorem takeLive_cons_of_discarded {e : QueuedSdu} (he : e.discarded = true) (l : List QueuedSdu) :
    takeLive (e :: l) = takeLive l := by
  rw [takeLive, List.dropWhile_cons, if_pos he]
  rfl

end SduFifo

/-- The loop of `read` pops what the abstract read drops and returns what it
returns. Induction on the entries, with the slot table carried along. -/
theorem readLoop_refines {q : RlcSduQueue} {l : List QueuedSdu} (h : SlotsAgree q l) :
    (q.readLoop (l.map (·.sdu))).1 = (SduFifo.takeLive l).1 ∧
      (q.readLoop (l.map (·.sdu))).2.capacity = q.capacity ∧
      (q.readLoop (l.map (·.sdu))).2.queue = (SduFifo.takeLive l).2.map (·.sdu) ∧
      SlotsAgree (q.readLoop (l.map (·.sdu))).2 (SduFifo.takeLive l).2 := by
  induction l generalizing q with
  | nil =>
    refine ⟨rfl, rfl, rfl, ?_⟩
    exact h.congr rfl rfl rfl rfl
  | cons e rest ih =>
    rw [List.map_cons, RlcSduQueue.readLoop]
    cases hsn : e.sdu.pdcpSn with
    | none =>
      have hlive := h.kept_of_none e List.mem_cons_self hsn
      dsimp only
      rw [SduFifo.takeLive_cons_of_live hlive]
      refine ⟨rfl, by simp, by simp, ?_⟩
      exact h.tail_of_none hsn (by simp) (by simp) (by simp) (by rw [RlcSduQueue.state_stateSub])
    | some sn =>
      have howned := (h.owned e List.mem_cons_self sn hsn).1
      dsimp only
      cases hd : e.discarded
      · -- the slot holds the SN: the SDU is returned and its slot freed
        have hheld : q.sduStates (sn % q.capacity) = .held sn := by rw [howned, hd]; rfl
        rw [if_pos hheld, SduFifo.takeLive_cons_of_live hd]
        refine ⟨rfl, by simp, by simp, ?_⟩
        exact h.tail_of_sn hsn (by simp) (by simp) (by simp)
          (by rw [hd, if_neg Bool.false_ne_true, RlcSduQueue.state_stateSub, RlcSduQueue.state_setSlot])
      · -- the slot is marked discarded: it is freed and the loop goes on
        have hmarked : q.sduStates (sn % q.capacity) = .discarded := by rw [howned, hd]; rfl
        rw [if_neg (by rw [hmarked]; simp), if_pos hmarked, SduFifo.takeLive_cons_of_discarded hd]
        have hrest : SlotsAgree (q.setSlot sn .free) rest :=
          h.tail_of_sn hsn (by simp) (by simp) (by simp) (by rw [hd, if_pos rfl, RlcSduQueue.state_setSlot])
        obtain ⟨h1, h2, h3, h4⟩ := ih hrest
        exact ⟨h1, by rw [h2, RlcSduQueue.capacity_setSlot], h3, h4⟩

section Calls

variable {q : RlcSduQueue} {f : SduFifo}

theorem read_refines (h : Refines q f) : q.read.1 = f.read.1 ∧ Refines q.read.2 f.read.2 := by
  obtain ⟨hcap, hqueue, hagree⟩ := h
  obtain ⟨h1, h2, h3, h4⟩ := readLoop_refines hagree
  unfold RlcSduQueue.read SduFifo.read
  rw [hqueue]
  exact ⟨h1, ⟨by rw [h2, hcap], h3, h4⟩⟩

/-- At a capacity other than 0, each call succeeds, returns what the
abstract call returns, and keeps the refinement. -/
theorem apply_refines (h : Refines q f) (hc : f.capacity ≠ 0) (op : SduQueueOp) :
    ∃ r, q.apply op = .ok r ∧ r.1 = (f.apply op).1 ∧ Refines r.2 (f.apply op).2 := by
  cases op with
  | write sdu =>
    obtain ⟨r, hw, hout, href⟩ := write_refines h hc sdu
    refine ⟨(.written r.1, r.2), ?_, congrArg SduQueueOutput.written hout, href⟩
    rw [RlcSduQueue.apply, hw]
    rfl
  | tryDiscard sn =>
    obtain ⟨r, hd, hout, href⟩ := tryDiscard_refines h hc sn
    refine ⟨(.discarded r.1, r.2), ?_, congrArg SduQueueOutput.discarded hout, href⟩
    rw [RlcSduQueue.apply, hd]
    rfl
  | read =>
    obtain ⟨hout, href⟩ := read_refines h
    exact ⟨_, rfl, congrArg SduQueueOutput.read hout, href⟩

/-- So does every run. Induction on the calls; the abstract queue keeps its
capacity. -/
theorem run_refines (h : Refines q f) (hc : f.capacity ≠ 0) (ops : List SduQueueOp) :
    ∃ r, q.run ops = .ok r ∧ r.1 = (f.run ops).1 ∧ Refines r.2 (f.run ops).2 := by
  induction ops generalizing q f with
  | nil => exact ⟨_, rfl, rfl, h⟩
  | cons op ops ih =>
    obtain ⟨⟨o₁, q₁⟩, happ, hout, href⟩ := apply_refines h hc op
    obtain ⟨⟨os₂, q₂⟩, hrun, hrest, hfinal⟩ := ih href (by rw [SduFifo.capacity_apply]; exact hc)
    refine ⟨(o₁ :: os₂, q₂), ?_, ?_, hfinal⟩
    · rw [RlcSduQueue.run, happ, Fallible.ok_bind]
      dsimp only
      rw [hrun]
      rfl
    · show o₁ :: os₂ = (f.apply op).1 :: ((f.apply op).2.run ops).1
      rw [← hout, ← hrest]

end Calls


/-! ## The abstract queue, call by call -/

namespace SduFifo

/-- A write fails when the FIFO is full or a queued SDU, discarded or not,
has the same PDCP SN modulo the capacity. -/
theorem write_eq_false_iff (f : SduFifo) (sdu : RlcSdu) :
    (f.write sdu).1 = false ↔ f.entries.length ≥ f.capacity ∨
      ∃ sn, sdu.pdcpSn = some sn ∧ ∃ e ∈ f.entries, ∃ sn', e.sdu.pdcpSn = some sn' ∧ sn' % f.capacity = sn % f.capacity := by
  unfold write
  cases hsn : sdu.pdcpSn with
  | none =>
    by_cases hfull : f.entries.length ≥ f.capacity <;> simp [hfull]
  | some sn =>
    have htaken := slotTaken_iff f sn
    rw [mem_slots] at htaken
    by_cases hfull : f.entries.length ≥ f.capacity
    · simp [hfull]
    · by_cases hslot : f.slotTaken sn = true
      · simp [hfull, hslot, ← htaken]
      · simp [hfull, hslot, ← htaken]

/-- A discard succeeds when a queued SDU with that PDCP SN is not discarded
yet. -/
theorem tryDiscard_eq_true_iff (f : SduFifo) (sn : Nat) :
    (f.tryDiscard sn).1 = true ↔ ∃ e ∈ f.entries, e.discarded = false ∧ e.sdu.pdcpSn = some sn := by
  unfold tryDiscard
  rw [← holds_iff]
  split_ifs with hh <;> simp [hh]

/-- A read of a list returns its first SDU not discarded. Induction on the
list. -/
theorem takeLive_fst (l : List QueuedSdu) : (takeLive l).1 = (l.find? (!·.discarded)).map (·.sdu) := by
  induction l with
  | nil => rfl
  | cons e l ih =>
    cases hd : e.discarded
    · rw [takeLive_cons_of_live hd, List.find?_cons_of_pos (by simp [hd])]
      rfl
    · rw [takeLive_cons_of_discarded hd, List.find?_cons_of_neg (by simp [hd]), ih]

/-- The length of the FIFO stays within the capacity over a call. -/
theorem apply_length_le {f : SduFifo} (h : f.entries.length ≤ f.capacity) (op : SduQueueOp) :
    (f.apply op).2.capacity = f.capacity ∧ (f.apply op).2.entries.length ≤ f.capacity := by
  cases op with
  | write sdu =>
    unfold apply write
    dsimp only
    split_ifs with hfull
    · exact ⟨rfl, h⟩
    · simp only [Bool.or_eq_true, decide_eq_true_eq, not_or] at hfull
      simp only [List.length_append, List.length_singleton]
      exact ⟨trivial, by omega⟩
  | tryDiscard sn =>
    unfold apply tryDiscard
    dsimp only
    split_ifs
    · simpa using h
    · exact ⟨rfl, h⟩
  | read =>
    have hsuffix : ∀ l : List QueuedSdu, (takeLive l).2.length ≤ l.length := by
      intro l
      induction l with
      | nil => exact Nat.le_refl _
      | cons e l ih =>
        cases hd : e.discarded
        · simp only [takeLive_cons_of_live hd, List.length_cons]
          omega
        · rw [takeLive_cons_of_discarded hd, List.length_cons]
          omega
    exact ⟨rfl, (hsuffix f.entries).trans h⟩

theorem run_length_le {f : SduFifo} (h : f.entries.length ≤ f.capacity) (ops : List SduQueueOp) :
    (f.run ops).2.capacity = f.capacity ∧ (f.run ops).2.entries.length ≤ f.capacity := by
  induction ops generalizing f with
  | nil => exact ⟨rfl, h⟩
  | cons op ops ih =>
    obtain ⟨hcap, hlen⟩ := apply_length_le h op
    obtain ⟨hcap', hlen'⟩ := ih (hcap ▸ hlen)
    exact ⟨hcap'.trans hcap, hcap ▸ hlen'⟩

end SduFifo

/-! ## The totals `get_state` reads -/

/-- Sizes that sum below `2^32` are their own `uint32_t` values. -/
theorem sum_mod_of_sum_lt (l : List Nat) (hl : l.sum < 2 ^ 32) : (l.map (· % 2 ^ 32)).sum = l.sum := by
  have hself : l.map (· % 2 ^ 32) = l := by
    refine (List.map_congr_left fun x hx => ?_).trans (List.map_id l)
    exact Nat.mod_eq_of_lt (lt_of_le_of_lt (List.le_sum_of_mem hx) hl)
  rw [hself]

/-- While the SDUs fit the upper half and their octets the lower,
`get_state` reads back their number and their octets. -/
theorem Refines.getState_eq {q : RlcSduQueue} {f : SduFifo} (h : Refines q f) (hn : f.nofSdus < 2 ^ 32)
    (hb : f.nofBytes < 2 ^ 32) : q.getState = ⟨f.nofSdus, f.nofBytes⟩ := by
  have hlive : (f.entries.filter (!·.discarded)).length = f.nofSdus := by
    rw [SduFifo.nofSdus, SduFifo.live, List.length_map]
  have hbytes : ((f.entries.filter (!·.discarded)).map (·.sdu.buf.length % 2 ^ 32)).sum = f.nofBytes := by
    have hmap : (f.entries.filter (!·.discarded)).map (·.sdu.buf.length % 2 ^ 32) =
        (f.live.map (·.buf.length)).map (· % 2 ^ 32) := by
      simp [SduFifo.live, Function.comp_def]
    rw [hmap, sum_mod_of_sum_lt _ hb]
    rfl
  -- the packed word is the number above the octets, without a carry
  have hpacked : q.state = f.nofSdus * 2 ^ 32 + f.nofBytes := by
    rw [h.agree.state_eq, sum_weight, hlive, hbytes]
    exact Nat.mod_eq_of_lt (by omega)
  unfold RlcSduQueue.getState
  rw [hpacked, Nat.shiftRight_eq_div_pow, show (0xffffffff : Nat) = 2 ^ 32 - 1 by norm_num,
    Nat.and_two_pow_sub_one_eq_mod]
  congr 1 <;> omega

/-! ## Sequential runs of the queue -/

theorem create_refines (queueSize : Nat) :
    Refines (RlcSduQueue.create queueSize) (SduFifo.empty (queueSize % 2 ^ 16)) :=
  ⟨rfl, rfl, ⟨List.nodup_nil, (fun _ he => by cases he), (fun _ he => by cases he), fun _ _ => rfl, rfl⟩⟩

/-- From its creation with a capacity other than 0, over any sequence of calls,
the queue never faults and returns what the abstract queue returns. After it, a
write fails exactly when the FIFO is full or a queued SDU, discarded or not,
has the same PDCP SN modulo the capacity; a discard succeeds exactly when a
queued SDU with that SN is not discarded; a read returns the first queued SDU
not discarded, in the order they were written; and while the octets of the
SDUs not discarded stay below `2^32`, `get_state` reads back their number and
their octets. -/
theorem sduQueue_sequential (queueSize : Nat) (hc : queueSize % 2 ^ 16 ≠ 0) (ops : List SduQueueOp) :
    ∃ outs q, (RlcSduQueue.create queueSize).run ops = .ok (outs, q) ∧
      outs = ((SduFifo.empty (queueSize % 2 ^ 16)).run ops).1 ∧
      ∀ f, f = ((SduFifo.empty (queueSize % 2 ^ 16)).run ops).2 →
        (∀ sdu, ∃ r, q.write sdu = .ok r ∧ (r.1 = false ↔ f.entries.length ≥ f.capacity ∨
          ∃ sn, sdu.pdcpSn = some sn ∧ ∃ e ∈ f.entries, ∃ sn', e.sdu.pdcpSn = some sn' ∧
            sn' % f.capacity = sn % f.capacity)) ∧
        (∀ sn, ∃ r, q.tryDiscard sn = .ok r ∧
          (r.1 = true ↔ ∃ e ∈ f.entries, e.discarded = false ∧ e.sdu.pdcpSn = some sn)) ∧
        q.read.1 = (f.entries.find? (!·.discarded)).map (·.sdu) ∧
        (f.nofBytes < 2 ^ 32 → q.getState = ⟨f.nofSdus, f.nofBytes⟩) := by
  obtain ⟨⟨outs, q⟩, hrun, hout, href⟩ := run_refines (create_refines queueSize) hc ops
  refine ⟨outs, q, hrun, hout, fun f hf => ?_⟩
  rw [← hf] at href
  -- the abstract queue keeps its `uint16_t` capacity and holds at most that many SDUs
  obtain ⟨hcap, hlen⟩ := SduFifo.run_length_le (f := SduFifo.empty (queueSize % 2 ^ 16)) (Nat.zero_le _) ops
  rw [← hf] at hcap hlen
  have hcf : f.capacity ≠ 0 := by
    rw [hcap]
    exact hc
  have hcount : f.nofSdus < 2 ^ 32 := by
    have hlive : f.nofSdus ≤ f.entries.length := by
      rw [SduFifo.nofSdus, SduFifo.live, List.length_map]
      exact List.length_filter_le _ _
    have hcap16 : queueSize % 2 ^ 16 < 2 ^ 16 := Nat.mod_lt _ (by norm_num)
    simp only [SduFifo.empty] at hlen
    omega
  refine ⟨fun sdu => ?_, fun sn => ?_, ?_, href.getState_eq hcount⟩
  · obtain ⟨r, hw, hr, -⟩ := write_refines href hcf sdu
    exact ⟨r, hw, hr ▸ SduFifo.write_eq_false_iff _ sdu⟩
  · obtain ⟨r, hd, hr, -⟩ := tryDiscard_refines href hcf sn
    exact ⟨r, hd, hr ▸ SduFifo.tryDiscard_eq_true_iff _ sn⟩
  · rw [(read_refines href).1]
    exact SduFifo.takeLive_fst _

/-- An SDU with PDCP SN 5 is written, discarded, and skipped by the read. -/
theorem sduQueue_sequential_discard_skipped :
    ∃ q, (RlcSduQueue.create 4).run [.write ⟨[1, 2, 3], false, some 5⟩, .tryDiscard 5, .read] =
      .ok ([.written true, .discarded true, .read none], q) := by
  obtain ⟨outs, q, hrun, hout, -⟩ :=
    sduQueue_sequential 4 (by decide) [.write ⟨[1, 2, 3], false, some 5⟩, .tryDiscard 5, .read]
  have houts : outs = [.written true, .discarded true, .read none] := hout.trans (by decide)
  exact ⟨q, houts ▸ hrun⟩

/-- Two SDUs of `2^31` octets fill the lower half of the state: `get_state`
then reports three SDUs and no octets, where two SDUs with `2^32` octets are
queued. -/
theorem sduQueue_bytes_carry_into_count :
    (∃ outs q, (RlcSduQueue.create 4).run [.write ⟨List.replicate (2 ^ 31) 0, false, none⟩,
        .write ⟨List.replicate (2 ^ 31) 0, false, none⟩] = .ok (outs, q) ∧ q.getState = ⟨3, 0⟩) ∧
      ((SduFifo.empty 4).run [.write ⟨List.replicate (2 ^ 31) 0, false, none⟩,
        .write ⟨List.replicate (2 ^ 31) 0, false, none⟩]).2.nofSdus = 2 ∧
      ((SduFifo.empty 4).run [.write ⟨List.replicate (2 ^ 31) 0, false, none⟩,
        .write ⟨List.replicate (2 ^ 31) 0, false, none⟩]).2.nofBytes = 2 ^ 32 := by
  have hf : ((SduFifo.empty 4).run [.write ⟨List.replicate (2 ^ 31) 0, false, none⟩,
      .write ⟨List.replicate (2 ^ 31) 0, false, none⟩]).2 =
      ⟨4, [⟨⟨List.replicate (2 ^ 31) 0, false, none⟩, false⟩, ⟨⟨List.replicate (2 ^ 31) 0, false, none⟩, false⟩]⟩ := by
    simp only [SduFifo.run, SduFifo.apply, SduFifo.write, SduFifo.empty, List.length_nil, Option.any_none,
      Bool.or_false, List.nil_append]
    rfl
  obtain ⟨⟨outs, q⟩, hrun, -, href⟩ := run_refines (create_refines 4) (by decide)
    [.write ⟨List.replicate (2 ^ 31) 0, false, none⟩, .write ⟨List.replicate (2 ^ 31) 0, false, none⟩]
  rw [show 4 % 2 ^ 16 = 4 by norm_num, hf] at href
  have hstate := href.agree.state_eq
  simp only [List.map_cons, List.map_nil, List.sum_cons, List.sum_nil,
    QueuedSdu.weight_of_live (e := ⟨⟨List.replicate (2 ^ 31) 0, false, none⟩, false⟩) rfl,
    List.length_replicate] at hstate
  refine ⟨⟨outs, q, hrun, ?_⟩, ?_, ?_⟩
  · unfold RlcSduQueue.getState
    rw [hstate]
    rfl
  · rw [hf]
    rfl
  · rw [hf]
    simp only [SduFifo.nofBytes, SduFifo.live, List.filter_cons, List.filter_nil, Bool.not_false, if_true,
      List.map_cons, List.map_nil, List.sum_cons, List.sum_nil, List.length_replicate]
    norm_num

/-- A `queue_size` of 65536 leaves the `uint16_t` capacity at 0. `SPSCQueue`
still holds one SDU, so of two SDUs without a PDCP SN the first is queued and
the second refused; an SDU with a PDCP SN divides by the capacity. -/
theorem sduQueue_capacity_zero :
    (RlcSduQueue.create 65536).capacity = 0 ∧
      ((RlcSduQueue.create 65536).run [.write ⟨[1], false, none⟩, .write ⟨[2], false, none⟩]).map (·.1) =
        .ok [.written true, .written false] ∧
      (RlcSduQueue.create 65536).write ⟨[1], false, some 0⟩ = .error .divisionByZero :=
  ⟨rfl, rfl, rfl⟩

end SrsRan.Rlc
