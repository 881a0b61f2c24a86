import Mathlib.Algebra.Order.BigOperators.Group.List
import SrsRan.Lib.Fallible
import SrsRan.Rlc.RetxQueue

/-!
What the ReTx queue's state means. `accounts l` is what the state should
hold for the list `l` of queued ReTx; `add` and `subtract` move it as `l`
gains and loses an element, as long as the counters stay below 2^32.

The invariant `Wf L` of the queue says that the state is `accounts` of the
valid elements, that the front is valid, and that the buffer holds at most
`max_size()` elements of at most `L` octets, with `max_size() * L < 2^32`.
Every operation keeps it, and moves the valid elements as the list
operation of its name (`valid_pop`, `valid_removeSn`, ...).
-/

namespace SrsRan.Rlc

namespace RlcRetxQueueState

/-- What the state should hold for a list of ReTx: its octets, and how many
ReTx have a zero and a non-zero SO. -/
def accounts (l : List RlcTxAmdRetx) : RlcRetxQueueState :=
  ⟨(l.map RlcTxAmdRetx.length).sum, l.countP (fun r => r.so = 0), l.countP (fun r => r.so ≠ 0)⟩

@[simp] theorem accounts_nil : accounts [] = {} := rfl

theorem accounts_cons (x : RlcTxAmdRetx) (l : List RlcTxAmdRetx) :
    accounts (x :: l) =
      ⟨x.length + (accounts l).retxBytes, (accounts l).nRetxSoZero + (if x.so = 0 then 1 else 0),
        (accounts l).nRetxSoNonzero + (if x.so = 0 then 0 else 1)⟩ := by
  by_cases hso : x.so = 0 <;> simp [accounts, hso]

/-- The state of a list does not depend on its order. -/
theorem accounts_perm {l l' : List RlcTxAmdRetx} (h : l.Perm l') : accounts l = accounts l' := by
  simp only [accounts, (h.map _).sum_nat, h.countP_eq]

theorem accounts_append_singleton (l : List RlcTxAmdRetx) (x : RlcTxAmdRetx) :
    accounts (l ++ [x]) = accounts (x :: l) :=
  accounts_perm (List.perm_append_singleton x l)

/-- The counters of a list of at most `n` ReTx of at most `L` octets fit
their `uint32_t` when `n * L` and `n` do. -/
theorem fits_accounts {l : List RlcTxAmdRetx} {n L : Nat} (hlen : l.length ≤ n)
    (hL : ∀ x ∈ l, x.length ≤ L) (hnL : n * L < 2 ^ 32) (hn : n < 2 ^ 32) : (accounts l).Fits := by
  have hsum : (l.map RlcTxAmdRetx.length).sum ≤ l.length * L := by
    have := List.sum_le_card_nsmul (l.map RlcTxAmdRetx.length) L (by simpa using hL)
    simpa using this
  have hnl : l.length * L ≤ n * L := Nat.mul_le_mul_right L hlen
  refine ⟨by simp only [accounts]; omega, ?_, ?_⟩
  · exact lt_of_le_of_lt (List.countP_le_length) (by omega)
  · exact lt_of_le_of_lt (List.countP_le_length) (by omega)

/-- Taking the front ReTx out of the state of a list leaves the state of the rest. -/
theorem subtract_accounts_cons (x : RlcTxAmdRetx) (l : List RlcTxAmdRetx) :
    (accounts (x :: l)).subtract x = accounts l := by
  rw [accounts_cons]
  by_cases hso : x.so = 0 <;> simp [subtract, hso]

/-- A ReTx of the list can be taken out without a clamping branch. -/
theorem not_saturates_cons (x : RlcTxAmdRetx) (l : List RlcTxAmdRetx) :
    ¬ (accounts (x :: l)).Saturates x := by
  rw [accounts_cons]
  by_cases hso : x.so = 0 <;> simp [Saturates, hso]

theorem not_saturates_of_mem {x : RlcTxAmdRetx} {l : List RlcTxAmdRetx} (hx : x ∈ l) :
    ¬ (accounts l).Saturates x := by
  rw [accounts_perm (List.perm_cons_erase hx)]
  exact not_saturates_cons x _

/-- Adding a ReTx to the state of a list gives the state of the longer list,
as long as its counters fit. -/
theorem add_accounts {x : RlcTxAmdRetx} {l : List RlcTxAmdRetx} (h : (accounts (x :: l)).Fits) :
    (accounts l).add x = accounts (x :: l) := by
  rw [accounts_cons] at h ⊢
  obtain ⟨hb, hz, hnz⟩ := h
  dsimp only at hb hz hnz
  by_cases hso : x.so = 0 <;> simp only [hso, if_true, if_false] at hz hnz <;> simp [add, hso] <;> omega

end RlcRetxQueueState

open RlcRetxQueueState

/-! ## The buffer and its valid elements -/

@[simp] theorem validRetx_nil : validRetx [] = [] := rfl

theorem validRetx_cons (item : RlcRetxQueueItem) (rest : List RlcRetxQueueItem) :
    validRetx (item :: rest) = if item.invalid then validRetx rest else item.retx :: validRetx rest :=
  rfl

theorem validRetx_append (l₁ l₂ : List RlcRetxQueueItem) :
    validRetx (l₁ ++ l₂) = validRetx l₁ ++ validRetx l₂ := by
  induction l₁ with
  | nil => rfl
  | cons item rest ih =>
    simp only [List.cons_append, validRetx_cons, ih]
    split <;> rfl

theorem length_validRetx_le (l : List RlcRetxQueueItem) : (validRetx l).length ≤ l.length := by
  induction l with
  | nil => exact Nat.le_refl 0
  | cons item rest ih =>
    rw [validRetx_cons]
    split
    · exact Nat.le_succ_of_le ih
    · exact Nat.succ_le_succ ih

@[simp] theorem validRetx_cleanInvalidFront (l : List RlcRetxQueueItem) :
    validRetx (cleanInvalidFront l) = validRetx l := by
  induction l with
  | nil => rfl
  | cons item rest ih =>
    unfold cleanInvalidFront
    split
    · rw [ih, validRetx_cons, if_pos ‹_›]
    · rfl

theorem length_cleanInvalidFront_le (l : List RlcRetxQueueItem) :
    (cleanInvalidFront l).length ≤ l.length := by
  induction l with
  | nil => exact Nat.le_refl 0
  | cons item rest ih =>
    unfold cleanInvalidFront
    split
    · exact Nat.le_succ_of_le ih
    · exact Nat.le_refl _

/-- `clean_invalid_front` leaves a valid element at the front. -/
theorem invalid_head_cleanInvalidFront {l : List RlcRetxQueueItem} {top : RlcRetxQueueItem}
    {rest : List RlcRetxQueueItem} (h : cleanInvalidFront l = top :: rest) : top.invalid = false := by
  induction l with
  | nil => cases h
  | cons item rest' ih =>
    unfold cleanInvalidFront at h
    split at h
    · exact ih h
    · rename_i hvalid
      cases h
      simpa using hvalid

theorem RlcRetxQueueItem.hits_mk (invalid : Bool) (retx : RlcTxAmdRetx) (sn : Nat) :
    RlcRetxQueueItem.hits ⟨invalid, retx⟩ sn = (!invalid && retx.sn == sn) := rfl

/-- The marking of `remove_sn` drops exactly the ReTx of SN `sn` from the
valid elements. -/
theorem validRetx_mark (sn : Nat) (l : List RlcRetxQueueItem) :
    validRetx (l.map fun item => if item.hits sn then { item with invalid := true } else item) =
      (validRetx l).filter fun r => r.sn ≠ sn := by
  induction l with
  | nil => rfl
  | cons item rest ih =>
    obtain ⟨invalid, retx⟩ := item
    rw [List.map_cons]
    cases invalid with
    | true =>
      rw [if_neg (by simp [RlcRetxQueueItem.hits_mk]), validRetx_cons, validRetx_cons, if_pos rfl,
        if_pos rfl, ih]
    | false =>
      by_cases hsn : retx.sn = sn
      · rw [if_pos (by simp [RlcRetxQueueItem.hits_mk, hsn]), validRetx_cons, validRetx_cons, if_pos rfl,
          if_neg (by simp), ih, List.filter_cons_of_neg (by simp [hsn])]
      · rw [if_neg (by simp [RlcRetxQueueItem.hits_mk, hsn]), validRetx_cons, validRetx_cons,
          if_neg (by simp), if_neg (by simp), ih, List.filter_cons_of_pos (by simp [hsn])]

/-- The state the loop of `remove_sn` leaves: every subtraction takes out a
valid ReTx of the list the state counts. Induction on the buffer; `pre` is
what the state still counts of the elements already walked. -/
theorem foldl_subtract_hits (sn : Nat) (l : List RlcRetxQueueItem) :
    ∀ (pre : List RlcTxAmdRetx) (st : RlcRetxQueueState), st = accounts (pre ++ validRetx l) →
      l.foldl (fun st item => if item.hits sn then st.subtract item.retx else st) st =
        accounts (pre ++ (validRetx l).filter fun r => r.sn ≠ sn) := by
  induction l with
  | nil => intro pre st h; simpa using h
  | cons item rest ih =>
    intro pre st h
    obtain ⟨invalid, retx⟩ := item
    simp only [List.foldl_cons]
    cases invalid with
    | true =>
      exact ih pre st (by simpa [validRetx_cons] using h)
    | false =>
      by_cases hsn : retx.sn = sn
      · -- a hit: the state loses it
        have hst : st.subtract retx = accounts (pre ++ validRetx rest) := by
          rw [h, validRetx_cons, if_neg Bool.false_ne_true,
            accounts_perm List.perm_middle, subtract_accounts_cons]
        rw [if_pos (by simp [RlcRetxQueueItem.hits_mk, hsn]), ih pre _ hst, validRetx_cons, if_neg Bool.false_ne_true, List.filter_cons_of_neg (by simp [hsn])]
      · -- a valid element of another SN stays counted
        rw [if_neg (by simp [RlcRetxQueueItem.hits_mk, hsn]), ih (pre ++ [retx]) st (by simpa [validRetx_cons] using h), validRetx_cons,
          if_neg Bool.false_ne_true, List.filter_cons_of_pos (by simp [hsn])]
        simp

/-- An operation whose ReTx, if it has one, has at most `L` octets. -/
def RlcRetxQueueOp.LengthLe (L : Nat) : RlcRetxQueueOp → Prop
  | .tryPush retx => retx.length ≤ L
  | .replaceFront retx => retx.length ≤ L
  | _ => True

namespace RlcRetxQueue

/-! ## The operations on the valid elements -/

theorem valid_tryPush (q : RlcRetxQueue) (retx : RlcTxAmdRetx) :
    (q.tryPush retx).2.valid = if q.queue.length = q.maxSize then q.valid else q.valid ++ [retx] := by
  unfold tryPush valid
  split
  · rfl
  · simp [validRetx_append, validRetx_cons]

theorem valid_pop {q : RlcRetxQueue} (hfront : ∀ top rest, q.queue = top :: rest → top.invalid = false) :
    q.pop.valid = q.valid.tail := by
  unfold pop valid
  cases hq : q.queue with
  | nil => simp [hq]
  | cons top rest => simp [validRetx_cons, hfront top rest hq]

theorem valid_removeSn (q : RlcRetxQueue) (sn : Nat) :
    (q.removeSn sn).2.valid = q.valid.filter fun r => r.sn ≠ sn := by
  unfold removeSn valid
  split
  · rename_i hempty
    simp only [List.isEmpty_iff] at hempty
    simp [hempty]
  · simp [validRetx_mark]

@[simp] theorem valid_clear (q : RlcRetxQueue) : q.clear.valid = [] := rfl

/-! ## The invariant -/

/-- The queue's invariant: the state counts the valid elements, the front is
valid, and the buffer holds at most `max_size()` elements of at most `L`
octets, with `max_size() * L` and `max_size()` below 2^32. -/
structure Wf (L : Nat) (q : RlcRetxQueue) : Prop where
  accounts_eq : q.st = accounts q.valid
  front_valid : ∀ top rest, q.queue = top :: rest → top.invalid = false
  size_le : q.queue.length ≤ q.maxSize
  length_le : ∀ x ∈ q.valid, x.length ≤ L
  maxSize_mul_lt : q.maxSize * L < 2 ^ 32
  maxSize_lt : q.maxSize < 2 ^ 32

variable {L : Nat} {q : RlcRetxQueue}

theorem Wf.fits (h : Wf L q) {l : List RlcTxAmdRetx} (hlen : l.length ≤ q.maxSize)
    (hL : ∀ x ∈ l, x.length ≤ L) : (accounts l).Fits :=
  fits_accounts hlen hL h.maxSize_mul_lt h.maxSize_lt

theorem Wf.tryPush (h : Wf L q) {retx : RlcTxAmdRetx} (hL : retx.length ≤ L) :
    Wf L (q.tryPush retx).2 := by
  have hvalid := valid_tryPush q retx
  unfold RlcRetxQueue.tryPush at hvalid ⊢
  split
  · exact h
  · rename_i hfull
    simp only [hfull, if_false] at hvalid
    have hsize : q.queue.length < q.maxSize := lt_of_le_of_ne h.size_le hfull
    have hlen : ∀ x ∈ retx :: q.valid, x.length ≤ L := by
      intro x hx
      rcases List.mem_cons.mp hx with rfl | hx
      · exact hL
      · exact h.length_le x hx
    refine ⟨?_, ?_, ?_, ?_, h.maxSize_mul_lt, h.maxSize_lt⟩
    · -- the new ReTx is counted: the counters still fit
      rw [hvalid, accounts_append_singleton, h.accounts_eq]
      refine add_accounts (h.fits ?_ hlen)
      have := length_validRetx_le q.queue
      simp only [List.length_cons, valid]
      omega
    · intro top rest hq
      cases hqueue : q.queue with
      | nil =>
        rw [hqueue] at hq
        cases hq
        rfl
      | cons top' rest' =>
        rw [hqueue, List.cons_append] at hq
        cases hq
        exact h.front_valid _ _ hqueue
    · simp only [List.length_append, List.length_singleton]
      omega
    · rw [hvalid]
      intro x hx
      rcases List.mem_append.mp hx with hx | hx
      · exact h.length_le x hx
      · rw [List.mem_singleton.mp hx]
        exact hL

/-- The valid elements of a buffer whose front is valid. -/
theorem valid_of_front {q : RlcRetxQueue} {top : RlcRetxQueueItem} {rest : List RlcRetxQueueItem}
    (hq : q.queue = top :: rest) (hvalid : top.invalid = false) :
    q.valid = top.retx :: validRetx rest := by
  rw [valid, hq, validRetx_cons, if_neg (by simp [hvalid])]

theorem Wf.pop (h : Wf L q) : Wf L q.pop := by
  cases hq : q.queue with
  | nil =>
    have hpop : q.pop = q := by unfold RlcRetxQueue.pop; rw [hq]
    rw [hpop]
    exact h
  | cons top rest =>
    have hpop : q.pop = { q with queue := cleanInvalidFront rest, st := q.st.subtract top.retx } := by
      unfold RlcRetxQueue.pop; rw [hq]
    have hv := valid_of_front hq (h.front_valid top rest hq)
    have hsize := h.size_le
    rw [hq] at hsize
    rw [hpop]
    refine ⟨?_, fun t r ht => invalid_head_cleanInvalidFront ht, ?_, ?_, h.maxSize_mul_lt, h.maxSize_lt⟩
    · -- the front leaves the state, and the invalid elements after it the buffer
      show q.st.subtract top.retx = accounts (validRetx (cleanInvalidFront rest))
      rw [h.accounts_eq, hv, subtract_accounts_cons, validRetx_cleanInvalidFront]
    · have := length_cleanInvalidFront_le rest
      simp only [List.length_cons] at hsize
      show (cleanInvalidFront rest).length ≤ q.maxSize
      omega
    · intro x hx
      have hx' : x ∈ validRetx rest := by simpa [valid] using hx
      exact h.length_le x (by rw [hv]; exact List.mem_cons_of_mem _ hx')

theorem Wf.replaceFront (h : Wf L q) {retx : RlcTxAmdRetx} (hL : retx.length ≤ L) {q' : RlcRetxQueue}
    (hr : q.replaceFront retx = .ok q') : Wf L q' := by
  unfold RlcRetxQueue.replaceFront at hr
  cases hq : q.queue with
  | nil => rw [hq] at hr; cases hr
  | cons top rest =>
    have htop := h.front_valid top rest hq
    rw [hq] at hr
    dsimp only at hr
    rw [if_neg (by simp [htop])] at hr
    cases hr
    have hv := valid_of_front hq htop
    have hsize := h.size_le
    rw [hq] at hsize
    have hv' : validRetx ({ retx } :: rest) = retx :: validRetx rest := by
      rw [validRetx_cons, if_neg (by simp)]
    have hlen : ∀ x ∈ retx :: validRetx rest, x.length ≤ L := by
      intro x hx
      rcases List.mem_cons.mp hx with rfl | hx
      · exact hL
      · exact h.length_le x (by rw [hv]; exact List.mem_cons_of_mem _ hx)
    refine ⟨?_, ?_, ?_, ?_, h.maxSize_mul_lt, h.maxSize_lt⟩
    · -- the old front leaves the state and the new one enters it
      show (q.st.subtract top.retx).add retx = accounts (validRetx ({ retx } :: rest))
      rw [h.accounts_eq, hv, subtract_accounts_cons, hv']
      refine add_accounts (h.fits ?_ hlen)
      have := length_validRetx_le rest
      simp only [List.length_cons] at hsize ⊢
      omega
    · intro t r ht
      cases ht
      rfl
    · simpa using hsize
    · intro x hx
      exact hlen x (by simpa [valid, hv'] using hx)

theorem Wf.removeSn (h : Wf L q) (sn : Nat) : Wf L (q.removeSn sn).2 := by
  unfold RlcRetxQueue.removeSn
  split
  · exact h
  · refine ⟨?_, fun t r ht => invalid_head_cleanInvalidFront ht, ?_, ?_, h.maxSize_mul_lt, h.maxSize_lt⟩
    · -- the loop takes each hit out of the state
      show q.queue.foldl _ q.st = accounts (validRetx (cleanInvalidFront _))
      have hloop := foldl_subtract_hits sn q.queue [] q.st (by rw [List.nil_append]; exact h.accounts_eq)
      rw [List.nil_append] at hloop
      rw [hloop, validRetx_cleanInvalidFront, validRetx_mark]
    · have := length_cleanInvalidFront_le
        (q.queue.map fun item => if item.hits sn then { item with invalid := true } else item)
      have := h.size_le
      simp only [List.length_map] at *
      show (cleanInvalidFront _).length ≤ q.maxSize
      omega
    · intro x hx
      have hx' : x ∈ q.valid.filter fun r => r.sn ≠ sn := by
        simpa [valid, validRetx_mark] using hx
      exact h.length_le x (List.mem_of_mem_filter hx')

theorem Wf.clear (h : Wf L q) : Wf L q.clear where
  accounts_eq := rfl
  front_valid := fun _ _ hq => by cases hq
  size_le := Nat.zero_le _
  length_le := fun _ hx => by cases hx
  maxSize_mul_lt := h.maxSize_mul_lt
  maxSize_lt := h.maxSize_lt

theorem wf_create {maxSize : Nat} (hnL : maxSize * L < 2 ^ 32) (hn : maxSize < 2 ^ 32) :
    Wf L (create maxSize) where
  accounts_eq := rfl
  front_valid := fun _ _ hq => by cases hq
  size_le := Nat.zero_le _
  length_le := fun _ hx => by cases hx
  maxSize_mul_lt := hnL
  maxSize_lt := hn

/-- The step lemma: every operation whose ReTx has at most `L` octets keeps
`Wf L`. -/
theorem Wf.step (h : Wf L q) {op : RlcRetxQueueOp} (hop : op.LengthLe L) :
    Fallible.Post (Wf L) (fun _ => True) (q.step op) := by
  cases op with
  | tryPush retx => exact h.tryPush hop
  | pop => exact h.pop
  | replaceFront retx =>
    show Fallible.Post _ _ (q.replaceFront retx)
    cases hr : q.replaceFront retx with
    | error err => trivial
    | ok q' => exact h.replaceFront hop hr
  | removeSn sn => exact h.removeSn sn
  | clear => exact h.clear

/-- The run lemma: every run of operations whose ReTx have at most `L`
octets, from a buffer of `max_size() * L < 2^32`, keeps `Wf L`. -/
theorem wf_run {maxSize : Nat} (hnL : maxSize * L < 2 ^ 32) (hn : maxSize < 2 ^ 32)
    {ops : List RlcRetxQueueOp} (hops : ∀ op ∈ ops, op.LengthLe L)
    (hrun : Transition.run step (create maxSize) ops = .ok q) : Wf L q := by
  refine Transition.run_invariant (fun q₀ op q₁ hop h₀ hstep => ?_) (wf_create hnL hn) hops hrun
  have hpost := h₀.step hop
  rw [hstep] at hpost
  exact hpost

/-! ## What the transmitter reads -/

/-- `front` of a non-empty queue passes its assertions and returns the first
valid element. -/
theorem Wf.front (h : Wf L q) (hne : q.empty = false) :
    ∃ retx, q.front = .ok retx ∧ q.valid.head? = some retx := by
  cases hq : q.queue with
  | nil => simp [empty, hq] at hne
  | cons top rest =>
    have htop := h.front_valid top rest hq
    refine ⟨top.retx, ?_, by rw [valid_of_front hq htop]; rfl⟩
    unfold RlcRetxQueue.front
    rw [hq]
    simp [htop]

/-- What `front` returns is a valid element. -/
theorem Wf.mem_valid_of_front (h : Wf L q) {retx : RlcTxAmdRetx} (hf : q.front = .ok retx) :
    retx ∈ q.valid := by
  unfold RlcRetxQueue.front at hf
  cases hq : q.queue with
  | nil =>
    rw [hq] at hf
    cases hf
  | cons top rest =>
    have htop := h.front_valid top rest hq
    rw [hq] at hf
    simp only [htop, Bool.false_eq_true, if_false, Except.ok.injEq] at hf
    rw [valid_of_front hq htop, ← hf]
    exact List.mem_cons_self

/-- What the users of the queue read from it under `Wf`: `state()` counts the
valid elements, none of them takes a clamping branch of `subtract`, and
`front()` of a non-empty queue returns the first. -/
theorem Wf.reads (h : Wf L q) :
    q.state = accounts q.valid ∧ (∀ x ∈ q.valid, ¬ q.state.Saturates x) ∧
      (q.empty = false → ∃ retx, q.front = .ok retx ∧ q.valid.head? = some retx) := by
  refine ⟨h.accounts_eq, fun x hx => ?_, h.front⟩
  rw [state, h.accounts_eq]
  exact not_saturates_of_mem hx

/-- `empty()` says exactly that no valid element is queued. -/
theorem Wf.empty_iff (h : Wf L q) : q.empty = true ↔ q.valid = [] := by
  cases hq : q.queue with
  | nil => simp [empty, valid, hq]
  | cons top rest =>
    rw [valid_of_front hq (h.front_valid top rest hq)]
    simp [empty, hq]

end RlcRetxQueue

open RlcRetxQueue in
/-- Over every run of operations on a ReTx queue whose buffer of `max_size()`
elements of at most `L` octets stays below 2^32 octets, `state()` counts the
valid elements exactly, no valid element takes a clamping branch of
`subtract` (`pop`, `replace_front` and `remove_sn` subtract only valid
elements), `front()` of a non-empty queue returns the first valid element,
and `empty()` holds exactly when no valid element is queued. -/
theorem retxQueue_accounting {maxSize L : Nat} (hnL : maxSize * L < 2 ^ 32) (hn : maxSize < 2 ^ 32)
    {ops : List RlcRetxQueueOp} (hops : ∀ op ∈ ops, op.LengthLe L) {q : RlcRetxQueue}
    (hrun : Transition.run step (create maxSize) ops = .ok q) :
    q.state = accounts q.valid ∧ (∀ x ∈ q.valid, ¬ q.state.Saturates x) ∧
      (q.empty = false → ∃ retx, q.front = .ok retx ∧ q.valid.head? = some retx) ∧
      (q.empty = true ↔ q.valid = []) := by
  have h : Wf L q := wf_run hnL hn hops hrun
  exact ⟨h.reads.1, h.reads.2.1, h.reads.2.2, h.empty_iff⟩

open RlcRetxQueue in
/-- A queue of four holding ReTx of 10 and 20 octets, then with the ReTx of
SN 0 removed. -/
theorem retxQueue_accounting_removeSn :
    ∃ q, Transition.run step (create 4)
        [.tryPush ⟨0, 0, 10⟩, .tryPush ⟨1, 5, 20⟩, .removeSn 0] = .ok q ∧
      q.state = accounts q.valid ∧ (∀ x ∈ q.valid, ¬ q.state.Saturates x) ∧
      (q.empty = false → ∃ retx, q.front = .ok retx ∧ q.valid.head? = some retx) ∧
      (q.empty = true ↔ q.valid = []) := by
  refine ⟨_, rfl, @retxQueue_accounting 4 20 (by norm_num) (by norm_num)
    [.tryPush ⟨0, 0, 10⟩, .tryPush ⟨1, 5, 20⟩, .removeSn 0] ?_ _ rfl⟩
  simp [RlcRetxQueueOp.LengthLe]

open RlcRetxQueue in
/-- `retx_bytes` is a `uint32_t`: two ReTx of 2^31 octets wrap it to 0, so
that `state()` no longer counts the queue, and `pop` of the first ReTx takes
the clamping branch of `subtract`. -/
theorem retxQueue_bytes_wrap :
    ∃ q, Transition.run step (create 4) [.tryPush ⟨0, 0, 2 ^ 31⟩, .tryPush ⟨1, 0, 2 ^ 31⟩] = .ok q ∧
      q.state.retxBytes = 0 ∧ (accounts q.valid).retxBytes = 2 ^ 32 ∧
      q.front = .ok ⟨0, 0, 2 ^ 31⟩ ∧ q.state.Saturates ⟨0, 0, 2 ^ 31⟩ := by
  refine ⟨_, rfl, ?_⟩
  decide

end SrsRan.Rlc
