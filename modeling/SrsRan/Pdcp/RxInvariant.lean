import SrsRan.Pdcp.RxEntity
import SrsRan.Lib.Fallible

/-!
The receiver's state variables are `uint32_t`: every assignment to
`RX_NEXT`, `RX_DELIV` and `RX_REORD` is taken modulo 2^32, copies another of
them or resets them to 0, and the SDU handling in between leaves them as
they are. So they hold `uint32_t` values in every reachable state
(`Reachable.bounded`).
-/

namespace SrsRan.Pdcp

namespace PdcpEntityRx

variable {cfg : PdcpRxConfig}

open Fallible (Post)

/-- The state variables of the receiver hold `uint32_t` values. -/
structure Bounded (e : PdcpEntityRx cfg) : Prop where
  rxNext_lt : e.st.rxNext < 2 ^ 32
  rxDeliv_lt : e.st.rxDeliv < 2 ^ 32
  rxReord_lt : e.st.rxReord < 2 ^ 32

variable {e e' : PdcpEntityRx cfg}

theorem Bounded.of_st (h : Bounded e) (hst : e'.st = e.st) : Bounded e' :=
  ⟨by rw [hst]; exact h.rxNext_lt, by rw [hst]; exact h.rxDeliv_lt, by rw [hst]; exact h.rxReord_lt⟩

/-- `RX_DELIV` stepped modulo 2^32 on a receiver that agrees with a bounded
one on the other two variables. -/
theorem Bounded.stepDeliv (h : Bounded e) (hst : e'.st = e.st) :
    Bounded ({ e' with st.rxDeliv := (e'.st.rxDeliv + 1) % 2 ^ 32 } : PdcpEntityRx cfg) :=
  ⟨(h.of_st hst).rxNext_lt, Nat.mod_lt _ (Nat.two_pow_pos 32), (h.of_st hst).rxReord_lt⟩

/-- `RX_REORD` set to `RX_NEXT`. -/
theorem Bounded.reordToNext (h : Bounded e) :
    Bounded ({ e with st.rxReord := e.st.rxNext } : PdcpEntityRx cfg) :=
  ⟨h.rxNext_lt, h.rxDeliv_lt, h.rxNext_lt⟩

theorem bounded_create (cfg : PdcpRxConfig) : Bounded (create cfg) :=
  ⟨Nat.two_pow_pos 32, Nat.two_pow_pos 32, Nat.two_pow_pos 32⟩

/-! ## Handing SDUs on leaves the state variables alone -/

theorem deliverSdu_st (e : PdcpEntityRx cfg) (count : Nat) :
    Post (fun e' : PdcpEntityRx cfg => e'.st = e.st) (fun _ => True) (e.deliverSdu count) := by
  unfold deliverSdu
  exact Post.bind (Fallible.post_eq _) fun _ _ => Post.bind (Fallible.post_eq _) fun _ _ => rfl

theorem storeSdu_st (e : PdcpEntityRx cfg) (count : Nat) (sdu : List UInt8) :
    Post (fun p : PdcpEntityRx cfg × Bool => p.1.st = e.st) (fun _ => True) (e.storeSdu count sdu) := by
  unfold storeSdu
  split
  · refine Post.bind (Fallible.post_eq _) fun info _ => ?_
    split
    · exact rfl
    · exact Post.bind (Fallible.post_eq _) fun _ _ => Post.bind (Fallible.post_eq _) fun _ _ => rfl
  · exact Post.bind (Fallible.post_eq _) fun _ _ => rfl

theorem checkMaxCount_st (e : PdcpEntityRx cfg) (count : Nat) : (e.checkMaxCount count).1.st = e.st := by
  unfold checkMaxCount
  dsimp only
  split <;> split <;> rfl

theorem handleControlPdu_st (e : PdcpEntityRx cfg) (pdu : List UInt8) : (e.handleControlPdu pdu).st = e.st := by
  unfold handleControlPdu
  split <;> rfl

/-- The loop of `deliver_all_sdus` hands SDUs on and nothing else. Induction
on the rounds. -/
theorem deliverAllSdus_st (k : Nat) : ∀ (e : PdcpEntityRx cfg) (count : Nat),
    Post (fun e' : PdcpEntityRx cfg => e'.st = e.st) (fun _ => True) (e.deliverAllSdus k count) := by
  induction k with
  | zero => intro e count; exact rfl
  | succ k ih =>
    intro e count
    -- the rounds left keep the variables of whichever receiver this round leaves
    have hrest : ∀ e₁ : PdcpEntityRx cfg, e₁.st = e.st →
        Post (fun e' : PdcpEntityRx cfg => e'.st = e.st) (fun _ => True) (e₁.deliverAllSdus k (count + 1)) :=
      fun e₁ hst => Post.mono (ih e₁ (count + 1)) (fun _ h' => h'.trans hst) (fun _ _ => trivial)
    unfold deliverAllSdus
    dsimp only
    split
    · exact Post.bind (deliverSdu_st e count) hrest
    · exact hrest e rfl

/-! ## Every event keeps the bounds -/

/-- The loop of `deliver_all_consecutive_counts`. Induction on the rounds. -/
theorem Bounded.deliverAllConsecutiveCounts (fuel : Nat) :
    ∀ {e : PdcpEntityRx cfg}, Bounded e → Post Bounded (fun _ => True) (e.deliverAllConsecutiveCounts fuel) := by
  induction fuel with
  | zero => intro e h; exact h
  | succ fuel ih =>
    intro e h
    unfold PdcpEntityRx.deliverAllConsecutiveCounts
    split
    · exact Post.bind (deliverSdu_st e _) fun e₁ hst => ih (h.stepDeliv hst)
    · exact h

theorem Bounded.deliverConsecutive (h : Bounded e) : Post Bounded (fun _ => True) e.deliverConsecutive :=
  Bounded.deliverAllConsecutiveCounts _ h

/-- The loop of the t-Reordering expiry. Induction on the rounds. -/
theorem Bounded.deliverStored (k : Nat) :
    ∀ {e : PdcpEntityRx cfg}, Bounded e → Post Bounded (fun _ => True) (e.deliverStored k) := by
  induction k with
  | zero => intro e h; exact h
  | succ k ih =>
    intro e h
    unfold PdcpEntityRx.deliverStored
    dsimp only
    split
    · exact Post.bind (deliverSdu_st e _) fun e₁ hst => ih (h.stepDeliv hst)
    · exact ih (h.stepDeliv rfl)

theorem Bounded.handleTReorderingExpire (h : Bounded e) :
    Post Bounded (fun _ => True) e.handleTReorderingExpire := by
  unfold PdcpEntityRx.handleTReorderingExpire
  refine Post.bind (Bounded.deliverStored _ h) fun e₁ h₁ => Post.bind h₁.deliverConsecutive fun e₂ h₂ => ?_
  split
  · split
    · exact h₂
    · exact (Fallible.post_pure _).mpr (h₂.reordToNext.of_st rfl)
  · exact h₂

theorem Bounded.updateReorderingTimer (h : Bounded e) :
    Post Bounded (fun _ => True) e.updateReorderingTimer := by
  unfold PdcpEntityRx.updateReorderingTimer
  have h₁ : Bounded (if e.reorderingTimerRunning ∧ e.st.rxDeliv ≥ e.st.rxReord then
      ({ e with reorderingTimerRunning := false } : PdcpEntityRx cfg) else e) := by
    split <;> exact h.of_st rfl
  dsimp only
  generalize (if e.reorderingTimerRunning ∧ e.st.rxDeliv ≥ e.st.rxReord then
    ({ e with reorderingTimerRunning := false } : PdcpEntityRx cfg) else e) = e₁ at h₁ ⊢
  split
  · exact h₁
  · exact h₁.reordToNext.handleTReorderingExpire
  · split
    · exact (Fallible.post_pure _).mpr (h₁.reordToNext.of_st rfl)
    · exact h₁

theorem Bounded.afterStore (h : Bounded e) (count : Nat) :
    Post Bounded (fun _ => True) (e.afterStore count) := by
  unfold PdcpEntityRx.afterStore
  have h₁ : Bounded (if count ≥ e.st.rxNext then
      ({ e with st.rxNext := (count + 1) % 2 ^ 32 } : PdcpEntityRx cfg) else e) := by
    split
    · exact ⟨Nat.mod_lt _ (Nat.two_pow_pos 32), h.rxDeliv_lt, h.rxReord_lt⟩
    · exact h
  dsimp only
  generalize (if count ≥ e.st.rxNext then
    ({ e with st.rxNext := (count + 1) % 2 ^ 32 } : PdcpEntityRx cfg) else e) = e₁ at h₁ ⊢
  split
  · exact Post.bind h₁.deliverConsecutive fun e₂ h₂ => h₂.updateReorderingTimer
  · exact h₁.updateReorderingTimer

theorem Bounded.handleDataPdu (h : Bounded e) (pdu : List UInt8) :
    Post Bounded (fun _ => True) (e.handleDataPdu pdu) := by
  unfold PdcpEntityRx.handleDataPdu
  dsimp only
  split
  · exact h
  have h₁ : Bounded (e.checkMaxCount (e.rcvdCount (readDataPduHeader cfg pdu))).1 :=
    h.of_st (checkMaxCount_st e _)
  generalize (e.checkMaxCount (e.rcvdCount (readDataPduHeader cfg pdu))).1 = e₁ at h₁ ⊢
  split
  · exact h₁
  -- the header is discarded before the COUNT is checked against `RX_DELIV`
  refine Post.bind (Fallible.post_eq _) fun sdu _ => ?_
  split
  · exact h₁
  refine Post.bind (Post.mapError (storeSdu_st e₁ _ _)) fun p hst => ?_
  split
  · exact h₁.of_st hst
  · exact Post.mapError ((h₁.of_st hst).afterStore _)

theorem Bounded.handlePdu (h : Bounded e) (buf : List UInt8) : Post Bounded (fun _ => True) (e.handlePdu buf) := by
  unfold PdcpEntityRx.handlePdu
  split
  · exact h
  split
  · exact h.handleDataPdu buf
  · exact h.of_st (handleControlPdu_st e buf)

/-- The loop of `discard_all_sdus`. Induction on the rounds. -/
theorem Bounded.discardAllSdus (k : Nat) :
    ∀ {e : PdcpEntityRx cfg}, Bounded e → Post Bounded (fun _ => True) (e.discardAllSdus k) := by
  induction k with
  | zero => intro e h; exact h
  | succ k ih =>
    intro e h
    unfold PdcpEntityRx.discardAllSdus
    dsimp only
    split
    · exact Post.bind (Fallible.post_eq _) fun w _ => ih (@Bounded.stepDeliv _ _ { e with rxWindow := w } h rfl)
    · exact ih (h.stepDeliv rfl)

theorem Bounded.reestablish (h : Bounded e) : Post Bounded (fun _ => True) e.reestablish := by
  unfold PdcpEntityRx.reestablish
  dsimp only
  refine Fallible.post_ite_bind (Bounded.discardAllSdus _ h) h fun e₁ h₁ => ?_
  split
  · -- SRBs and UM DRBs restart from 0
    have hzero : ∀ e₂ : PdcpEntityRx cfg, Bounded ({ e₂ with st := ⟨0, 0, 0⟩ } : PdcpEntityRx cfg) :=
      fun _ => (bounded_create cfg).of_st rfl
    exact Fallible.post_ite_bind (deliverAllSdus_st _ _ _) rfl fun e₂ _ => hzero e₂
  · exact h₁

/-- The step lemma. -/
theorem Bounded.step (h : Bounded e) (ev : PdcpRxEvent) : Post Bounded (fun _ => True) (e.step ev) := by
  cases ev with
  | pdu buf => exact h.handlePdu buf
  | tReorderingExpiry =>
    rw [PdcpEntityRx.step]
    refine Post.mapError ?_
    split
    · have h₁ : Bounded ({ e with reorderingTimerRunning := false } : PdcpEntityRx cfg) := h.of_st rfl
      exact h₁.handleTReorderingExpire
    · exact h
  | reestablish => exact Post.mapError h.reestablish

/-- Every reachable receiver holds `uint32_t` values in its state variables. -/
theorem Reachable.bounded (hr : Reachable cfg e) : Bounded e := by
  refine Transition.Reachable.invariant (bounded_create cfg) (fun e₀ ev e₁ h₀ hstep => ?_) hr
  have hpost := h₀.step ev
  rw [hstep] at hpost
  exact hpost

/-! ## Delivery never asserts

The delivery loops deliver a COUNT only when the window holds it, so its
`operator[]` and `remove_sn` never fire their assertions, and what was
handed on before stays handed on. -/

/-- Delivering a COUNT the window holds hands its SDU on. -/
theorem deliverSdu_of_get {count : Nat} {info : PdcpRxSduInfo}
    (h : CircularMap.get? e.rxWindow count = some info) :
    e.deliverSdu count = .ok { e with rxWindow := CircularMap.erase e.rxWindow count,
                                      delivered := e.delivered ++ [(count, info.sdu)] } := by
  have hs : e.rxWindow.hasSn count = true := by
    simp [SduWindow.hasSn, CircularMap.contains, h]
  simp [deliverSdu, SduWindow.get, h, SduWindow.removeSn, hs]

theorem deliverSdu_keeps {count : Nat} (hs : e.rxWindow.hasSn count = true) :
    Post (fun e' : PdcpEntityRx cfg => e.delivered <+: e'.delivered) (fun _ => False) (e.deliverSdu count) := by
  obtain ⟨info, hinfo⟩ := Option.isSome_iff_exists.mp hs
  rw [deliverSdu_of_get hinfo]
  exact List.prefix_append _ _

/-- The loop of `deliver_all_consecutive_counts`. Induction on the rounds. -/
theorem deliverAllConsecutiveCounts_keeps (fuel : Nat) : ∀ e : PdcpEntityRx cfg,
    Post (fun e' : PdcpEntityRx cfg => e.delivered <+: e'.delivered) (fun _ => False)
      (e.deliverAllConsecutiveCounts fuel) := by
  induction fuel with
  | zero => intro e; exact List.prefix_refl _
  | succ fuel ih =>
    intro e
    unfold deliverAllConsecutiveCounts
    split
    · rename_i hc
      exact Post.bind (deliverSdu_keeps hc.2) fun e₁ h₁ =>
        Post.mono (ih _) (fun _ h' => h₁.trans h') (fun _ h' => h')
    · exact List.prefix_refl _

/-- The loop of the t-Reordering expiry. Induction on the rounds. -/
theorem deliverStored_keeps (k : Nat) : ∀ e : PdcpEntityRx cfg,
    Post (fun e' : PdcpEntityRx cfg => e.delivered <+: e'.delivered) (fun _ => False) (e.deliverStored k) := by
  induction k with
  | zero => intro e; exact List.prefix_refl _
  | succ k ih =>
    intro e
    unfold deliverStored
    dsimp only
    split
    · rename_i hs
      exact Post.bind (deliverSdu_keeps hs) fun e₁ h₁ =>
        Post.mono (ih _) (fun _ h' => h₁.trans h') (fun _ h' => h')
    · exact ih _

theorem handleTReorderingExpire_keeps (e : PdcpEntityRx cfg) :
    Post (fun e' : PdcpEntityRx cfg => e.delivered <+: e'.delivered) (fun _ => False)
      e.handleTReorderingExpire := by
  unfold handleTReorderingExpire
  refine Post.bind (deliverStored_keeps _ e) fun e₁ h₁ =>
    Post.bind (deliverAllConsecutiveCounts_keeps _ e₁) fun e₂ h₂ => ?_
  have h₁₂ := h₁.trans h₂
  split
  · split
    · exact h₁₂
    · exact h₁₂
  · exact h₁₂

theorem updateReorderingTimer_keeps (e : PdcpEntityRx cfg) :
    Post (fun e' : PdcpEntityRx cfg => e.delivered <+: e'.delivered) (fun _ => False)
      e.updateReorderingTimer := by
  unfold updateReorderingTimer
  have hsame : (if e.reorderingTimerRunning ∧ e.st.rxDeliv ≥ e.st.rxReord then
      ({ e with reorderingTimerRunning := false } : PdcpEntityRx cfg) else e).delivered = e.delivered := by
    split <;> rfl
  dsimp only
  generalize (if e.reorderingTimerRunning ∧ e.st.rxDeliv ≥ e.st.rxReord then
    ({ e with reorderingTimerRunning := false } : PdcpEntityRx cfg) else e) = e₁ at hsame ⊢
  rw [← hsame]
  split
  · exact List.prefix_refl _
  · exact handleTReorderingExpire_keeps _
  · split
    · exact List.prefix_refl _
    · exact List.prefix_refl _

end PdcpEntityRx

end SrsRan.Pdcp
