import SrsRan.Pdcp.TxEntity
import SrsRan.Lib.Fallible

/-!
The transmitter's window over whole runs: it holds COUNTs from
`TX_NEXT_ACK` up to below `TX_NEXT`, `TX_NEXT_ACK` does not pass `TX_NEXT`,
and `TX_NEXT` stays a `uint32_t` (`Wf`). Every event keeps this, so every
reachable transmitter satisfies it.

On such a window, `discard_pdu` of any COUNT takes exactly that COUNT out
(`discardPdu_spec`): one held in the window is in range, and the loop that
moves `TX_NEXT_ACK` on only passes COUNTs the window does not hold.
-/

namespace SrsRan.Pdcp

namespace PdcpEntityTx

variable {cfg : PdcpTxConfig}

open Fallible (Post)

/-- The window of a transmitter holds COUNTs from `TX_NEXT_ACK` up to below
`TX_NEXT`. -/
structure Wf (e : PdcpEntityTx cfg) : Prop where
  window_range : SduWindow.All (fun c _ => e.st.txNextAck ≤ c ∧ c < e.st.txNext) e.txWindow
  ack_le : e.st.txNextAck ≤ e.st.txNext
  txNext_lt : e.st.txNext < 2 ^ 32

variable {e e' : PdcpEntityTx cfg}

theorem Wf.of_eq (h : Wf e) (hack : e'.st.txNextAck = e.st.txNextAck) (hnext : e'.st.txNext = e.st.txNext)
    (hw : e'.txWindow = e.txWindow) : Wf e' :=
  ⟨by rw [hack, hnext, hw]; exact h.window_range, by rw [hack, hnext]; exact h.ack_le,
    hnext ▸ h.txNext_lt⟩

/-- A COUNT out of `[TX_NEXT_ACK, TX_NEXT)` is not in the window. -/
theorem Wf.get?_eq_none (h : Wf e) {c : Nat} (hc : ¬(e.st.txNextAck ≤ c ∧ c < e.st.txNext)) :
    CircularMap.get? e.txWindow c = none := by
  cases hv : CircularMap.get? e.txWindow c with
  | none => rfl
  | some v => exact absurd (h.window_range c v hv) hc

theorem wf_create (cfg : PdcpTxConfig) : Wf (create cfg) :=
  ⟨SduWindow.all_empty _, le_refl 0, Nat.two_pow_pos 32⟩

/-- What a window lookup returns is what the window gives. -/
theorem post_window {α : Type} (x : Except SduWindowAssertion α) :
    Post (fun a => x = .ok a) (fun _ => True) (window x) := by
  cases x with
  | error err => trivial
  | ok a => exact rfl

/-! ## Moving `TX_NEXT_ACK` -/

/-- `skip_absent` moves `TX_NEXT_ACK` only. -/
@[simp] theorem skipAbsent_frame (e : PdcpEntityTx cfg) (k : Nat) :
    (e.skipAbsent k).txWindow = e.txWindow ∧ (e.skipAbsent k).st.txNext = e.st.txNext := by
  induction k generalizing e with
  | zero => exact ⟨rfl, rfl⟩
  | succ k ih =>
    unfold skipAbsent
    split
    · exact ih _
    · exact ⟨rfl, rfl⟩

/-- Each round passes a COUNT below `TX_NEXT` that the window does not hold. -/
theorem Wf.skipAbsent (h : Wf e) (k : Nat) : Wf (e.skipAbsent k) := by
  induction k generalizing e with
  | zero => exact h
  | succ k ih =>
    unfold PdcpEntityTx.skipAbsent
    split
    · rename_i hskip
      obtain ⟨hlt, habsent⟩ := hskip
      have hnone : CircularMap.get? e.txWindow e.st.txNextAck = none := by
        simpa [SduWindow.hasSn, CircularMap.contains] using habsent
      have hstep : (e.st.txNextAck + 1) % 2 ^ 32 = e.st.txNextAck + 1 :=
        Nat.mod_eq_of_lt (by have := h.txNext_lt; omega)
      refine ih ⟨fun c v hv => ?_, ?_, h.txNext_lt⟩
      · have hc := h.window_range c v hv
        have hne : c ≠ e.st.txNextAck := by
          rintro rfl
          rw [hnone] at hv
          cases hv
        simp only [hstep]
        omega
      · simp only [hstep]
        omega
    · exact h

theorem raiseTxTrans_frame (e : PdcpEntityTx cfg) :
    e.raiseTxTrans.txWindow = e.txWindow ∧ e.raiseTxTrans.st.txNext = e.st.txNext ∧
      e.raiseTxTrans.st.txNextAck = e.st.txNextAck := by
  unfold raiseTxTrans
  split <;> exact ⟨rfl, rfl, rfl⟩

theorem Wf.raiseTxTrans (h : Wf e) : Wf e.raiseTxTrans :=
  h.of_eq (raiseTxTrans_frame e).2.2 (raiseTxTrans_frame e).2.1 (raiseTxTrans_frame e).1

/-! ## `discard_pdu` -/

/-- With a discard timer, `discard_pdu` takes exactly its COUNT out of the
window: a COUNT out of range or absent is not there to begin with. -/
theorem discardPdu_spec (h : Wf e) (ht : cfg.discardTimer.isSome = true) (c : Nat) :
    ∃ e', e.discardPdu c = .ok e' ∧ Wf e' ∧ e'.st.txNext = e.st.txNext ∧
      SduWindow.Erases (· = c) e.txWindow e'.txWindow := by
  have hnone : cfg.discardTimer.isNone = false := by simpa using ht
  unfold discardPdu
  rw [if_neg (by simp [hnone])]
  by_cases hr : c < e.st.txNextAck ∨ c ≥ e.st.txNext
  · rw [if_pos hr]
    exact ⟨e, rfl, h, rfl, SduWindow.erases_of_eq_none (h.get?_eq_none (by omega))⟩
  rw [if_neg hr]
  by_cases hs : e.txWindow.hasSn c = true
  · obtain ⟨w, hw⟩ := SduWindow.removeSn_ok_iff.mpr hs
    rw [if_neg (by simp [hs])]
    simp only [window, hw, Fallible.mapError_ok, Fallible.ok_bind, Fallible.pure_eq_ok]
    -- the COUNT leaves the window, then `TX_NEXT_ACK` moves over the absent ones
    have h₁ : ∀ l, Wf ({ e with txWindow := w, lowerDn := l } : PdcpEntityTx cfg) :=
      fun _ => ⟨h.window_range.removeSn hw, h.ack_le, h.txNext_lt⟩
    refine ⟨_, rfl, ((h₁ _).skipAbsent _).raiseTxTrans, ?_, ?_⟩
    · rw [(raiseTxTrans_frame _).2.1, (skipAbsent_frame _ _).2]
    · rw [(raiseTxTrans_frame _).1, (skipAbsent_frame _ _).1]
      exact SduWindow.erases_removeSn hw
  · rw [if_pos (by simpa using hs)]
    refine ⟨e, rfl, h, rfl, SduWindow.erases_of_eq_none ?_⟩
    simpa [SduWindow.hasSn, CircularMap.contains] using hs

/-- The loop over the COUNTs below the FMC takes out exactly the COUNTs of
its rounds. Induction on the rounds. -/
theorem discardFrom_spec (ht : cfg.discardTimer.isSome = true) (k : Nat) :
    ∀ {e : PdcpEntityTx cfg} (count : Nat), Wf e → ∃ e', e.discardFrom k count = .ok e' ∧ Wf e' ∧
      SduWindow.Erases (fun c => count ≤ c ∧ c < count + k) e.txWindow e'.txWindow := by
  induction k with
  | zero =>
    intro e count h
    exact ⟨e, rfl, h, (SduWindow.erases_false _).congr fun c => ⟨False.elim, fun hc => by omega⟩⟩
  | succ k ih =>
    intro e count h
    obtain ⟨e₁, he₁, h₁, -, hr₁⟩ := discardPdu_spec h ht count
    obtain ⟨e', he', h', hr'⟩ := ih (count + 1) h₁
    refine ⟨e', ?_, h', (hr₁.trans hr').congr fun c => by omega⟩
    simp only [PdcpEntityTx.discardFrom, he₁, Fallible.ok_bind, he']

/-- `discard_pdu` keeps `Wf` and `TX_NEXT`, with or without a discard timer. -/
theorem Wf.discardPdu (h : Wf e) (c : Nat) :
    Post (fun e' : PdcpEntityTx cfg => Wf e' ∧ e'.st.txNext = e.st.txNext) (fun _ => True)
      (e.discardPdu c) := by
  cases ht : cfg.discardTimer.isSome with
  | true =>
    obtain ⟨e', he', hwf, hnext, -⟩ := discardPdu_spec h ht c
    rw [he']
    exact ⟨hwf, hnext⟩
  | false =>
    have hnone : cfg.discardTimer.isNone = true := by simpa using ht
    unfold PdcpEntityTx.discardPdu
    rw [if_pos hnone]
    exact ⟨h, rfl⟩

/-! ## `stop_discard_timer` -/

/-- The loop of `stop_discard_timer` keeps `Wf` while it stays below
`TX_NEXT`: each round takes `TX_NEXT_ACK` out of the window and steps past
it. Induction on the rounds. -/
theorem Wf.removeAcked (k : Nat) :
    ∀ {e : PdcpEntityTx cfg}, Wf e → e.st.txNextAck + k ≤ e.st.txNext →
      Post Wf (fun _ => True) (e.removeAcked k) := by
  induction k with
  | zero => intro e h _; exact h
  | succ k ih =>
    intro e h hk
    have hstep : (e.st.txNextAck + 1) % 2 ^ 32 = e.st.txNextAck + 1 :=
      Nat.mod_eq_of_lt (by have := h.txNext_lt; omega)
    -- the rounds left go on from any window that holds nothing at `TX_NEXT_ACK`
    have hrest : ∀ w : PdcpTxWindow cfg,
        SduWindow.All (fun c _ => e.st.txNextAck + 1 ≤ c ∧ c < e.st.txNext) w →
          Post Wf (fun _ => True)
            (({ e with txWindow := w, st.txNextAck := (e.st.txNextAck + 1) % 2 ^ 32 } : PdcpEntityTx cfg).removeAcked k) := by
      intro w hw
      refine ih ⟨?_, ?_, h.txNext_lt⟩ ?_
      · simpa only [hstep] using hw
      · simp only [hstep]
        omega
      · simp only [hstep]
        omega
    unfold PdcpEntityTx.removeAcked
    dsimp only
    split
    · rename_i hs
      obtain ⟨w, hrm⟩ := SduWindow.removeSn_ok_iff.mpr hs
      simp only [window, hrm, Fallible.mapError_ok, Fallible.ok_bind]
      refine hrest w fun c v hv => ?_
      rw [SduWindow.removeSn_get? hrm] at hv
      split_ifs at hv with hc
      have := h.window_range c v hv
      omega
    · rename_i hs
      simp only [Fallible.pure_eq_ok, Fallible.ok_bind]
      refine hrest _ fun c v hv => ?_
      have hne : c ≠ e.st.txNextAck := by
        rintro rfl
        simp [SduWindow.hasSn, CircularMap.contains, hv] at hs
      have := h.window_range c v hv
      omega

theorem Wf.stopDiscardTimer (h : Wf e) (highestCount : Nat) :
    Post Wf (fun _ => True) (e.stopDiscardTimer highestCount) := by
  unfold PdcpEntityTx.stopDiscardTimer
  split
  · exact h
  split
  · exact h
  · rename_i hr
    exact Post.bind (h.removeAcked _ (by omega)) fun e₁ h₁ => h₁.raiseTxTrans

/-! ## The events -/

/-- `store_sdu` puts the SDU info under `TX_NEXT`: afterwards the window
holds COUNTs up to `TX_NEXT` itself. -/
theorem Wf.storeSdu (h : Wf e) (sdu : List UInt8) :
    Post (fun e' : PdcpEntityTx cfg => e'.st.txNext = e.st.txNext ∧ e'.st.txNextAck ≤ e'.st.txNext ∧
        SduWindow.All (fun c _ => e'.st.txNextAck ≤ c ∧ c ≤ e'.st.txNext) e'.txWindow)
      (fun _ => True) (e.storeSdu sdu) := by
  unfold PdcpEntityTx.storeSdu
  split
  · exact ⟨rfl, h.ack_le, h.window_range.mono fun _ _ hc => ⟨hc.1, hc.2.le⟩⟩
  -- the new entry goes under `TX_NEXT` of whatever entity the discard leaves
  have hadd : ∀ e₁ : PdcpEntityTx cfg, Wf e₁ → e₁.st.txNext = e.st.txNext → ∀ info : PdcpTxSduInfo,
      Post (fun e' : PdcpEntityTx cfg => e'.st.txNext = e.st.txNext ∧ e'.st.txNextAck ≤ e'.st.txNext ∧
          SduWindow.All (fun c _ => e'.st.txNextAck ≤ c ∧ c ≤ e'.st.txNext) e'.txWindow) (fun _ => True)
        (window (e₁.txWindow.addSn e₁.st.txNext info) >>= fun w =>
          pure ({ e₁ with txWindow := w } : PdcpEntityTx cfg)) := by
    intro e₁ h₁ hnext₁ info
    refine Post.bind (post_window _) fun w hw => ⟨hnext₁, h₁.ack_le, ?_⟩
    exact (h₁.window_range.mono fun _ _ hc => ⟨hc.1, hc.2.le⟩).addSn ⟨h₁.ack_le, le_refl _⟩ hw
  dsimp only
  split
  · refine Post.bind (post_window _) fun old _ => ?_
    exact Post.bind (h.discardPdu old.count) fun e₁ ⟨h₁, hnext₁⟩ => hadd e₁ h₁ hnext₁ _
  · exact hadd e h rfl _

theorem Wf.handleSdu (h : Wf e) (buf : List UInt8) : Post Wf (fun _ => True) (e.handleSdu buf) := by
  unfold PdcpEntityTx.handleSdu
  dsimp only
  split
  · exact h
  split
  · exact h.of_eq rfl rfl rfl
  rename_i hhard
  have hlt : e.st.txNext + 1 < 2 ^ 32 := by
    have := cfg.maxCount.hard_lt
    omega
  have h₁ : Wf (if e.st.txNext ≥ cfg.maxCount.notify then
      ({ e with maxCountNotified := true } : PdcpEntityTx cfg) else e) := by
    split <;> exact h.of_eq rfl rfl rfl
  have hnext₁ : (if e.st.txNext ≥ cfg.maxCount.notify then
      ({ e with maxCountNotified := true } : PdcpEntityTx cfg) else e).st.txNext = e.st.txNext := by
    split <;> rfl
  generalize (if e.st.txNext ≥ cfg.maxCount.notify then
    ({ e with maxCountNotified := true } : PdcpEntityTx cfg) else e) = e₁ at h₁ hnext₁ ⊢
  refine Post.bind (Fallible.post_eq _) fun pdu _ => ?_
  refine Post.bind (h₁.storeSdu buf) fun e₂ ⟨hnext₂, hack₂, hw₂⟩ => ?_
  have hstep : (e₂.st.txNext + 1) % 2 ^ 32 = e₂.st.txNext + 1 := Nat.mod_eq_of_lt (by omega)
  refine ⟨?_, ?_, Nat.mod_lt _ (Nat.two_pow_pos 32)⟩
  · show SduWindow.All (fun c _ => e₂.st.txNextAck ≤ c ∧ c < (e₂.st.txNext + 1) % 2 ^ 32) e₂.txWindow
    rw [hstep]
    exact hw₂.mono fun _ _ hc => ⟨hc.1, Nat.lt_succ_of_le hc.2⟩
  · show e₂.st.txNextAck ≤ (e₂.st.txNext + 1) % 2 ^ 32
    omega

theorem Wf.handleTransmitNotification (h : Wf e) (sn : Nat) :
    Post Wf (fun _ => True) (e.handleTransmitNotification sn) := by
  unfold PdcpEntityTx.handleTransmitNotification
  dsimp only
  have h₁ : ∀ count, Wf ({ e with st.txTrans := count } : PdcpEntityTx cfg) :=
    fun _ => h.of_eq rfl rfl rfl
  split
  · exact h
  split
  · exact h
  split
  · exact h
  split
  · exact h₁ _
  split
  · exact (h₁ _).stopDiscardTimer _
  · exact h₁ _

theorem Wf.handleDeliveryNotification (h : Wf e) (sn : Nat) :
    Post Wf (fun _ => True) (e.handleDeliveryNotification sn) := by
  unfold PdcpEntityTx.handleDeliveryNotification
  dsimp only
  split
  · exact h
  split
  · exact h
  split
  · exact h
  split
  · exact h.stopDiscardTimer _
  · exact h

/-- The loop over the COUNTs below the FMC keeps `Wf`. Induction on the rounds. -/
theorem Wf.discardFrom (k : Nat) :
    ∀ {e : PdcpEntityTx cfg} (count : Nat), Wf e → Post Wf (fun _ => True) (e.discardFrom k count) := by
  induction k with
  | zero => intro e count h; exact h
  | succ k ih =>
    intro e count h
    exact Post.bind (h.discardPdu count) fun e₁ h₁ => ih _ h₁.1

/-- The loop over the bitmap keeps `Wf`. Induction on the rounds. -/
theorem Wf.discardBitmap (k : Nat) :
    ∀ {e : PdcpEntityTx cfg} (r : BitReader) (fmc : Nat), Wf e →
      Post Wf (fun _ => True) (e.discardBitmap k r fmc) := by
  induction k with
  | zero => intro e r fmc h; exact h
  | succ k ih =>
    intro e r fmc h
    unfold PdcpEntityTx.discardBitmap
    split
    · exact h
    · dsimp only
      split
      · exact Post.bind (h.discardPdu _) fun e₁ h₁ => ih _ _ h₁.1
      · exact ih _ _ h

theorem Wf.handleStatusReport (h : Wf e) (status : List UInt8) :
    Post Wf (fun _ => True) (e.handleStatusReport status) := by
  unfold PdcpEntityTx.handleStatusReport
  dsimp only
  split
  · exact h
  split
  · exact h
  split
  · exact h
  · exact Post.bind (Wf.discardFrom _ _ h) fun e₁ h₁ => Wf.discardBitmap _ _ _ h₁

/-- The retransmission loop hands PDUs down and leaves the window and the
state as they are. Induction on the rounds. -/
theorem Wf.retransmitFrom (k : Nat) :
    ∀ {e : PdcpEntityTx cfg} (count : Nat), Wf e → Post Wf (fun _ => True) (e.retransmitFrom k count) := by
  induction k with
  | zero => intro e count h; exact h
  | succ k ih =>
    intro e count h
    unfold PdcpEntityTx.retransmitFrom
    dsimp only
    split
    · refine Post.bind (post_window _) fun info _ => ?_
      exact Post.bind (Fallible.post_eq _) fun pdu _ => ih _ (h.of_eq rfl rfl rfl)
    · exact ih _ h

theorem Wf.retransmitAllPdus (h : Wf e) : Post Wf (fun _ => True) e.retransmitAllPdus := by
  unfold PdcpEntityTx.retransmitAllPdus
  split
  · exact h
  split
  · exact h
  · exact Wf.retransmitFrom _ _ (h.of_eq rfl rfl rfl)

theorem Wf.dataRecovery (h : Wf e) : Post Wf (fun _ => True) e.dataRecovery := by
  unfold PdcpEntityTx.dataRecovery
  have h₁ : Wf (if cfg.statusReportRequired then
      ({ e with lowerDn := e.lowerDn ++ [.statusReport] } : PdcpEntityTx cfg) else e) := by
    split <;> exact h.of_eq rfl rfl rfl
  dsimp only
  generalize (if cfg.statusReportRequired then
    ({ e with lowerDn := e.lowerDn ++ [.statusReport] } : PdcpEntityTx cfg) else e) = e₁ at h₁ ⊢
  split
  · trivial
  · exact h₁.retransmitAllPdus

theorem Wf.reestablish (h : Wf e) : Post Wf (fun _ => True) e.reestablish := by
  unfold PdcpEntityTx.reestablish
  have h₁ : Wf (if isSrb cfg || isUm cfg then
      ({ e with st := ⟨0, 0, 0⟩, txWindow := CircularMap.empty } : PdcpEntityTx cfg) else e) := by
    split
    · exact ⟨SduWindow.all_empty _, le_refl 0, Nat.two_pow_pos 32⟩
    · exact h
  dsimp only
  generalize (if isSrb cfg || isUm cfg then
    ({ e with st := ⟨0, 0, 0⟩, txWindow := CircularMap.empty } : PdcpEntityTx cfg) else e) = e₁ at h₁ ⊢
  split
  · exact h₁.retransmitAllPdus
  · exact h₁

/-- The step lemma. -/
theorem Wf.step (h : Wf e) (ev : PdcpTxEvent) : Post Wf (fun _ => True) (e.step ev) := by
  cases ev with
  | sdu buf => exact h.handleSdu buf
  | transmitNotification sn => exact h.handleTransmitNotification sn
  | deliveryNotification sn => exact h.handleDeliveryNotification sn
  | discardTimerExpiry count =>
    rw [PdcpEntityTx.step]
    split
    · split
      · exact Post.mono (h.discardPdu count) (fun _ h' => h'.1) (fun _ _ => trivial)
      · exact h
    · exact h
  | statusReport buf => exact h.handleStatusReport buf
  | dataRecovery => exact h.dataRecovery
  | reestablish => exact h.reestablish

/-- Every reachable transmitter satisfies `Wf`. -/
theorem Reachable.wf (hr : Reachable cfg e) : Wf e := by
  refine Transition.Reachable.invariant (wf_create cfg) (fun e₀ ev e₁ h₀ hstep => ?_) hr
  have hpost := h₀.step ev
  rw [hstep] at hpost
  exact hpost

end PdcpEntityTx

end SrsRan.Pdcp
