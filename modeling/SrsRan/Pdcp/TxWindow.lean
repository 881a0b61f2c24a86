import SrsRan.Pdcp.TxEntity
import SrsRan.Lib.Fallible

/-!
What `handle_sdu` does to the transmitter's window. With a discard timer
the SDU info goes in under `TX_NEXT` (`handleSdu_of_open`); the guard that
should free the slot first asks `has_sn(TX_NEXT)`, which looks for the key
`TX_NEXT` itself, so a COUNT `Window_Size` below it that still holds the
slot is dropped by `overwrite` with no `on_discard_pdu`
(`handleSdu_drops_slot_owner`).

`handle_sdu` bounds `TX_NEXT - TX_TRANS` only: SDUs that are reported
transmitted and never acknowledged fill the window (`run_sentUnacked`),
and the next SDU reaches that case from creation.
-/

namespace SrsRan.Pdcp

namespace PdcpEntityTx

variable {cfg : PdcpTxConfig}

/-- The SDU info `handle_sdu` stores for `count` under the discard timer
`t`: the SDU itself for AM, and a running timer unless it is infinite. -/
def storedInfo (cfg : PdcpTxConfig) (t : PdcpDiscardTimer) (sdu : List UInt8) (count : Nat) :
    PdcpTxSduInfo :=
  ⟨count, if isAm cfg then sdu else [], t != .infinity⟩

theorem storeSdu_of_absent (e : PdcpEntityTx cfg) {t : PdcpDiscardTimer} (ht : cfg.discardTimer = some t)
    (sdu : List UInt8) (h : e.txWindow.hasSn e.st.txNext = false) :
    e.storeSdu sdu = .ok
      { e with txWindow := CircularMap.overwrite e.txWindow e.st.txNext (storedInfo cfg t sdu e.st.txNext) } := by
  simp [storeSdu, storedInfo, ht, h, SduWindow.addSn, window]

/-- Only an 18-bit SN on an SRB fails the header. -/
theorem writeDataPduHeader_ok (cfg : PdcpTxConfig) (hsrb : ¬(isSrb cfg = true ∧ cfg.snSize = .size18bits))
    (sn : Nat) (buf : List UInt8) : ∃ pdu, writeDataPduHeader cfg sn buf = .ok pdu := by
  unfold writeDataPduHeader
  rw [if_neg (by simpa using hsrb)]
  cases cfg.snSize <;> exact ⟨_, rfl⟩

/-- The path of `handle_sdu` that sends the SDU, with a discard timer and
`TX_NEXT` not stored: the SDU info goes in by `overwrite`, one data PDU
goes down, and `TX_NEXT` moves on. -/
theorem handleSdu_of_open (e : PdcpEntityTx cfg) {t : PdcpDiscardTimer} (ht : cfg.discardTimer = some t)
    (buf : List UInt8) (hopen : e.dropsSdu = false) (hhard : e.st.txNext < cfg.maxCount.hard)
    (hsrb : ¬(isSrb cfg = true ∧ cfg.snSize = .size18bits))
    (h : e.txWindow.hasSn e.st.txNext = false) :
    ∃ e' pdu, e.handleSdu buf = .ok e' ∧ e'.st = { e.st with txNext := e.st.txNext + 1 } ∧
      e'.txWindow = CircularMap.overwrite e.txWindow e.st.txNext (storedInfo cfg t buf e.st.txNext) ∧
      e'.lowerDn = e.lowerDn ++ [.dataPdu e.st.txNext pdu false] := by
  obtain ⟨e₁, he₁, hst, hw, hlow⟩ : ∃ e₁ : PdcpEntityTx cfg,
      (if e.st.txNext ≥ cfg.maxCount.notify then { e with maxCountNotified := true } else e) = e₁ ∧
        e₁.st = e.st ∧ e₁.txWindow = e.txWindow ∧ e₁.lowerDn = e.lowerDn :=
    ⟨_, rfl, by split <;> rfl, by split <;> rfl, by split <;> rfl⟩
  obtain ⟨pdu, hpdu⟩ := writeDataPduHeader_ok cfg hsrb (pdcpComputeSn e.st.txNext cfg.snSize) buf
  have hrun : e.handleSdu buf = .ok
      { e₁ with
        st := { e.st with txNext := (e.st.txNext + 1) % 2 ^ 32 }
        txWindow := CircularMap.overwrite e.txWindow e.st.txNext (storedInfo cfg t buf e.st.txNext)
        lowerDn := e.lowerDn ++ [.dataPdu e.st.txNext (applyCipheringAndIntegrityProtection cfg pdu) false] } := by
    unfold handleSdu
    simp only [hopen, Bool.false_eq_true, ↓reduceIte, Nat.not_le.mpr hhard, he₁, hpdu,
      Fallible.ok_bind, e₁.storeSdu_of_absent ht buf (by rw [hst, hw]; exact h), Fallible.pure_eq_ok,
      hst, hw, hlow, writeDataPduToLowerLayers]
  have hlt : e.st.txNext + 1 < 2 ^ 32 := by
    have := cfg.maxCount.hard_lt
    omega
  refine ⟨_, _, hrun, ?_, rfl, rfl⟩
  simp only [Nat.mod_eq_of_lt hlt]

/-- A COUNT `k` that shares the slot of `TX_NEXT` loses its SDU info to the
new SDU, and the lower layer hears of no discard. -/
theorem handleSdu_drops_slot_owner (e : PdcpEntityTx cfg) {t : PdcpDiscardTimer}
    (ht : cfg.discardTimer = some t) (buf : List UInt8) (hopen : e.dropsSdu = false)
    (hhard : e.st.txNext < cfg.maxCount.hard) (hsrb : ¬(isSrb cfg = true ∧ cfg.snSize = .size18bits))
    (h : e.txWindow.hasSn e.st.txNext = false) {k : Nat} (hk : k ≠ e.st.txNext)
    (hs : k % pdcpWindowSize cfg.snSize = e.st.txNext % pdcpWindowSize cfg.snSize) :
    ∃ e' pdu, e.handleSdu buf = .ok e' ∧ e'.st = { e.st with txNext := e.st.txNext + 1 } ∧
      CircularMap.get? e'.txWindow k = none ∧ e'.lowerDn = e.lowerDn ++ [.dataPdu e.st.txNext pdu false] := by
  obtain ⟨e', pdu, hrun, hst, hw, hlow⟩ := e.handleSdu_of_open ht buf hopen hhard hsrb h
  refine ⟨e', pdu, hrun, hst, ?_, hlow⟩
  rw [hw, CircularMap.get?_overwrite_eq, if_neg hk, if_pos (CircularMap.slot_eq_iff.mpr hs)]

/-- A transmit notification for a COUNT in `[TX_TRANS, TX_NEXT)` of an AM
bearer moves `TX_TRANS` to one past it. -/
theorem handleTransmitNotification_of_pending (e : PdcpEntityTx cfg) {sn count : Nat}
    (hsn : sn < pdcpSnCardinality cfg.snSize) (hcount : e.notificationCountEstimation sn = count)
    (htrans : e.st.txTrans ≤ count) (hnext : count < e.st.txNext) (hum : isUm cfg = false) :
    e.handleTransmitNotification sn = .ok { e with st.txTrans := count + 1 } := by
  unfold handleTransmitNotification
  simp only [if_neg (Nat.not_le.mpr hsn), hcount, if_neg (Nat.not_lt.mpr htrans),
    if_neg (Nat.not_le.mpr hnext), hum, Bool.false_eq_true, ↓reduceIte, Fallible.pure_eq_ok]
  split <;> rfl

/-- With every SDU reported transmitted, `handle_sdu` drops none. -/
theorem dropsSdu_of_transmitted (e : PdcpEntityTx cfg) (hq : 0 < cfg.rlcSduQueue)
    (h : e.st.txTrans = e.st.txNext) : e.dropsSdu = false := by
  have hws : 2 ≤ pdcpWindowSize cfg.snSize := by
    cases cfg.snSize <;> decide
  simp only [dropsSdu, h, Nat.sub_self, gt_iff_lt, Nat.lt_irrefl, decide_false, Bool.false_or,
    Bool.or_eq_false_iff, decide_eq_false_iff_not, Nat.not_le]
  omega

/-! ## Sending without acknowledgement -/

/-- The configurations the run below applies to: a discard timer, an AM
bearer, a non-empty RLC queue, a hard COUNT limit above `Window_Size` and
a header the bearer can write. -/
structure UnackedCfg (cfg : PdcpTxConfig) (t : PdcpDiscardTimer) : Prop where
  discardTimer_eq : cfg.discardTimer = some t
  not_um : isUm cfg = false
  queue_pos : 0 < cfg.rlcSduQueue
  window_lt_hard : pdcpWindowSize cfg.snSize < cfg.maxCount.hard
  header_ok : ¬(isSrb cfg = true ∧ cfg.snSize = .size18bits)

/-- `k` copies of one SDU, each followed by the transmit notification of
its SN. -/
def sentUnacked (sdu : List UInt8) (k : Nat) : List PdcpTxEvent :=
  (List.range k).flatMap fun i => [.sdu sdu, .transmitNotification i]

theorem sentUnacked_succ (sdu : List UInt8) (k : Nat) :
    sentUnacked sdu (k + 1) = sentUnacked sdu k ++ [.sdu sdu, .transmitNotification k] := by
  simp [sentUnacked, List.range_succ]

/-- `k` SDUs sent and reported transmitted, none acknowledged: `TX_NEXT =
TX_TRANS = k`, `TX_NEXT_ACK = 0`, and the window holds exactly the COUNTs
below `k`. -/
structure Unacked (e : PdcpEntityTx cfg) (info : Nat → PdcpTxSduInfo) (k : Nat) : Prop where
  st_eq : e.st = ⟨k, k, 0⟩
  get?_eq : ∀ j, CircularMap.get? e.txWindow j = if j < k then some (info j) else none

theorem Unacked.hasSn_eq_false {e : PdcpEntityTx cfg} {info : Nat → PdcpTxSduInfo} {k : Nat}
    (hi : e.Unacked info k) : e.txWindow.hasSn k = false := by
  simp [SduWindow.hasSn, CircularMap.contains, hi.get?_eq]

/-- One SDU and its transmit notification, below `Window_Size`: the SDU is
stored under `k`, and the notification of SN `k`, with `TX_NEXT_ACK = 0`
as the lower edge, moves `TX_TRANS` to `k + 1`. -/
theorem Unacked.step_pair {t : PdcpDiscardTimer} (hc : UnackedCfg cfg t) {sdu : List UInt8}
    {e : PdcpEntityTx cfg} {k : Nat} (hi : e.Unacked (storedInfo cfg t sdu) k)
    (hk : k < pdcpWindowSize cfg.snSize) :
    ∃ e', Transition.run step e [.sdu sdu, .transmitNotification k] = .ok e' ∧
      e'.Unacked (storedInfo cfg t sdu) (k + 1) := by
  have hcard : pdcpSnCardinality cfg.snSize = 2 * pdcpWindowSize cfg.snSize := pdcpSnCardinality_eq _
  have hws : pdcpWindowSize cfg.snSize ≤ 2 ^ 17 := by
    cases cfg.snSize <;> decide
  obtain ⟨e₁, pdu, hsdu, hst, hw, -⟩ := e.handleSdu_of_open hc.discardTimer_eq sdu
    (e.dropsSdu_of_transmitted hc.queue_pos (by rw [hi.st_eq]))
    (by rw [hi.st_eq]; exact Nat.lt_trans hk hc.window_lt_hard) hc.header_ok
    (by rw [hi.st_eq]; exact hi.hasSn_eq_false)
  rw [hi.st_eq] at hst hw
  -- with a discard timer the lower edge is `TX_NEXT_ACK`, still `0`
  have hcount : e₁.notificationCountEstimation k = k := by
    have hsn0 : pdcpComputeSn 0 cfg.snSize = 0 := by
      rw [pdcpComputeSn_eq, Nat.zero_mod]
    have hhfn0 : pdcpComputeHfn 0 cfg.snSize = 0 := by
      rw [pdcpComputeHfn_eq, Nat.zero_div]
    simp only [notificationCountEstimation, hc.discardTimer_eq, Option.isSome_some, ↓reduceIte, hst]
    rw [countEstimation_of_within (by omega) (by rw [hsn0]; omega) (by rw [hsn0]; omega), hhfn0]
    simp only [Nat.zero_mul, Nat.zero_add]
    exact Nat.mod_eq_of_lt (by omega)
  have htn := e₁.handleTransmitNotification_of_pending (by omega) hcount (by rw [hst]) (by rw [hst]; simp)
    hc.not_um
  refine ⟨{ e₁ with st.txTrans := k + 1 }, ?_, ?_, ?_⟩
  · simp only [Transition.run_cons, step, hsdu, htn, Transition.run_nil]
  · simp [hst]
  · intro j
    simp only [hw]
    exact CircularMap.get?_overwrite_succ hk hi.get?_eq j

/-- The run over `k ≤ Window_Size` unacknowledged SDUs from creation. -/
theorem run_sentUnacked {t : PdcpDiscardTimer} (hc : UnackedCfg cfg t) (sdu : List UInt8) {k : Nat}
    (hk : k ≤ pdcpWindowSize cfg.snSize) :
    ∃ e, Transition.run step (create cfg) (sentUnacked sdu k) = .ok e ∧
      e.Unacked (storedInfo cfg t sdu) k := by
  induction k with
  | zero => exact ⟨create cfg, rfl, rfl, fun j => by simp [create]⟩
  | succ k ih =>
    obtain ⟨e, hrun, hi⟩ := ih (by omega)
    obtain ⟨e', hpair, hi'⟩ := hi.step_pair hc (by omega)
    refine ⟨e', ?_, hi'⟩
    rw [sentUnacked_succ, Transition.run_append, hrun]
    exact hpair

/-- With a discard timer and nothing acknowledged, `Window_Size` SDUs fill
the window; the next SDU takes COUNT `Window_Size`, whose slot holds COUNT
`0`. `has_sn(TX_NEXT)` is false, so `discard_pdu` is not called: COUNT `0`
leaves the window by `overwrite` while the lower layer gets only the new
data PDU, and `TX_NEXT - TX_NEXT_ACK` is `Window_Size + 1`. -/
theorem handleSdu_overwrites_unacked_slot {t : PdcpDiscardTimer} (hc : UnackedCfg cfg t)
    (sdu : List UInt8) :
    ∃ e : PdcpEntityTx cfg, Reachable cfg e ∧
      CircularMap.get? e.txWindow 0 = some (storedInfo cfg t sdu 0) ∧
      ∃ e' pdu, e.step (.sdu sdu) = .ok e' ∧ Reachable cfg e' ∧
        e'.st.txNext - e'.st.txNextAck = pdcpWindowSize cfg.snSize + 1 ∧
        CircularMap.get? e'.txWindow 0 = none ∧
        e'.lowerDn = e.lowerDn ++ [.dataPdu (pdcpWindowSize cfg.snSize) pdu false] := by
  have hws : 0 < pdcpWindowSize cfg.snSize := Nat.pos_of_neZero _
  obtain ⟨e, hrun, hi⟩ := run_sentUnacked hc sdu (le_refl (pdcpWindowSize cfg.snSize))
  have hreach : Reachable cfg e := Transition.Reachable.init.run hrun
  obtain ⟨e', pdu, hsdu, hst, hget, hlow⟩ := e.handleSdu_drops_slot_owner hc.discardTimer_eq sdu
    (e.dropsSdu_of_transmitted hc.queue_pos (by rw [hi.st_eq])) (by rw [hi.st_eq]; exact hc.window_lt_hard)
    hc.header_ok (by rw [hi.st_eq]; exact hi.hasSn_eq_false) (k := 0)
    (by rw [hi.st_eq]; exact (Nat.ne_of_lt hws)) (by rw [hi.st_eq]; simp)
  rw [hi.st_eq] at hst hlow
  refine ⟨e, hreach, by simp [hi.get?_eq, hws], e', pdu, hsdu, hreach.step (PdcpTxEvent.sdu sdu) hsdu, ?_, hget, hlow⟩
  simp [hst]

/-- With 12-bit SNs, an infinite discard timer and the default limits, the
SDU `00` sent 2049 times over an AM DRB. -/
theorem handleSdu_overwrites_unacked_slot_am12 :
    UnackedCfg ⟨.drb, .am, .size12bits, some .infinity, false, 4096, pdcpDefaultMaxCount, false⟩ .infinity ∧
    ∃ e : PdcpEntityTx ⟨.drb, .am, .size12bits, some .infinity, false, 4096, pdcpDefaultMaxCount, false⟩,
      Reachable _ e ∧ CircularMap.get? e.txWindow 0 = some ⟨0, [0], false⟩ ∧
      ∃ e' pdu, e.step (.sdu [0]) = .ok e' ∧ Reachable _ e' ∧ e'.st.txNext - e'.st.txNextAck = 2049 ∧
        CircularMap.get? e'.txWindow 0 = none ∧ e'.lowerDn = e.lowerDn ++ [.dataPdu 2048 pdu false] :=
  have hc : UnackedCfg ⟨.drb, .am, .size12bits, some .infinity, false, 4096, pdcpDefaultMaxCount, false⟩
      .infinity := ⟨rfl, rfl, by decide, by decide, by decide⟩
  ⟨hc, handleSdu_overwrites_unacked_slot hc [0]⟩

end PdcpEntityTx

end SrsRan.Pdcp
