import SrsRan.Rlc.RxAmSpec

/-!
The receive window of the AM receiver over every run. Measured from
`RX_Next`, the state variables stay ordered as
`RX_Next ≤ RX_Highest_Status ≤ RX_Next_Highest ≤ RX_Next + AM_Window_Size`,
every stored SDU info lies in `[RX_Next, RX_Next_Highest)`, the SDUs at
`RX_Next` and at `RX_Highest_Status` are not fully received, and a running
t-Reassembly was started at an SN just after a stored SDU. From this,
`add_sn` never evicts another SN, the window reads never miss, and the only
assertion a step can trip is the one on the segment offsets of a NACK.

A data PDU goes through four stages (`handleDataPduBody_eq`), and between
them the invariant holds in a weaker form: `StoredInv` once the PDU is
stored and `RX_Next_Highest` raised, `PendingInv` once the complete SDU is
delivered and `RX_Next` moved, before t-Reassembly is updated.
-/

namespace SrsRan.Rlc

namespace RlcRxAmEntity

variable {cfg : RlcRxAmConfig}

open CircularMap (get?)

/-- An SDU info is stored at the SN just before `sn`. -/
def HasSduBefore (e : RlcRxAmEntity cfg) (sn : Nat) : Prop :=
  ∃ k, e.hasSn k = true ∧ e.rxModBase k + 1 = e.rxModBase sn

/-- Where the state variables and the stored SNs lie, measured from `RX_Next`. -/
structure WindowShape (e : RlcRxAmEntity cfg) : Prop where
  rxNext_lt : e.st.rxNext < mod cfg
  rxNextHighest_lt : e.st.rxNextHighest < mod cfg
  rxHighestStatus_lt : e.st.rxHighestStatus < mod cfg
  rxNextStatusTrigger_lt : e.st.rxNextStatusTrigger < mod cfg
  highestStatus_le : e.rxModBase e.st.rxHighestStatus ≤ e.rxModBase e.st.rxNextHighest
  nextHighest_le : e.rxModBase e.st.rxNextHighest ≤ amWindowSize cfg
  present : ∀ k, e.hasSn k = true → k < mod cfg ∧ e.rxModBase k < e.rxModBase e.st.rxNextHighest
  /-- What `refresh_status_report` asserts of an SDU that is not complete. -/
  segments : ∀ k info, get? e.rxWindow k = some info → info.fullyReceived = false →
    ∃ segments, info.sduData = .segmentSet segments
  last : 0 < e.rxModBase e.st.rxNextHighest → e.HasSduBefore e.st.rxNextHighest

/-- The invariant of the receiver. -/
structure RxWindowInv (e : RlcRxAmEntity cfg) : Prop extends WindowShape e where
  next_missing : e.fullyReceivedAt e.st.rxNext = false
  highestStatus_missing : e.st.rxHighestStatus ≠ e.st.rxNextHighest →
    e.fullyReceivedAt e.st.rxHighestStatus = false
  trigger : e.reassemblyTimerRunning = true →
    e.HasSduBefore e.st.rxNextStatusTrigger ∧
      e.rxModBase e.st.rxNextStatusTrigger ≤ e.rxModBase e.st.rxNextHighest

/-- After storing the SDU or segment of SN `sn` and raising `RX_Next_Highest`. -/
structure StoredInv (e : RlcRxAmEntity cfg) (sn : Nat) : Prop extends WindowShape e where
  sn_lt : sn < mod cfg
  sn_present : e.hasSn sn = true
  sn_before : e.rxModBase sn < e.rxModBase e.st.rxNextHighest
  next_missing : e.st.rxNext ≠ sn → e.fullyReceivedAt e.st.rxNext = false
  highestStatus_missing : e.st.rxHighestStatus ≠ e.st.rxNextHighest →
    e.st.rxHighestStatus ≠ sn → e.fullyReceivedAt e.st.rxHighestStatus = false
  trigger : e.reassemblyTimerRunning = true →
    e.HasSduBefore e.st.rxNextStatusTrigger ∧
      e.rxModBase e.st.rxNextStatusTrigger ≤ e.rxModBase e.st.rxNextHighest

/-- After moving `RX_Next`: a running t-Reassembly either is to be stopped
or still has its trigger. -/
structure PendingInv (e : RlcRxAmEntity cfg) : Prop extends WindowShape e where
  next_missing : e.fullyReceivedAt e.st.rxNext = false
  highestStatus_missing : e.st.rxHighestStatus ≠ e.st.rxNextHighest →
    e.fullyReceivedAt e.st.rxHighestStatus = false
  trigger : e.reassemblyTimerRunning = true →
    e.st.rxNextStatusTrigger = e.st.rxNext ∨
      amWindowSize cfg ≤ e.rxModBase e.st.rxNextStatusTrigger ∨
      (e.HasSduBefore e.st.rxNextStatusTrigger ∧
        e.rxModBase e.st.rxNextStatusTrigger ≤ e.rxModBase e.st.rxNextHighest)

/-! ## The shape -/

theorem WindowShape.missing_of_not_before {e : RlcRxAmEntity cfg} (h : WindowShape e) {k : Nat}
    (hk : e.rxModBase e.st.rxNextHighest ≤ e.rxModBase k) : e.fullyReceivedAt k = false := by
  cases hf : e.fullyReceivedAt k
  · rfl
  · have := (h.present k (hasSn_of_fullyReceivedAt hf)).2
    omega

/-- No stored SN shares a slot with an SN inside the window. -/
theorem WindowShape.evicts_eq_false {e : RlcRxAmEntity cfg} (h : WindowShape e) {sn : Nat}
    (hsn : sn < mod cfg) (hin : e.rxModBase sn < amWindowSize cfg) :
    e.rxWindow.evicts sn = false := by
  cases hev : e.rxWindow.evicts sn
  · rfl
  · obtain ⟨k, hk, hslot, hpres⟩ := CircularMap.evicts_eq_true hev
    obtain ⟨hkm, hkd⟩ := h.present k hpres
    have hnh := h.nextHighest_le
    exact absurd (e.eq_of_slot_eq hkm hsn (by omega) hin hslot) hk

theorem HasSduBefore.mono {e e' : RlcRxAmEntity cfg} {sn : Nat} (h : e.HasSduBefore sn)
    (hd : e'.rxModBase = e.rxModBase) (hsn : ∀ k, e.hasSn k = true → e'.hasSn k = true) :
    e'.HasSduBefore sn := by
  obtain ⟨k, hk, hkd⟩ := h
  exact ⟨k, hsn k hk, by rw [hd]; exact hkd⟩

/-- The shape depends on the state variables, on which SNs are stored and
on the SDU infos not complete, not on the payloads. -/
theorem WindowShape.transfer {e e' : RlcRxAmEntity cfg} (h : WindowShape e) (hst : e'.st = e.st)
    (hsn : ∀ k, e'.hasSn k = e.hasSn k)
    (hseg : ∀ k info, get? e'.rxWindow k = some info → info.fullyReceived = false →
      ∃ segments, info.sduData = .segmentSet segments) :
    WindowShape e' := by
  have hd : e'.rxModBase = e.rxModBase := rxModBase_congr (by rw [hst])
  refine ⟨?_, ?_, ?_, ?_, ?_, ?_, fun k hk => ?_, hseg, fun hpos => ?_⟩
  all_goals rw [hst]
  all_goals try rw [hd]
  · exact h.rxNext_lt
  · exact h.rxNextHighest_lt
  · exact h.rxHighestStatus_lt
  · exact h.rxNextStatusTrigger_lt
  · exact h.highestStatus_le
  · exact h.nextHighest_le
  · exact h.present k (by rw [← hsn]; exact hk)
  · exact (h.last (by rwa [hd, hst] at hpos)).mono hd fun k hk => by rw [hsn]; exact hk

theorem RxWindowInv.of_eq {e e' : RlcRxAmEntity cfg} (h : RxWindowInv e) (hst : e'.st = e.st)
    (hw : e'.rxWindow = e.rxWindow) (hrun : e'.reassemblyTimerRunning = e.reassemblyTimerRunning) :
    RxWindowInv e' := by
  have hd : e'.rxModBase = e.rxModBase := rxModBase_congr (by rw [hst])
  have hsn : ∀ k, e'.hasSn k = e.hasSn k := fun k => hasSn_congr (by rw [hw])
  have hfull : ∀ k, e'.fullyReceivedAt k = e.fullyReceivedAt k :=
    fun k => fullyReceivedAt_congr (by rw [hw])
  refine ⟨h.transfer hst hsn (by rw [hw]; exact h.segments), ?_, ?_, fun hr => ?_⟩
  · rw [hfull, hst]
    exact h.next_missing
  · rw [hfull, hst]
    exact h.highestStatus_missing
  · obtain ⟨hbefore, hle⟩ := h.trigger (by rw [← hrun]; exact hr)
    rw [hst, hd]
    exact ⟨hbefore.mono hd fun k hk => by rw [hsn]; exact hk, hle⟩

theorem rxWindowInv_create (cfg : RlcRxAmConfig) : RxWindowInv (create cfg) where
  rxNext_lt := mod_pos cfg
  rxNextHighest_lt := mod_pos cfg
  rxHighestStatus_lt := mod_pos cfg
  rxNextStatusTrigger_lt := mod_pos cfg
  highestStatus_le := le_rfl
  nextHighest_le := by
    have := rxModBase_rxNext (create cfg)
    simp only [create] at this ⊢
    omega
  present := fun k hk => by simp [create, hasSn, SduWindow.hasSn, CircularMap.contains] at hk
  segments := fun k info hk => by simp [create] at hk
  last := fun hpos => by
    have := rxModBase_rxNext (create cfg)
    simp only [create] at this hpos
    omega
  next_missing := by simp [create, fullyReceivedAt]
  highestStatus_missing := fun hne => absurd rfl hne
  trigger := fun hr => by simp [create] at hr

/-! ## Storing a PDU -/

theorem storeSdu_window {e : RlcRxAmEntity cfg} (h : WindowShape e) {header : RlcAmPduHeader}
    (payload : List UInt8) (hsn : header.sn < mod cfg)
    (hin : e.rxModBase header.sn < amWindowSize cfg) :
    ∃ w info stored, e.storeSdu header payload = .ok ({ e with rxWindow := w }, stored) ∧
      get? w = Function.update (get? e.rxWindow) header.sn (some info) ∧
      (info.fullyReceived = false → ∃ segments, info.sduData = .segmentSet segments) := by
  have hev : e.hasSn header.sn = false → e.rxWindow.evicts header.sn = false :=
    fun _ => h.evicts_eq_false hsn hin
  unfold storeSdu
  split_ifs with hsi
  · obtain ⟨w, hfull, hw⟩ := handleFullDataSdu_eq payload hsi hev
    exact ⟨w, _, true, hfull, hw, fun hf => by simp at hf⟩
  · obtain ⟨w, info, stored, hseg, hw, hsegs⟩ := handleSegmentDataSdu_eq payload hsi hev
    exact ⟨w, info, stored, hseg, hw, fun _ => hsegs⟩

/-- Storing a new SDU or segment inside the window and raising
`RX_Next_Highest` past it. -/
theorem raiseNextHighest_stored {e : RlcRxAmEntity cfg} (h : RxWindowInv e) {sn : Nat}
    (hsn : sn < mod cfg) (hin : e.rxModBase sn < amWindowSize cfg)
    (hmiss : e.fullyReceivedAt sn = false) {w : RlcRxAmWindow cfg} {info : RlcRxAmSduInfo}
    (hw : get? w = Function.update (get? e.rxWindow) sn (some info))
    (hseg : info.fullyReceived = false → ∃ segments, info.sduData = .segmentSet segments) :
    StoredInv (({ e with rxWindow := w } : RlcRxAmEntity cfg).raiseNextHighest sn) sn := by
  have hW := h.nextHighest_le
  have hmod := mod_eq cfg
  obtain ⟨nh, hraise, hnh, hdnh⟩ := ({ e with rxWindow := w } : RlcRxAmEntity cfg).raiseNextHighest_eq
    h.rxNextHighest_lt (show ({ e with rxWindow := w } : RlcRxAmEntity cfg).rxModBase sn + 1 < mod cfg by
      simp only [rxModBase_with_rxWindow]; omega)
  simp only [rxModBase_with_rxWindow] at hdnh
  rw [hraise]
  set e' : RlcRxAmEntity cfg := { e with rxWindow := w, st.rxNextHighest := nh }
  have hd : e'.rxModBase = e.rxModBase := rxModBase_congr rfl
  have hst' : e'.st = { e.st with rxNextHighest := nh } := rfl
  have hsn' : ∀ k, e'.hasSn k = (decide (k = sn) || e.hasSn k) := hasSn_of_update hw
  have hfull' : ∀ k, k ≠ sn → e'.fullyReceivedAt k = e.fullyReceivedAt k := fun k hk => by
    rw [show e'.fullyReceivedAt k = _ from fullyReceivedAt_of_update hw k, if_neg hk]
  have hgrow : ∀ k, e.hasSn k = true → e'.hasSn k = true := fun k hk => by simp [hsn', hk]
  have hsnp : e'.hasSn sn = true := by simp [hsn']
  refine ⟨⟨h.rxNext_lt, hnh, h.rxHighestStatus_lt, h.rxNextStatusTrigger_lt, ?_, ?_, ?_, ?_, ?_⟩,
    hsn, hsnp, ?_, ?_, ?_, ?_⟩
  all_goals try simp only [hst', hd]
  · have := h.highestStatus_le
    omega
  · omega
  · intro k hk
    by_cases hks : k = sn
    · subst hks
      exact ⟨hsn, by omega⟩
    · have hk' : e.hasSn k = true := by simpa [hsn', hks] using hk
      have := h.present k hk'
      omega
  · intro k i hk hi
    have hwin : e'.rxWindow = w := rfl
    by_cases hks : k = sn
    · subst hks
      simp only [hwin, hw, Function.update_self, Option.some.injEq] at hk
      exact hk ▸ hseg (hk ▸ hi)
    · simp only [hwin, hw, Function.update_of_ne hks] at hk
      exact h.segments k i hk hi
  · intro hpos
    by_cases hlast : e.rxModBase sn + 1 = e.rxModBase nh
    · exact ⟨sn, hsnp, by rw [hd]; exact hlast⟩
    · obtain ⟨k, hk, hkd⟩ := h.last (by omega)
      exact ⟨k, hgrow k hk, by rw [hd]; omega⟩
  · omega
  · intro hne
    rw [hfull' _ hne]
    exact h.next_missing
  · intro hne hsne
    rw [hfull' _ hsne]
    by_cases hhs : e.st.rxHighestStatus = e.st.rxNextHighest
    · exact h.missing_of_not_before (by rw [hhs])
    · exact h.highestStatus_missing hhs
  · intro hr
    obtain ⟨hbefore, hle⟩ := h.trigger hr
    exact ⟨hbefore.mono hd hgrow, by omega⟩

/-! ## Delivering a complete SDU and moving `RX_Next` -/

theorem StoredInv.transfer {e e' : RlcRxAmEntity cfg} {sn : Nat} (h : StoredInv e sn)
    (hst : e'.st = e.st) (hrun : e'.reassemblyTimerRunning = e.reassemblyTimerRunning)
    (hsn : ∀ k, e'.hasSn k = e.hasSn k) (hfull : ∀ k, e'.fullyReceivedAt k = e.fullyReceivedAt k)
    (hseg : ∀ k info, get? e'.rxWindow k = some info → info.fullyReceived = false →
      ∃ segments, info.sduData = .segmentSet segments) :
    StoredInv e' sn := by
  have hd : e'.rxModBase = e.rxModBase := rxModBase_congr (by rw [hst])
  refine ⟨h.toWindowShape.transfer hst hsn hseg, h.sn_lt, by rw [hsn]; exact h.sn_present, ?_, ?_, ?_,
    fun hr => ?_⟩
  · rw [hd, hst]
    exact h.sn_before
  · rw [hfull, hst]
    exact h.next_missing
  · rw [hfull, hst]
    exact h.highestStatus_missing
  · obtain ⟨hbefore, hle⟩ := h.trigger (by rw [← hrun]; exact hr)
    rw [hst, hd]
    exact ⟨hbefore.mono hd fun k hk => by rw [hsn]; exact hk, hle⟩

theorem StoredInv.pending_of_missing {e : RlcRxAmEntity cfg} {sn : Nat} (h : StoredInv e sn)
    (hmiss : e.fullyReceivedAt sn = false) : PendingInv e := by
  refine ⟨h.toWindowShape, ?_, fun hne => ?_, fun hr => .inr (.inr (h.trigger hr))⟩
  · by_cases hsn : e.st.rxNext = sn
    · rw [hsn]
      exact hmiss
    · exact h.next_missing hsn
  · by_cases hsn : e.st.rxHighestStatus = sn
    · rw [hsn]
      exact hmiss
    · exact h.highestStatus_missing hne hsn

/-- Delivering the SDU keeps its flags and frees its payload. -/
theorem setSdu_delivered_stored {e : RlcRxAmEntity cfg} {sn : Nat} (h : StoredInv e sn)
    {info : RlcRxAmSduInfo} (hinfo : get? e.rxWindow sn = some info)
    (hfull : info.fullyReceived = true) :
    ∃ e₁, (e.recordDelivery info).setSdu sn { info with sduData := .slice [] } = .ok e₁ ∧
      StoredInv e₁ sn := by
  obtain ⟨delivered, hrec⟩ := recordDelivery_eq e info
  rw [hrec]
  obtain ⟨w, hset, hw⟩ := setSdu_eq (e := { e with delivered }) h.sn_present
    { info with sduData := .slice [] }
  have hsn : ∀ k, ({ e with delivered, rxWindow := w } : RlcRxAmEntity cfg).hasSn k = e.hasSn k := by
    intro k
    rw [show _ = _ from hasSn_of_update (e := { e with delivered }) hw k]
    by_cases hk : k = sn
    · simp only [hk, decide_true, Bool.true_or]
      exact h.sn_present.symm
    · simp only [hk, decide_false, Bool.false_or]
      rfl
  have hfull' : ∀ k, ({ e with delivered, rxWindow := w } : RlcRxAmEntity cfg).fullyReceivedAt k =
      e.fullyReceivedAt k := by
    intro k
    rw [show _ = _ from fullyReceivedAt_of_update (e := { e with delivered }) hw k]
    by_cases hk : k = sn
    · rw [if_pos hk, hk]
      simp [fullyReceivedAt, hinfo, hfull]
    · rw [if_neg hk]
      rfl
  refine ⟨_, hset, h.transfer rfl rfl hsn hfull' fun k i hk hi => ?_⟩
  by_cases hks : k = sn
  · simp only [hw, hks, Function.update_self, Option.some.injEq] at hk
    rw [← hk] at hi
    simp [hfull] at hi
  · simp only [hw, Function.update_of_ne hks] at hk
    exact h.segments k i hk hi

/-- `RX_Highest_Status` after a complete SDU: moved to the first SN not
fully received after it when the SDU was the one it stood at. -/
theorem moveRxHighestStatus_eq {e : RlcRxAmEntity cfg} {sn : Nat} (h : StoredInv e sn) :
    ∃ hs, e.moveRxHighestStatus sn = { e with st.rxHighestStatus := hs } ∧ hs < mod cfg ∧
      e.rxModBase hs ≤ e.rxModBase e.st.rxNextHighest ∧
      (hs ≠ e.st.rxNextHighest → e.fullyReceivedAt hs = false) := by
  have hbefore := h.sn_before
  have hlt := e.rxModBase_lt e.st.rxNextHighest
  unfold moveRxHighestStatus
  split_ifs with heq
  · have hsucc := e.rxModBase_succ (x := e.st.rxHighestStatus) (by omega)
    have hr : e.ScanResult ((e.st.rxHighestStatus + 1) % mod cfg) e.st.rxNextHighest
        (e.scanFullyReceived (mod cfg) ((e.st.rxHighestStatus + 1) % mod cfg) e.st.rxNextHighest) :=
      e.scanFullyReceived_spec (Nat.mod_lt _ (mod_pos cfg)) (by omega) (by omega)
    refine ⟨_, rfl, hr.lt_mod, hr.le_stop, fun hne => hr.stop_or_missing.resolve_left ?_⟩
    exact fun hd => hne (e.eq_of_rxModBase_eq hr.lt_mod h.rxNextHighest_lt hd)
  · refine ⟨e.st.rxHighestStatus, rfl, h.rxHighestStatus_lt, h.highestStatus_le, fun hne => ?_⟩
    exact h.highestStatus_missing hne fun hs => heq (by rw [hs])

theorem WindowShape.with_rxHighestStatus {e : RlcRxAmEntity cfg} (h : WindowShape e) {hs : Nat}
    (hlt : hs < mod cfg) (hle : e.rxModBase hs ≤ e.rxModBase e.st.rxNextHighest) :
    WindowShape { e with st.rxHighestStatus := hs } :=
  ⟨h.rxNext_lt, h.rxNextHighest_lt, hlt, h.rxNextStatusTrigger_lt, hle, h.nextHighest_le,
    h.present, h.segments, h.last⟩

/-- Moving `RX_Next` to the first SN not fully received, removing the SDUs
it steps over. -/
theorem advance_pending {e : RlcRxAmEntity cfg} (h : WindowShape e)
    (hhs : e.st.rxHighestStatus ≠ e.st.rxNextHighest → e.fullyReceivedAt e.st.rxHighestStatus = false)
    (htrig : e.reassemblyTimerRunning = true →
      e.HasSduBefore e.st.rxNextStatusTrigger ∧
        e.rxModBase e.st.rxNextStatusTrigger ≤ e.rxModBase e.st.rxNextHighest)
    {r : Nat} (hr : e.ScanResult e.st.rxNext e.st.rxNextHighest r) {w : RlcRxAmWindow cfg}
    (hw : ∀ k, get? w k = if k < mod cfg ∧ e.rxModBase k < e.rxModBase r then none
      else get? e.rxWindow k) :
    PendingInv { e with rxWindow := w, st := { e.st with rxNext := r } } := by
  set e' : RlcRxAmEntity cfg := { e with rxWindow := w, st := { e.st with rxNext := r } }
  have hW := h.nextHighest_le
  have hrle := hr.le_stop
  -- `RX_Highest_Status` is not among the SNs stepped over
  have hrhs : e.rxModBase r ≤ e.rxModBase e.st.rxHighestStatus := by
    by_contra hlt
    have hpassed := hr.passed _ h.rxHighestStatus_lt (by simp) (by omega)
    have hne : e.st.rxHighestStatus ≠ e.st.rxNextHighest := by
      rintro heq
      rw [heq] at hlt
      omega
    rw [hhs hne] at hpassed
    cases hpassed
  have hd : ∀ x, e.rxModBase r ≤ e.rxModBase x → e'.rxModBase x = e.rxModBase x - e.rxModBase r :=
    fun x hx => rxModBase_rebase (f := e') hx
  have hkept : ∀ k, ¬(k < mod cfg ∧ e.rxModBase k < e.rxModBase r) → get? e'.rxWindow k = get? e.rxWindow k :=
    fun k hk => by rw [show get? e'.rxWindow k = _ from hw k, if_neg hk]
  have hsn' : ∀ k, e'.hasSn k = true → e.hasSn k = true ∧ ¬(k < mod cfg ∧ e.rxModBase k < e.rxModBase r) := by
    intro k hk
    by_cases hrem : k < mod cfg ∧ e.rxModBase k < e.rxModBase r
    · obtain ⟨i, hi⟩ := hasSn_eq_true.mp hk
      rw [show get? e'.rxWindow k = _ from hw k, if_pos hrem] at hi
      cases hi
    · exact ⟨by rw [← hasSn_congr (hkept k hrem)]; exact hk, hrem⟩
  have hnh := hd _ hrle
  refine ⟨⟨hr.lt_mod, h.rxNextHighest_lt, h.rxHighestStatus_lt, h.rxNextStatusTrigger_lt, ?_, ?_,
    fun k hk => ?_, fun k i hk hi => ?_, fun hpos => ?_⟩, ?_, fun hne => ?_, fun hrun => ?_⟩
  · show e'.rxModBase e.st.rxHighestStatus ≤ e'.rxModBase e.st.rxNextHighest
    have := h.highestStatus_le
    rw [hd _ hrhs, hnh]
    omega
  · show e'.rxModBase e.st.rxNextHighest ≤ _
    omega
  · obtain ⟨hk', hkeep⟩ := hsn' k hk
    obtain ⟨hkm, hkd⟩ := h.present k hk'
    show k < mod cfg ∧ e'.rxModBase k < e'.rxModBase e.st.rxNextHighest
    rw [hd k (by omega), hnh]
    exact ⟨hkm, by omega⟩
  · by_cases hrem : k < mod cfg ∧ e.rxModBase k < e.rxModBase r
    · rw [show get? e'.rxWindow k = _ from hw k, if_pos hrem] at hk
      cases hk
    · exact h.segments k i (by rw [← hkept k hrem]; exact hk) hi
  · change 0 < e'.rxModBase e.st.rxNextHighest at hpos
    obtain ⟨k, hk, hkd⟩ := h.last (by omega)
    have hkeep : ¬(k < mod cfg ∧ e.rxModBase k < e.rxModBase r) := by omega
    refine ⟨k, by rw [hasSn_congr (hkept k hkeep)]; exact hk, ?_⟩
    show e'.rxModBase k + 1 = e'.rxModBase e.st.rxNextHighest
    rw [hd k (by omega), hnh]
    omega
  · show e'.fullyReceivedAt r = false
    rw [fullyReceivedAt_congr (hkept r (by omega))]
    rcases hr.stop_or_missing with hstop | hmiss
    · exact h.missing_of_not_before (by omega)
    · exact hmiss
  · show e'.fullyReceivedAt e.st.rxHighestStatus = false
    rw [fullyReceivedAt_congr (hkept _ (by omega))]
    exact hhs hne
  · obtain ⟨⟨k, hk, hkd⟩, hle⟩ := htrig hrun
    show e.st.rxNextStatusTrigger = r ∨ amWindowSize cfg ≤ e'.rxModBase e.st.rxNextStatusTrigger ∨
      (e'.HasSduBefore e.st.rxNextStatusTrigger ∧
        e'.rxModBase e.st.rxNextStatusTrigger ≤ e'.rxModBase e.st.rxNextHighest)
    rcases Nat.lt_trichotomy (e.rxModBase e.st.rxNextStatusTrigger) (e.rxModBase r) with hlt | heq | hgt
    · exact .inr (.inl (rxModBase_rebase_of_lt (f := e') hlt (by show e.rxModBase r ≤ _; omega)))
    · exact .inl (e.eq_of_rxModBase_eq h.rxNextStatusTrigger_lt hr.lt_mod heq)
    · have hkeep : ¬(k < mod cfg ∧ e.rxModBase k < e.rxModBase r) := by omega
      refine .inr (.inr ⟨⟨k, by rw [hasSn_congr (hkept k hkeep)]; exact hk, ?_⟩, ?_⟩)
      · rw [hd k (by omega), hd _ (by omega)]
        omega
      · rw [hd _ (by omega), hnh]
        omega

theorem deliverIfComplete_pending {e : RlcRxAmEntity cfg} {sn : Nat} (h : StoredInv e sn) :
    ∃ e', e.deliverIfComplete sn = .ok e' ∧ PendingInv e' := by
  unfold deliverIfComplete
  split_ifs with hfull
  · obtain ⟨info, hinfo, hinfo_full⟩ := fullyReceivedAt_eq_true.mp hfull
    obtain ⟨e₁, hset, h₁⟩ := setSdu_delivered_stored h hinfo hinfo_full
    obtain ⟨hs, hmove, hlt, hle, hmiss⟩ := moveRxHighestStatus_eq h₁
    rw [deliverSdu_eq, sduAt_eq hinfo, Fallible.ok_bind, hset, Fallible.ok_bind, hmove]
    have h₂ : WindowShape { e₁ with st.rxHighestStatus := hs } :=
      h₁.toWindowShape.with_rxHighestStatus hlt hle
    by_cases hsn0 : ({ e₁ with st.rxHighestStatus := hs } : RlcRxAmEntity cfg).rxModBase sn = 0
    · obtain ⟨w, hmv, hw⟩ := moveRxNext_of_eq h₂.rxNext_lt hsn0
      rw [hmv]
      refine ⟨_, rfl, advance_pending h₂ hmiss h₁.trigger ?_ hw⟩
      exact scanFullyReceived_spec _ h₂.rxNext_lt (by simp)
        (Nat.le_trans (Nat.sub_le _ _) (rxModBase_lt _ _).le)
    · rw [moveRxNext_of_ne hsn0]
      refine ⟨_, rfl, h₂, ?_, hmiss, fun hr => .inr (.inr (h₁.trigger hr))⟩
      show e₁.fullyReceivedAt e₁.st.rxNext = false
      refine h₁.next_missing fun hsn => hsn0 ?_
      rw [← hsn]
      exact rxModBase_rxNext _
  · exact ⟨e, rfl, h.pending_of_missing (by simpa using hfull)⟩

/-! ## t-Reassembly -/

/-- A stopped timer started at `RX_Next_Highest` has its trigger. -/
theorem WindowShape.restart_inv {e : RlcRxAmEntity cfg} (h : WindowShape e)
    (hnext : e.fullyReceivedAt e.st.rxNext = false)
    (hhs : e.st.rxHighestStatus ≠ e.st.rxNextHighest → e.fullyReceivedAt e.st.rxHighestStatus = false)
    (hpos : 0 < e.rxModBase e.st.rxNextHighest) :
    RxWindowInv { e with
      reassemblyTimerRunning := true
      st.rxNextStatusTrigger := e.st.rxNextHighest } :=
  ⟨⟨h.rxNext_lt, h.rxNextHighest_lt, h.rxHighestStatus_lt, h.rxNextHighest_lt, h.highestStatus_le,
    h.nextHighest_le, h.present, h.segments, h.last⟩, hnext, hhs, fun _ => ⟨h.last hpos, le_rfl⟩⟩

theorem RxWindowInv.stopTimer {e : RlcRxAmEntity cfg} (h : RxWindowInv e) :
    RxWindowInv { e with reassemblyTimerRunning := false } :=
  ⟨h.toWindowShape.transfer rfl (fun _ => rfl) h.segments, h.next_missing, h.highestStatus_missing,
    fun hr => by cases hr⟩

theorem rxModBase_rxNext_add_one (e : RlcRxAmEntity cfg) : e.rxModBase (e.st.rxNext + 1) = 1 := by
  have := one_lt_amWindowSize cfg
  rw [e.rxModBase_add_one (by rw [rxModBase_rxNext, mod_eq]; omega), rxModBase_rxNext]

/-- The SDU at `RX_Next` is read only when it is stored, and the timer
keeps running only with its trigger. -/
theorem stopReassemblyTimer_ok {e : RlcRxAmEntity cfg} (h : PendingInv e) :
    ∃ e₁, e.stopReassemblyTimer = .ok e₁ ∧ e₁.st = e.st ∧ e₁.rxWindow = e.rxWindow ∧
      (e₁.reassemblyTimerRunning = true → e.HasSduBefore e.st.rxNextStatusTrigger ∧
        e.rxModBase e.st.rxNextStatusTrigger ≤ e.rxModBase e.st.rxNextHighest) := by
  cases hrun : e.reassemblyTimerRunning
  · exact ⟨e, stopReassemblyTimer_of_stopped hrun, rfl, rfl, fun hr => by rw [hrun] at hr; cases hr⟩
  have hW := one_lt_amWindowSize cfg
  -- the SDU at `RX_Next` is read only when the trigger is the next SN, and then it is stored
  have hnext : ∃ c, (if e.rxModBase e.st.rxNextStatusTrigger = e.rxModBase (e.st.rxNext + 1) then
      (e.sduAt e.st.rxNext).map fun info => !info.hasGap else .ok false) = .ok c := by
    by_cases hone : e.rxModBase e.st.rxNextStatusTrigger = e.rxModBase (e.st.rxNext + 1)
    · rw [if_pos hone]
      rw [rxModBase_rxNext_add_one] at hone
      rcases h.trigger hrun with htr | hout | ⟨⟨k, hk, hkd⟩, -⟩
      · rw [htr, rxModBase_rxNext] at hone
        cases hone
      · omega
      · have hkn : k = e.st.rxNext :=
          e.eq_of_rxModBase_eq (h.present k hk).1 h.rxNext_lt (by rw [rxModBase_rxNext]; omega)
        obtain ⟨info, hinfo⟩ := hasSn_eq_true.mp (hkn ▸ hk)
        exact ⟨!info.hasGap, by rw [sduAt_eq hinfo]; rfl⟩
    · exact ⟨false, by rw [if_neg hone]⟩
  obtain ⟨c, hc⟩ := hnext
  rw [stopReassemblyTimer_of_running hrun hc]
  refine ⟨_, rfl, ?_⟩
  split_ifs with hstop
  · exact ⟨rfl, rfl, fun hr => by cases hr⟩
  · refine ⟨rfl, rfl, fun _ => ?_⟩
    rcases h.trigger hrun with htr | hout | htrig
    · simp [htr] at hstop
    · simp only [insideRxWindow, Bool.or_eq_true, decide_eq_true_eq, Bool.not_eq_true',
        decide_eq_false_iff_not, not_or] at hstop
      omega
    · exact htrig

theorem startReassemblyTimer_inv {e : RlcRxAmEntity cfg} (h : WindowShape e)
    (hnext : e.fullyReceivedAt e.st.rxNext = false)
    (hhs : e.st.rxHighestStatus ≠ e.st.rxNextHighest → e.fullyReceivedAt e.st.rxHighestStatus = false)
    (htrig : e.reassemblyTimerRunning = true →
      e.HasSduBefore e.st.rxNextStatusTrigger ∧
        e.rxModBase e.st.rxNextStatusTrigger ≤ e.rxModBase e.st.rxNextHighest) :
    RxWindowInv e.startReassemblyTimer := by
  simp only [startReassemblyTimer]
  split_ifs with hrun hrestart
  · refine h.restart_inv hnext hhs ?_
    have hone := rxModBase_rxNext_add_one e
    simp only [Bool.or_eq_true, decide_eq_true_eq, Bool.and_eq_true] at hrestart
    omega
  · exact ⟨h, hnext, hhs, htrig⟩
  · exact ⟨h, hnext, hhs, htrig⟩

theorem updateReassemblyTimer_inv {e : RlcRxAmEntity cfg} (h : PendingInv e) :
    ∃ e', e.updateReassemblyTimer = .ok e' ∧ RxWindowInv e' := by
  obtain ⟨e₁, hstop, hst, hw, htrig⟩ := stopReassemblyTimer_ok h
  rw [updateReassemblyTimer_eq, hstop, Fallible.map_ok]
  have hd : e₁.rxModBase = e.rxModBase := rxModBase_congr (by rw [hst])
  have hsn : ∀ k, e₁.hasSn k = e.hasSn k := fun k => hasSn_congr (by rw [hw])
  have hfull : ∀ k, e₁.fullyReceivedAt k = e.fullyReceivedAt k :=
    fun k => fullyReceivedAt_congr (by rw [hw])
  refine ⟨_, rfl, startReassemblyTimer_inv (h.toWindowShape.transfer hst hsn (by rw [hw]; exact h.segments))
    ?_ ?_ fun hr => ?_⟩
  · rw [hfull, hst]
    exact h.next_missing
  · rw [hfull, hst]
    exact h.highestStatus_missing
  · obtain ⟨hbefore, hle⟩ := htrig hr
    rw [hst, hd]
    exact ⟨hbefore.mono hd fun k hk => by rw [hsn]; exact hk, hle⟩

/-! ## One step -/

/-- `handle_data_pdu` never fails and keeps the invariant. -/
theorem handleDataPduBody_inv {e : RlcRxAmEntity cfg} (h : RxWindowInv e) (buf : List UInt8) :
    ∃ e' statusChanged statusRequested,
      e.handleDataPduBody buf = .ok (e', statusChanged, statusRequested) ∧ RxWindowInv e' := by
  rw [handleDataPduBody_eq]
  cases hh : rlcAmReadDataPduHeader buf cfg.snFieldLength with
  | none => exact ⟨e, _, _, rfl, h⟩
  | some header =>
    simp only
    split_ifs with hlen hout hdup
    · exact ⟨e, _, _, rfl, h⟩
    · exact ⟨e, _, _, rfl, h⟩
    · exact ⟨e, _, _, rfl, h⟩
    · have hsn : header.sn < mod cfg := rlcAmReadDataPduHeader_sn_lt hh
      have hin : e.rxModBase header.sn < amWindowSize cfg := by simpa [insideRxWindow] using hout
      obtain ⟨w, info, stored, hstore, hw, hseg⟩ :=
        storeSdu_window h.toWindowShape (buf.drop header.getPackedSize) hsn hin
      obtain ⟨e₃, hdel, hpend⟩ :=
        deliverIfComplete_pending (raiseNextHighest_stored h hsn hin (by simpa using hdup) hw hseg)
      obtain ⟨e₄, htimer, hinv⟩ := updateReassemblyTimer_inv hpend
      rw [hstore, Fallible.ok_bind]
      simp only [hdel, htimer, Fallible.ok_bind]
      exact ⟨e₄, _, _, rfl, hinv⟩

theorem handleDataPdu_post {e : RlcRxAmEntity cfg} (h : RxWindowInv e) (buf : List UInt8) :
    Fallible.Post RxWindowInv SegmentOffsetsAssertion (e.handleDataPdu buf) := by
  obtain ⟨e', changed, requested, hbody, h'⟩ := handleDataPduBody_inv h buf
  -- the scope exit sets `do_status` after the optional status refresh
  have hexit : ∀ e'', RxWindowInv e'' → Fallible.Post RxWindowInv SegmentOffsetsAssertion
      (pure (if requested = true then { e'' with doStatus := true } else e'') :
        Except RlcRxAmAssertion (RlcRxAmEntity cfg)) := by
    intro e'' h''
    split
    · exact h''.of_eq rfl rfl rfl
    · exact h''
  rw [handleDataPdu, hbody, Fallible.ok_bind]
  simp only
  split
  · refine Fallible.Post.bind (refreshStatusReport_post h'.segments) fun e₂ he₂ => hexit e₂ ?_
    obtain ⟨statusCached, rfl⟩ := he₂
    exact h'.of_eq rfl rfl rfl
  · exact hexit e' h'

/-! ## The expiry of t-Reassembly -/

theorem restartAfterExpiry_inv {e : RlcRxAmEntity cfg} (h : WindowShape e)
    (hnext : e.fullyReceivedAt e.st.rxNext = false)
    (hhs : e.st.rxHighestStatus ≠ e.st.rxNextHighest → e.fullyReceivedAt e.st.rxHighestStatus = false)
    (hrun : e.reassemblyTimerRunning = false) : RxWindowInv (restartAfterExpiry e) := by
  simp only [restartAfterExpiry]
  split_ifs with hrestart
  · refine h.restart_inv hnext hhs ?_
    have hle := h.highestStatus_le
    have hW := h.nextHighest_le
    have hW1 := one_lt_amWindowSize cfg
    have hsucc := e.rxModBase_add_one (x := e.st.rxHighestStatus) (by rw [mod_eq]; omega)
    simp only [Bool.or_eq_true, decide_eq_true_eq, Bool.and_eq_true] at hrestart
    omega
  · exact ⟨h, hnext, hhs, fun hr => by rw [hrun] at hr; cases hr⟩

/-- The expiry handler of a running t-Reassembly passes its assertion, keeps
the invariant, and fails only in the status report. -/
theorem onExpiredReassemblyTimer_post {e : RlcRxAmEntity cfg} (h : RxWindowInv e)
    (hrun : e.reassemblyTimerRunning = true) :
    Fallible.Post RxWindowInv SegmentOffsetsAssertion
      ({ e with reassemblyTimerRunning := false } : RlcRxAmEntity cfg).onExpiredReassemblyTimer := by
  obtain ⟨⟨k, hk, hkd⟩, hle⟩ := h.trigger hrun
  have hW := h.nextHighest_le
  set e₀ : RlcRxAmEntity cfg := { e with reassemblyTimerRunning := false }
  have h₀ : RxWindowInv e₀ := h.stopTimer
  have hd₀ : e₀.rxModBase = e.rxModBase := rfl
  have hst₀ : e₀.st = e.st := rfl
  set r := e₀.scanFullyReceived (mod cfg) e.st.rxNextStatusTrigger e.st.rxNextHighest
  have hr : e₀.ScanResult e.st.rxNextStatusTrigger e.st.rxNextHighest r :=
    e₀.scanFullyReceived_spec h.rxNextStatusTrigger_lt (by rw [hd₀]; exact hle)
      (Nat.le_trans (Nat.sub_le _ _) (rxModBase_lt _ _).le)
  have hstart := hr.start_le
  have hstop := hr.le_stop
  rw [hd₀] at hstart hstop
  have hvalid : e₀.validAckSn e₀.st.rxNextStatusTrigger = true := by
    simp only [validAckSn, hd₀, hst₀, Bool.and_eq_true, decide_eq_true_eq]
    omega
  have hvalid' : e₀.validAckSn r = true := by
    simp only [validAckSn, hd₀, Bool.and_eq_true, decide_eq_true_eq]
    omega
  rw [onExpiredReassemblyTimer_eq rfl hvalid hvalid']
  have hmiss : r ≠ e.st.rxNextHighest → e₀.fullyReceivedAt r = false := fun hne =>
    hr.stop_or_missing.resolve_left fun hd => hne (e₀.eq_of_rxModBase_eq hr.lt_mod h.rxNextHighest_lt hd)
  have h₁ := restartAfterExpiry_inv (h₀.toWindowShape.with_rxHighestStatus hr.lt_mod
    (by rw [hd₀]; exact hstop)) h₀.next_missing hmiss rfl
  refine Fallible.Post.map ((refreshStatusReport_post h₁.segments).mono (fun e₂ he₂ => ?_) fun _ ha => ha)
  obtain ⟨statusCached, rfl⟩ := he₂
  exact h₁.of_eq rfl rfl rfl

/-- Every step from a state with the invariant keeps it, and fails only on
the segment offsets of a NACK. -/
theorem step_post {e : RlcRxAmEntity cfg} (h : RxWindowInv e) (ev : RlcRxAmEvent) :
    Fallible.Post RxWindowInv SegmentOffsetsAssertion (e.step ev) := by
  cases ev with
  | pdu buf =>
    rw [step, handlePdu]
    split_ifs
    · exact h
    · obtain ⟨statusToTx, hc⟩ := handleControlPdu_eq e buf
      rw [hc]
      exact h.of_eq rfl rfl rfl
    · exact handleDataPdu_post h buf
  | reassemblyTimerExpiry =>
    rw [step]
    split_ifs with hrun
    · exact onExpiredReassemblyTimer_post h hrun
    · exact h.stopTimer
    · exact h

theorem Reachable.rxWindowInv {e : RlcRxAmEntity cfg} (hr : Reachable cfg e) : RxWindowInv e := by
  refine Transition.Reachable.invariant (rxWindowInv_create cfg) (fun e ev e' h hstep => ?_) hr
  have := step_post h ev
  rw [hstep] at this
  exact this

/-! ## What every run guarantees -/

/-- What the receive window guarantees in every reachable state, measured
from `RX_Next`. -/
structure WindowGuarantees (e : RlcRxAmEntity cfg) : Prop where
  /-- `RX_Next ≤ RX_Highest_Status ≤ RX_Next_Highest`. -/
  highestStatus_le : e.rxModBase e.st.rxHighestStatus ≤ e.rxModBase e.st.rxNextHighest
  /-- `RX_Next_Highest ≤ RX_Next + AM_Window_Size`. -/
  nextHighest_le : e.rxModBase e.st.rxNextHighest ≤ amWindowSize cfg
  /-- Every stored SN lies in `[RX_Next, RX_Next_Highest)`. -/
  present : ∀ sn, e.hasSn sn = true → e.rxModBase sn < e.rxModBase e.st.rxNextHighest
  next_missing : e.fullyReceivedAt e.st.rxNext = false
  /-- `RX_Highest_Status` stands at an SDU not fully received, or at `RX_Next_Highest`. -/
  highestStatus_missing : e.st.rxHighestStatus ≠ e.st.rxNextHighest →
    e.fullyReceivedAt e.st.rxHighestStatus = false
  /-- `add_sn` of an SN inside the window never overwrites another SN's slot. -/
  no_eviction : ∀ sn, sn < mod cfg → e.insideRxWindow sn = true → e.rxWindow.evicts sn = false
  /-- The assertion of `on_expired_reassembly_timer` never fires. -/
  expiry_assert : ∀ ev sn, e.step ev ≠ .error (.rxHighestStatusOutsideWindow sn)

theorem rxWindow_invariant {e : RlcRxAmEntity cfg} (hr : Reachable cfg e) : WindowGuarantees e := by
  have h := hr.rxWindowInv
  refine ⟨h.highestStatus_le, h.nextHighest_le, fun sn hsn => (h.present sn hsn).2,
    h.next_missing, h.highestStatus_missing, fun sn hsn hin => ?_, fun ev sn hstep => ?_⟩
  · exact h.evicts_eq_false hsn (by simpa [insideRxWindow] using hin)
  · have hpost := step_post h ev
    rw [hstep] at hpost
    obtain ⟨sn', hsn'⟩ := hpost
    cases hsn'

/-- A 12-bit receiver with t-Reassembly of 35 ms and the default status size. -/
def rxAmConfig12 : RlcRxAmConfig where
  snFieldLength := .size12bits
  tReassembly := 35
  maxSnPerStatus := none
  maxSnPerStatus_valid := fun _ h => by cases h

/-- SNs 1 and 3, the expiry of t-Reassembly, SN 0 in two segments, then
SN 2: every SDU is delivered, and the guarantees hold where the run ends. -/
theorem rxWindow_invariant_after_run :
    ∃ e, Transition.run step (create rxAmConfig12)
        [.pdu [0x80, 0x01, 0xAA], .pdu [0x80, 0x03, 0xBB], .reassemblyTimerExpiry, .pdu [0x90, 0x00, 0xCC],
          .pdu [0xA0, 0x00, 0x00, 0x01, 0xDD], .pdu [0x80, 0x02, 0xEE]] = .ok e ∧
      e.st.rxNext = 4 ∧ WindowGuarantees e := by
  obtain ⟨e, hrun, hnext⟩ := Fallible.exists_ok_of_toOption_map
    (show (Transition.run step (create rxAmConfig12)
        [.pdu [0x80, 0x01, 0xAA], .pdu [0x80, 0x03, 0xBB], .reassemblyTimerExpiry, .pdu [0x90, 0x00, 0xCC],
          .pdu [0xA0, 0x00, 0x00, 0x01, 0xDD], .pdu [0x80, 0x02, 0xEE]]).toOption.map
          (fun e : RlcRxAmEntity rxAmConfig12 => e.st.rxNext) = some 4 by decide +kernel)
  exact ⟨e, hrun, hnext, rxWindow_invariant (Transition.Reachable.init.run hrun)⟩

/-- SN 1 alone, then the expiry of t-Reassembly: `RX_Highest_Status` moves to
2 while SN 0, which is `RX_Next`, was never received. -/
theorem rxHighestStatus_passes_missing_sn :
    ∃ e, Transition.run step (create rxAmConfig12)
        [.pdu [0x80, 0x01, 0xAA], .reassemblyTimerExpiry] = .ok e ∧
      e.st.rxNext = 0 ∧ e.st.rxHighestStatus = 2 ∧ e.hasSn 0 = false :=
  ⟨_, rfl, rfl, rfl, rfl⟩

end RlcRxAmEntity

end SrsRan.Rlc
