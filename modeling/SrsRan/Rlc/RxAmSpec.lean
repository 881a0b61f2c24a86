import SrsRan.Rlc.RxAm
import SrsRan.Lib.Fallible

/-!
What each function of the AM receiver does to the entity: the SN
arithmetic of `rx_mod_base`, how the window reads and writes change the
SDU infos, the two scanning loops, and the frame of the status report.
The invariant of the receive window is proved from these lemmas alone.
-/

namespace SrsRan.Rlc

namespace RlcRxAmEntity

variable {cfg : RlcRxAmConfig}

open CircularMap (get?)

/-! ## The SN space -/

theorem mod_eq (cfg : RlcRxAmConfig) : mod cfg = 2 * amWindowSize cfg :=
  cardinality_am cfg.snFieldLength

theorem one_lt_amWindowSize (cfg : RlcRxAmConfig) : 1 < amWindowSize cfg := by
  unfold amWindowSize
  cases cfg.snFieldLength <;> decide

theorem mod_pos (cfg : RlcRxAmConfig) : 0 < mod cfg := by
  have := one_lt_amWindowSize cfg
  rw [mod_eq]
  omega

theorem rxModBase_lt (e : RlcRxAmEntity cfg) (x : Nat) : e.rxModBase x < mod cfg :=
  ModWindow.modBase_lt (mod_pos cfg) _ _

@[simp] theorem rxModBase_rxNext (e : RlcRxAmEntity cfg) : e.rxModBase e.st.rxNext = 0 :=
  ModWindow.modBase_self (mod_pos cfg) _

theorem rxModBase_add_one (e : RlcRxAmEntity cfg) {x : Nat} (h : e.rxModBase x + 1 < mod cfg) :
    e.rxModBase (x + 1) = e.rxModBase x + 1 := by
  unfold rxModBase at h ⊢
  rw [ModWindow.modBase_add (mod_pos cfg), Nat.mod_eq_of_lt h]

/-- The next SN is one further from `RX_Next`, short of a full turn. -/
theorem rxModBase_succ (e : RlcRxAmEntity cfg) {x : Nat} (h : e.rxModBase x + 1 < mod cfg) :
    e.rxModBase ((x + 1) % mod cfg) = e.rxModBase x + 1 := by
  rw [← rxModBase_add_one e h]
  exact ModWindow.modBase_mod (mod_pos cfg) _ _

theorem eq_of_rxModBase_eq (e : RlcRxAmEntity cfg) {x y : Nat} (hx : x < mod cfg)
    (hy : y < mod cfg) (h : e.rxModBase x = e.rxModBase y) : x = y :=
  ModWindow.eq_of_modBase_eq (mod_pos cfg) hx hy h

/-- Moving `RX_Next` forward to `f.st.rxNext` subtracts its distance from
the SNs at least as far ahead. -/
theorem rxModBase_rebase {e f : RlcRxAmEntity cfg} {x : Nat}
    (h : e.rxModBase f.st.rxNext ≤ e.rxModBase x) :
    f.rxModBase x = e.rxModBase x - e.rxModBase f.st.rxNext :=
  ModWindow.modBase_rebase (mod_pos cfg) h

/-- The SNs that `RX_Next` moved past lie at least half the SN space
ahead of it once it moved less than a window. -/
theorem rxModBase_rebase_of_lt {e f : RlcRxAmEntity cfg} {x : Nat}
    (h : e.rxModBase x < e.rxModBase f.st.rxNext)
    (hw : e.rxModBase f.st.rxNext ≤ amWindowSize cfg) :
    amWindowSize cfg ≤ f.rxModBase x := by
  have hd : f.rxModBase x = mod cfg - (e.rxModBase f.st.rxNext - e.rxModBase x) :=
    ModWindow.modBase_rebase_of_lt (mod_pos cfg) h
  rw [hd, mod_eq]
  omega

/-- Two SNs less than a window ahead of `RX_Next` never share a slot. -/
theorem eq_of_slot_eq (e : RlcRxAmEntity cfg) {x y : Nat} (hx : x < mod cfg) (hy : y < mod cfg)
    (hdx : e.rxModBase x < amWindowSize cfg) (hdy : e.rxModBase y < amWindowSize cfg)
    (h : x % amWindowSize cfg = y % amWindowSize cfg) : x = y := by
  have hdvd : amWindowSize cfg ∣ mod cfg := ⟨2, by rw [mod_eq, Nat.mul_comm]⟩
  have hm := ModWindow.mod_eq_of_modBase_lt (mod_pos cfg) hdvd hdx hdy h
  rwa [Nat.mod_eq_of_lt hx, Nat.mod_eq_of_lt hy] at hm

@[simp] theorem rxModBase_with_rxWindow (e : RlcRxAmEntity cfg) (w : RlcRxAmWindow cfg) :
    ({ e with rxWindow := w } : RlcRxAmEntity cfg).rxModBase = e.rxModBase := rfl

theorem rxModBase_congr {e e' : RlcRxAmEntity cfg} (h : e'.st.rxNext = e.st.rxNext) :
    e'.rxModBase = e.rxModBase := by
  funext x
  simp only [rxModBase, h]

/-! ## Reading and writing the window -/

theorem hasSn_eq_true {e : RlcRxAmEntity cfg} {sn : Nat} :
    e.hasSn sn = true ↔ ∃ info, get? e.rxWindow sn = some info := by
  simp [hasSn, SduWindow.hasSn, CircularMap.contains, Option.isSome_iff_exists]

theorem fullyReceivedAt_eq_true {e : RlcRxAmEntity cfg} {sn : Nat} :
    e.fullyReceivedAt sn = true ↔
      ∃ info, get? e.rxWindow sn = some info ∧ info.fullyReceived = true := by
  unfold fullyReceivedAt
  cases get? e.rxWindow sn <;> simp

theorem hasSn_of_fullyReceivedAt {e : RlcRxAmEntity cfg} {sn : Nat}
    (h : e.fullyReceivedAt sn = true) : e.hasSn sn = true := by
  obtain ⟨info, hinfo, -⟩ := fullyReceivedAt_eq_true.mp h
  exact hasSn_eq_true.mpr ⟨info, hinfo⟩

/-- The flags read at an SN depend only on the SDU info stored there. -/
theorem fullyReceivedAt_congr {e e' : RlcRxAmEntity cfg} {sn : Nat}
    (h : get? e'.rxWindow sn = get? e.rxWindow sn) :
    e'.fullyReceivedAt sn = e.fullyReceivedAt sn := by
  simp only [fullyReceivedAt, h]

theorem hasSn_congr {e e' : RlcRxAmEntity cfg} {sn : Nat}
    (h : get? e'.rxWindow sn = get? e.rxWindow sn) : e'.hasSn sn = e.hasSn sn := by
  simp only [hasSn, SduWindow.hasSn, CircularMap.contains, h]

theorem hasSn_of_update {e : RlcRxAmEntity cfg} {w : RlcRxAmWindow cfg} {sn : Nat}
    {info : RlcRxAmSduInfo} (hw : get? w = Function.update (get? e.rxWindow) sn (some info))
    (k : Nat) : ({ e with rxWindow := w } : RlcRxAmEntity cfg).hasSn k = (decide (k = sn) || e.hasSn k) := by
  by_cases hk : k = sn
  · simp [hasSn, SduWindow.hasSn, CircularMap.contains, hw, hk]
  · simp [hasSn, SduWindow.hasSn, CircularMap.contains, hw, hk]

theorem fullyReceivedAt_of_update {e : RlcRxAmEntity cfg} {w : RlcRxAmWindow cfg} {sn : Nat}
    {info : RlcRxAmSduInfo} (hw : get? w = Function.update (get? e.rxWindow) sn (some info))
    (k : Nat) : ({ e with rxWindow := w } : RlcRxAmEntity cfg).fullyReceivedAt k =
      if k = sn then info.fullyReceived else e.fullyReceivedAt k := by
  by_cases hk : k = sn
  · simp [fullyReceivedAt, hw, hk]
  · simp [fullyReceivedAt, hw, hk]

theorem sduAt_eq {e : RlcRxAmEntity cfg} {sn : Nat} {info : RlcRxAmSduInfo}
    (h : get? e.rxWindow sn = some info) : e.sduAt sn = .ok info := by
  simp [sduAt, SduWindow.get, h]

theorem setSdu_eq {e : RlcRxAmEntity cfg} {sn : Nat} (h : e.hasSn sn = true)
    (info : RlcRxAmSduInfo) :
    ∃ w, e.setSdu sn info = .ok { e with rxWindow := w } ∧
      get? w = Function.update (get? e.rxWindow) sn (some info) := by
  obtain ⟨w, hw⟩ := (SduWindow.set_ok_iff (v := info)).mpr h
  refine ⟨w, by simp [setSdu, hw], funext fun k => ?_⟩
  rw [SduWindow.set_get? hw, Function.update_apply]

/-- `add_sn` of an absent SN whose slot holds no other SN, or nothing at all
for a present one: either way the SN then holds an SDU info. -/
theorem addSnIfAbsent_eq {e : RlcRxAmEntity cfg} {sn : Nat}
    (hev : e.hasSn sn = false → e.rxWindow.evicts sn = false) :
    ∃ w, e.addSnIfAbsent sn = .ok { e with rxWindow := w } ∧
      get? w = Function.update (get? e.rxWindow) sn (some ((get? e.rxWindow sn).getD {})) := by
  by_cases hs : e.hasSn sn = true
  · obtain ⟨info, hinfo⟩ := hasSn_eq_true.mp hs
    refine ⟨e.rxWindow, by simp [addSnIfAbsent, hs], ?_⟩
    rw [hinfo, Option.getD_some, ← hinfo, Function.update_eq_self]
  · have habs : e.hasSn sn = false := by simpa using hs
    obtain ⟨w, hw⟩ := (@SduWindow.addSn_ok_iff _ _ _ e.rxWindow sn {}).mpr habs
    refine ⟨w, by simp [addSnIfAbsent, habs, hw], funext fun k => ?_⟩
    have hnone : get? e.rxWindow sn = none := by
      simpa [hasSn, SduWindow.hasSn, CircularMap.contains] using habs
    rw [SduWindow.addSn_get? (hev habs) hw, Function.update_apply, hnone, Option.getD_none]

theorem handleFullDataSdu_eq {e : RlcRxAmEntity cfg} {header : RlcAmPduHeader}
    (payload : List UInt8) (hsi : header.si = .fullSdu)
    (hev : e.hasSn header.sn = false → e.rxWindow.evicts header.sn = false) :
    ∃ w, e.handleFullDataSdu header payload = .ok ({ e with rxWindow := w }, true) ∧
      get? w = Function.update (get? e.rxWindow) header.sn
        (some { fullyReceived := true, hasGap := false, sduData := .slice payload }) := by
  obtain ⟨w₁, hadd, hw₁⟩ := addSnIfAbsent_eq hev
  have hpres : ({ e with rxWindow := w₁ } : RlcRxAmEntity cfg).hasSn header.sn = true :=
    hasSn_eq_true.mpr ⟨(get? e.rxWindow header.sn).getD {}, by simp [hw₁]⟩
  obtain ⟨w₂, hset, hw₂⟩ := setSdu_eq hpres
    { fullyReceived := true, hasGap := false, sduData := .slice payload }
  refine ⟨w₂, by simp [handleFullDataSdu, hsi, hadd, hset], ?_⟩
  rw [hw₂, hw₁, Function.update_idem]

theorem handleSegmentDataSdu_eq {e : RlcRxAmEntity cfg} {header : RlcAmPduHeader}
    (payload : List UInt8) (hsi : header.si ≠ .fullSdu)
    (hev : e.hasSn header.sn = false → e.rxWindow.evicts header.sn = false) :
    ∃ w info stored, e.handleSegmentDataSdu header payload = .ok ({ e with rxWindow := w }, stored) ∧
      get? w = Function.update (get? e.rxWindow) header.sn (some info) ∧
      ∃ segments, info.sduData = .segmentSet segments := by
  obtain ⟨w₁, hadd, hw₁⟩ := addSnIfAbsent_eq hev
  set info₀ := (get? e.rxWindow header.sn).getD {}
  have hget : get? w₁ header.sn = some info₀ := by simp [hw₁]
  have hread : ({ e with rxWindow := w₁ } : RlcRxAmEntity cfg).sduAt header.sn = .ok info₀ :=
    sduAt_eq hget
  set stored := storeSegment info₀ { si := header.si, so := header.so, payload }
  obtain ⟨info, hinv⟩ := Option.isSome_iff_exists.mp (updateSegmentInventory_storeSegment_isSome
    info₀ { si := header.si, so := header.so, payload })
  obtain ⟨w₂, hset, hw₂⟩ :=
    setSdu_eq (e := { e with rxWindow := w₁ }) (hasSn_eq_true.mpr ⟨info₀, hget⟩) info
  refine ⟨w₂, info, stored.1, ?_, by rw [hw₂, hw₁, Function.update_idem], ?_⟩
  · simp [handleSegmentDataSdu, hsi, hadd, hread, stored, hinv, hset]
  · rw [updateSegmentInventory_sduData hinv]
    exact storeSegment_sduData _ _

/-! ## The scanning loops -/

/-- What a scan from `sn` towards `stop` returns: an SN between the two,
short of `stop` only at an SDU not fully received, with every SN before it
fully received. -/
structure ScanResult (e : RlcRxAmEntity cfg) (sn stop r : Nat) : Prop where
  lt_mod : r < mod cfg
  start_le : e.rxModBase sn ≤ e.rxModBase r
  le_stop : e.rxModBase r ≤ e.rxModBase stop
  stop_or_missing : e.rxModBase r = e.rxModBase stop ∨ e.fullyReceivedAt r = false
  passed : ∀ k, k < mod cfg → e.rxModBase sn ≤ e.rxModBase k → e.rxModBase k < e.rxModBase r →
    e.fullyReceivedAt k = true

/-- With fuel for every SN up to `stop`, the scan stops where it should. -/
theorem scanFullyReceived_spec (e : RlcRxAmEntity cfg) {fuel sn stop : Nat} (hsn : sn < mod cfg)
    (hle : e.rxModBase sn ≤ e.rxModBase stop) (hfuel : e.rxModBase stop - e.rxModBase sn ≤ fuel) :
    e.ScanResult sn stop (e.scanFullyReceived fuel sn stop) := by
  induction fuel generalizing sn with
  | zero =>
    show e.ScanResult sn stop sn
    exact ⟨hsn, le_rfl, hle, .inl (by omega), fun k _ h₁ h₂ => absurd h₂ (by omega)⟩
  | succ fuel ih =>
    rw [scanFullyReceived]
    split_ifs with hc
    · obtain ⟨hlt, hfull⟩ := hc
      have hsucc := e.rxModBase_succ (x := sn) (by have := e.rxModBase_lt stop; omega)
      have r := ih (Nat.mod_lt (sn + 1) (mod_pos cfg)) (by omega) (by omega)
      refine ⟨r.lt_mod, by have := r.start_le; omega, r.le_stop, r.stop_or_missing,
        fun k hk h₁ h₂ => ?_⟩
      by_cases hks : e.rxModBase k = e.rxModBase sn
      · rw [e.eq_of_rxModBase_eq hk hsn hks]
        exact hfull
      · exact r.passed k hk (by omega) h₂
    · refine ⟨hsn, le_rfl, hle, ?_, fun k _ h₁ h₂ => absurd h₂ (by omega)⟩
      by_cases hlt : e.rxModBase sn < e.rxModBase stop
      · exact .inr (by simpa [hlt] using hc)
      · exact .inl (by omega)

/-- The scan reads the flags only from `sn` on. -/
theorem scanFullyReceived_congr {e e' : RlcRxAmEntity cfg} (hst : e'.st.rxNext = e.st.rxNext)
    {fuel sn stop : Nat} (hsn : sn < mod cfg)
    (hfull : ∀ k, k < mod cfg → e.rxModBase sn ≤ e.rxModBase k →
      e'.fullyReceivedAt k = e.fullyReceivedAt k) :
    e'.scanFullyReceived fuel sn stop = e.scanFullyReceived fuel sn stop := by
  have hd := rxModBase_congr hst
  induction fuel generalizing sn with
  | zero => rfl
  | succ fuel ih =>
    rw [scanFullyReceived, scanFullyReceived, hd, hfull sn hsn le_rfl]
    split_ifs with hc
    · have hsucc := e.rxModBase_succ (x := sn) (by have := e.rxModBase_lt stop; omega)
      exact ih (Nat.mod_lt (sn + 1) (mod_pos cfg)) fun k hk hle => hfull k hk (by omega)
    · rfl

/-- The loop that moves `RX_Next` stops where the scan to `RX_Next_Highest`
does and removes exactly the SNs it steps over. -/
theorem advanceRxNext_eq (e : RlcRxAmEntity cfg) {fuel sn : Nat} (hsn : sn < mod cfg)
    (hle : e.rxModBase sn ≤ e.rxModBase e.st.rxNextHighest)
    (hfuel : e.rxModBase e.st.rxNextHighest - e.rxModBase sn ≤ fuel) :
    ∃ w, e.advanceRxNext fuel sn =
        .ok ({ e with rxWindow := w }, e.scanFullyReceived fuel sn e.st.rxNextHighest) ∧
      ∀ k, get? w k = if k < mod cfg ∧ e.rxModBase sn ≤ e.rxModBase k ∧
          e.rxModBase k < e.rxModBase (e.scanFullyReceived fuel sn e.st.rxNextHighest) then none
        else get? e.rxWindow k := by
  induction fuel generalizing e sn with
  | zero => exact ⟨e.rxWindow, rfl, fun k => (if_neg (by simp [scanFullyReceived])).symm⟩
  | succ fuel ih =>
    by_cases hc : e.rxModBase sn < e.rxModBase e.st.rxNextHighest ∧ e.fullyReceivedAt sn = true
    · obtain ⟨w₁, hw₁⟩ := SduWindow.removeSn_ok_iff.mpr (hasSn_of_fullyReceivedAt hc.2)
      have hsucc := e.rxModBase_succ (x := sn)
        (by have := e.rxModBase_lt e.st.rxNextHighest; omega)
      have hsn' : (sn + 1) % mod cfg < mod cfg := Nat.mod_lt (sn + 1) (mod_pos cfg)
      obtain ⟨w, hadv, hw⟩ := ih { e with rxWindow := w₁ } hsn'
        (by simp only [rxModBase_with_rxWindow]; omega) (by simp only [rxModBase_with_rxWindow]; omega)
      -- the flags the rest of the loop reads are those of `e`
      have hscan : ({ e with rxWindow := w₁ } : RlcRxAmEntity cfg).scanFullyReceived fuel
          ((sn + 1) % mod cfg) e.st.rxNextHighest =
          e.scanFullyReceived fuel ((sn + 1) % mod cfg) e.st.rxNextHighest := by
        refine scanFullyReceived_congr ?_ hsn' fun k hk hle => fullyReceivedAt_congr ?_
        · rfl
        · rw [SduWindow.removeSn_get? hw₁, if_neg (by rintro rfl; omega)]
      have hstep : e.scanFullyReceived (fuel + 1) sn e.st.rxNextHighest =
          e.scanFullyReceived fuel ((sn + 1) % mod cfg) e.st.rxNextHighest := by
        rw [scanFullyReceived, if_pos hc]
      have hr : e.ScanResult ((sn + 1) % mod cfg) e.st.rxNextHighest
          (e.scanFullyReceived fuel ((sn + 1) % mod cfg) e.st.rxNextHighest) :=
        e.scanFullyReceived_spec hsn' (by omega) (by omega)
      have hstart := hr.start_le
      refine ⟨w, ?_, fun k => ?_⟩
      · rw [advanceRxNext, if_pos hc]
        simp [hw₁, hadv, hscan, hstep]
      · rw [hw k, SduWindow.removeSn_get? hw₁]
        simp only [rxModBase_with_rxWindow, hscan, hstep]
        by_cases hks : k = sn
        · subst hks
          rw [if_neg (by omega), if_pos rfl, if_pos ⟨hsn, le_rfl, by omega⟩]
        · by_cases hkm : k < mod cfg ∧ e.rxModBase k = e.rxModBase sn
          · exact absurd (e.eq_of_rxModBase_eq hkm.1 hsn hkm.2) hks
          · rw [if_neg hks]
            split_ifs <;> first | rfl | omega
    · have hstep : e.scanFullyReceived (fuel + 1) sn e.st.rxNextHighest = sn := by
        rw [scanFullyReceived, if_neg hc]
      refine ⟨e.rxWindow, by rw [advanceRxNext, if_neg hc, hstep], fun k => ?_⟩
      rw [hstep, if_neg (by omega)]

/-! ## The stages of `handle_data_pdu` -/

/-- Storing the payload of a data PDU as a full SDU or as a segment. -/
def storeSdu (e : RlcRxAmEntity cfg) (header : RlcAmPduHeader) (payload : List UInt8) :
    Except RlcRxAmAssertion (RlcRxAmEntity cfg × Bool) :=
  if header.si = .fullSdu then e.handleFullDataSdu header payload
  else e.handleSegmentDataSdu header payload

def raiseNextHighest (e : RlcRxAmEntity cfg) (sn : Nat) : RlcRxAmEntity cfg :=
  if e.rxModBase sn ≥ e.rxModBase e.st.rxNextHighest then
    { e with st.rxNextHighest := (sn + 1) % mod cfg }
  else e

/-- `RX_Next_Highest` after an SN less than a turn ahead of `RX_Next`: the
further of the two. -/
theorem raiseNextHighest_eq (e : RlcRxAmEntity cfg) {sn : Nat}
    (hnh : e.st.rxNextHighest < mod cfg) (hsn : e.rxModBase sn + 1 < mod cfg) :
    ∃ nh, e.raiseNextHighest sn = { e with st.rxNextHighest := nh } ∧ nh < mod cfg ∧
      e.rxModBase nh = max (e.rxModBase e.st.rxNextHighest) (e.rxModBase sn + 1) := by
  unfold raiseNextHighest
  split_ifs with hge
  · refine ⟨(sn + 1) % mod cfg, rfl, Nat.mod_lt _ (mod_pos cfg), ?_⟩
    rw [e.rxModBase_succ hsn]
    omega
  · exact ⟨e.st.rxNextHighest, rfl, hnh, by omega⟩

def deliverIfComplete (e : RlcRxAmEntity cfg) (sn : Nat) :
    Except RlcRxAmAssertion (RlcRxAmEntity cfg) :=
  if e.fullyReceivedAt sn then e.deliverSdu sn else pure e

theorem handleDataPduBody_eq (e : RlcRxAmEntity cfg) (buf : List UInt8) :
    e.handleDataPduBody buf =
      match rlcAmReadDataPduHeader buf cfg.snFieldLength with
      | none => .ok (e, false, false)
      | some header =>
        if buf.length ≤ header.getPackedSize then .ok (e, false, false)
        else if !e.insideRxWindow header.sn then .ok (e, false, decide (header.p ≠ 0))
        else if e.fullyReceivedAt header.sn then .ok (e, false, decide (header.p ≠ 0))
        else do
          let (e, statusChanged) ← e.storeSdu header (buf.drop header.getPackedSize)
          let e ← (e.raiseNextHighest header.sn).deliverIfComplete header.sn
          let e ← e.updateReassemblyTimer
          return (e, statusChanged, decide (header.p ≠ 0)) := by
  unfold handleDataPduBody storeSdu
  cases rlcAmReadDataPduHeader buf cfg.snFieldLength with
  | none => rfl
  | some header =>
    simp only
    split_ifs
    all_goals first
      | rfl
      | (congr 1
         funext x
         -- the source's join point repeats the rest after both branches of the delivery test
         simp only [deliverIfComplete, raiseNextHighest]
         split_ifs <;> rfl)

def recordDelivery (e : RlcRxAmEntity cfg) (info : RlcRxAmSduInfo) : RlcRxAmEntity cfg :=
  match reassembleSdu info with
  | some sdu => { e with delivered := e.delivered ++ [sdu] }
  | none => e

def moveRxHighestStatus (e : RlcRxAmEntity cfg) (sn : Nat) : RlcRxAmEntity cfg :=
  if e.rxModBase sn = e.rxModBase e.st.rxHighestStatus then
    { e with st.rxHighestStatus :=
        e.scanFullyReceived (mod cfg) ((e.st.rxHighestStatus + 1) % mod cfg) e.st.rxNextHighest }
  else e

def moveRxNext (e : RlcRxAmEntity cfg) (sn : Nat) : Except RlcRxAmAssertion (RlcRxAmEntity cfg) :=
  if e.rxModBase sn = e.rxModBase e.st.rxNext then do
    let (e, snUpd) ← e.advanceRxNext (mod cfg) (e.st.rxNext % mod cfg)
    return { e with st.rxNext := snUpd }
  else return e

theorem deliverSdu_eq (e : RlcRxAmEntity cfg) (sn : Nat) :
    e.deliverSdu sn = (do
      let info ← e.sduAt sn
      let e ← (e.recordDelivery info).setSdu sn { info with sduData := .slice [] }
      (e.moveRxHighestStatus sn).moveRxNext sn) := by
  rfl

theorem recordDelivery_eq (e : RlcRxAmEntity cfg) (info : RlcRxAmSduInfo) :
    ∃ delivered, e.recordDelivery info = { e with delivered } := by
  unfold recordDelivery
  split
  · exact ⟨_, rfl⟩
  · exact ⟨e.delivered, rfl⟩

/-- At `RX_Next`, the loop moves `RX_Next` to where the scan to
`RX_Next_Highest` stops and removes the SDUs before it. -/
theorem moveRxNext_of_eq {e : RlcRxAmEntity cfg} {sn : Nat} (hrx : e.st.rxNext < mod cfg)
    (hsn : e.rxModBase sn = 0) :
    ∃ w, e.moveRxNext sn =
        .ok { e with
          rxWindow := w
          st := { e.st with rxNext := e.scanFullyReceived (mod cfg) e.st.rxNext e.st.rxNextHighest } } ∧
      ∀ k, get? w k = if k < mod cfg ∧ e.rxModBase k <
          e.rxModBase (e.scanFullyReceived (mod cfg) e.st.rxNext e.st.rxNextHighest) then none
        else get? e.rxWindow k := by
  have hmod : e.st.rxNext % mod cfg = e.st.rxNext := Nat.mod_eq_of_lt hrx
  have hfuel : e.rxModBase e.st.rxNextHighest - e.rxModBase (e.st.rxNext % mod cfg) ≤ mod cfg := by
    have := e.rxModBase_lt e.st.rxNextHighest
    omega
  obtain ⟨w, hadv, hw⟩ := e.advanceRxNext_eq (Nat.mod_lt e.st.rxNext (mod_pos cfg))
    (by rw [hmod, rxModBase_rxNext]; exact Nat.zero_le _) hfuel
  refine ⟨w, ?_, fun k => ?_⟩
  · rw [moveRxNext, if_pos (by simp [hsn]), hadv, hmod]
    rfl
  · simp [hw k, hmod]

theorem moveRxNext_of_ne {e : RlcRxAmEntity cfg} {sn : Nat} (hsn : e.rxModBase sn ≠ 0) :
    e.moveRxNext sn = .ok e := by
  rw [moveRxNext, if_neg (by simpa using hsn)]
  rfl

/-- The first half of the t-Reassembly actions of `handle_data_pdu`: stop
the timer once its trigger is reached or has left the window. -/
def stopReassemblyTimer (e : RlcRxAmEntity cfg) : Except RlcRxAmAssertion (RlcRxAmEntity cfg) :=
  if e.reassemblyTimerRunning then do
    let atNext := decide (e.st.rxNextStatusTrigger = e.st.rxNext)
    let nextComplete ←
      if e.rxModBase e.st.rxNextStatusTrigger = e.rxModBase (e.st.rxNext + 1) then do
        let info ← e.sduAt e.st.rxNext
        pure !info.hasGap
      else pure false
    let outside := !e.insideRxWindow e.st.rxNextStatusTrigger
    pure (if atNext || nextComplete || outside then { e with reassemblyTimerRunning := false }
      else e)
  else pure e

/-- A running timer, with the flag read at `RX_Next` when the trigger is
the next SN. -/
theorem stopReassemblyTimer_of_running {e : RlcRxAmEntity cfg}
    (hrun : e.reassemblyTimerRunning = true) {c : Bool}
    (hc : (if e.rxModBase e.st.rxNextStatusTrigger = e.rxModBase (e.st.rxNext + 1) then
        (e.sduAt e.st.rxNext).map fun info => !info.hasGap else .ok false) = .ok c) :
    e.stopReassemblyTimer = .ok (if (decide (e.st.rxNextStatusTrigger = e.st.rxNext) || c ||
        !e.insideRxWindow e.st.rxNextStatusTrigger) = true then
      { e with reassemblyTimerRunning := false } else e) := by
  unfold stopReassemblyTimer
  simp only [hrun, if_true]
  by_cases hone : e.rxModBase e.st.rxNextStatusTrigger = e.rxModBase (e.st.rxNext + 1)
  · rw [if_pos hone] at hc ⊢
    cases hs : e.sduAt e.st.rxNext with
    | error err =>
      rw [hs] at hc
      cases hc
    | ok info =>
      rw [hs, Fallible.map_ok, Except.ok.injEq] at hc
      subst hc
      rfl
  · rw [if_neg hone] at hc ⊢
    cases hc
    rfl

theorem stopReassemblyTimer_of_stopped {e : RlcRxAmEntity cfg}
    (hrun : e.reassemblyTimerRunning = false) : e.stopReassemblyTimer = .ok e := by
  simp [stopReassemblyTimer, hrun]

/-- The second half: start a stopped timer while SDUs are missing. -/
def startReassemblyTimer (e : RlcRxAmEntity cfg) : RlcRxAmEntity cfg :=
  if !e.reassemblyTimerRunning then
    let restart := decide (e.rxModBase e.st.rxNextHighest > e.rxModBase (e.st.rxNext + 1)) ||
      (decide (e.rxModBase e.st.rxNextHighest = e.rxModBase (e.st.rxNext + 1)) &&
        e.hasGapAt e.st.rxNext)
    if restart then
      { e with reassemblyTimerRunning := true, st.rxNextStatusTrigger := e.st.rxNextHighest }
    else e
  else e

theorem updateReassemblyTimer_eq (e : RlcRxAmEntity cfg) :
    e.updateReassemblyTimer = e.stopReassemblyTimer.map startReassemblyTimer := by
  unfold updateReassemblyTimer stopReassemblyTimer
  split
  · split
    · cases e.sduAt e.st.rxNext with
      | error err => rfl
      | ok info =>
        simp only [Fallible.ok_bind, Fallible.pure_eq_ok, Fallible.map_ok, startReassemblyTimer]
        split_ifs <;> rfl
    · simp only [Fallible.ok_bind, Fallible.pure_eq_ok, Fallible.map_ok, startReassemblyTimer]
      split_ifs <;> rfl
  · simp only [Fallible.ok_bind, Fallible.pure_eq_ok, Fallible.map_ok, startReassemblyTimer]
    split_ifs <;> rfl

/-- The restart of t-Reassembly by its expiry handler. -/
def restartAfterExpiry (e : RlcRxAmEntity cfg) : RlcRxAmEntity cfg :=
  let restart :=
    decide (e.rxModBase e.st.rxNextHighest > e.rxModBase (e.st.rxHighestStatus + 1)) ||
      (decide (e.rxModBase e.st.rxNextHighest = e.rxModBase (e.st.rxHighestStatus + 1)) &&
        e.hasGapAt e.st.rxHighestStatus)
  if restart then
    { e with reassemblyTimerRunning := true, st.rxNextStatusTrigger := e.st.rxNextHighest }
  else e

/-- The expiry handler past its early returns and its assertion. -/
theorem onExpiredReassemblyTimer_eq {e : RlcRxAmEntity cfg}
    (hrun : e.reassemblyTimerRunning = false)
    (hvalid : e.validAckSn e.st.rxNextStatusTrigger = true)
    (hvalid' : e.validAckSn
      (e.scanFullyReceived (mod cfg) e.st.rxNextStatusTrigger e.st.rxNextHighest) = true) :
    e.onExpiredReassemblyTimer =
      (restartAfterExpiry { e with
          st.rxHighestStatus :=
            e.scanFullyReceived (mod cfg) e.st.rxNextStatusTrigger e.st.rxNextHighest }).refreshStatusReport.map
        fun e => { e with doStatus := true } := by
  unfold onExpiredReassemblyTimer
  rw [if_neg (by rw [hrun]; decide), if_neg (by rw [hvalid]; decide)]
  simp only
  rw [if_neg (by rw [hvalid']; decide), Fallible.bind_pure_eq_map]
  rfl

/-! ## The status report and control PDUs -/

/-- The assertion on the segment offsets of a NACK. -/
def SegmentOffsetsAssertion (a : RlcRxAmAssertion) : Prop := ∃ sn, a = .invalidSegmentOffsets sn

theorem nackSegments_post (sn : Nat) (status : RlcAmStatusPdu) (lastSo : Nat) (haveLast : Bool)
    (segments : List RlcRxAmSduSegment) :
    Fallible.Post (fun _ => True) SegmentOffsetsAssertion
      (nackSegments sn status lastSo haveLast segments) := by
  induction segments generalizing status lastSo haveLast with
  | nil => trivial
  | cons segm rest ih =>
    rw [nackSegments]
    simp only
    split_ifs
    · exact ⟨sn, rfl⟩
    · exact ih _ _ _
    · exact ih _ _ _

/-- Each round of the NACK loop fails only on the segment offsets, once
every SDU info not fully received holds a segment set. -/
theorem nackSdu_post {e : RlcRxAmEntity cfg}
    (hseg : ∀ k info, get? e.rxWindow k = some info → info.fullyReceived = false →
      ∃ segments, info.sduData = .segmentSet segments)
    (status : RlcAmStatusPdu) (i : Nat) :
    Fallible.Post (fun _ => True) SegmentOffsetsAssertion (e.nackSdu status i) := by
  rw [nackSdu]
  split_ifs with hfull hpres
  · trivial
  · trivial
  · obtain ⟨info, hinfo⟩ := hasSn_eq_true.mp (by simpa using hpres)
    have hmiss : info.fullyReceived = false := by
      simpa [fullyReceivedAt, hinfo] using hfull
    obtain ⟨segments, hsegs⟩ := hseg i info hinfo hmiss
    rw [sduAt_eq hinfo, Fallible.ok_bind, hsegs]
    refine Fallible.Post.bind (Q := fun _ => True) (nackSegments_post i status 0 false segments) ?_
    rintro ⟨status', lastSo, haveLast⟩ -
    simp only
    split_ifs
    · exact ⟨i, rfl⟩
    · trivial
    · trivial

theorem nackLoop_post {e : RlcRxAmEntity cfg}
    (hseg : ∀ k info, get? e.rxWindow k = some info → info.fullyReceived = false →
      ∃ segments, info.sduData = .segmentSet segments)
    (stopSn fuel i : Nat) (status : RlcAmStatusPdu) :
    Fallible.Post (fun _ => True) SegmentOffsetsAssertion (e.nackLoop stopSn fuel i status) := by
  induction fuel generalizing i status with
  | zero => trivial
  | succ fuel ih =>
    rw [nackLoop]
    split_ifs
    · exact Fallible.Post.bind (nackSdu_post hseg status i) fun status _ => ih _ status
    · trivial

/-- `refresh_status_report` changes only the cached status report, and fails
only on the segment offsets. -/
theorem refreshStatusReport_post {e : RlcRxAmEntity cfg}
    (hseg : ∀ k info, get? e.rxWindow k = some info → info.fullyReceived = false →
      ∃ segments, info.sduData = .segmentSet segments) :
    Fallible.Post (fun e' => ∃ statusCached, e' = { e with statusCached })
      SegmentOffsetsAssertion e.refreshStatusReport := by
  rw [refreshStatusReport]
  exact Fallible.Post.bind (nackLoop_post hseg _ _ _ _) fun status _ => ⟨_, rfl⟩

theorem handleControlPdu_eq (e : RlcRxAmEntity cfg) (buf : List UInt8) :
    ∃ statusToTx, e.handleControlPdu buf = { e with statusToTx } := by
  unfold handleControlPdu
  split
  · exact ⟨_, rfl⟩
  · exact ⟨e.statusToTx, rfl⟩

end RlcRxAmEntity

end SrsRan.Rlc
