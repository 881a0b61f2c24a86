import SrsRan.Pdcp.RxEntity
import SrsRan.Lib.Fallible

/-!
What a data PDU does to the receiver's window. The path that stores an SDU
is taken apart stage by stage (`handleDataPdu_of_accepted`,
`afterStore_of_above`). On it, a PDU whose SN lies `Window_Size` or more
above that of `RX_DELIV` while `RX_DELIV` is still in HFN 0 gets
`RCVD_COUNT = 2^32 - 2^sn_size + SN`, is stored, and moves `RX_NEXT` to one
past it: `RX_NEXT - RX_DELIV` is then far larger than `Window_Size`, and the
next PDU whose COUNT shares that slot of the window overwrites the SDU
without delivering it (`storeSdu_drops_slot_owner`).
-/

namespace SrsRan.Pdcp

namespace PdcpEntityRx

variable {cfg : PdcpRxConfig}

theorem readDataPduHeader_lt (cfg : PdcpRxConfig) (buf : List UInt8) :
    readDataPduHeader cfg buf < pdcpSnCardinality cfg.snSize := by
  have h0 := (buf.getD 0 0).toNat_lt
  have h1 := (buf.getD 1 0).toNat_lt
  have h2 := (buf.getD 2 0).toNat_lt
  cases hsz : cfg.snSize with
  | size12bits =>
    simp only [readDataPduHeader, hsz, Octet.and_0x0f, Octet.and_0xff, pdcpSnCardinality,
      pdcpSnSizeToUint]
    rw [Octet.shiftLeft_or_eq_add _ _ _ (by omega)]
    omega
  | size18bits =>
    simp only [readDataPduHeader, hsz, Octet.and_0x03, Octet.and_0xff, pdcpSnCardinality,
      pdcpSnSizeToUint]
    -- the three fields do not overlap: the top two bits, the middle octet, the last octet
    have hhi : ((buf.getD 0 0).toNat % 4) <<< 16 ||| ((buf.getD 1 0).toNat % 256) <<< 8 =
        ((buf.getD 0 0).toNat % 4) * 2 ^ 16 + ((buf.getD 1 0).toNat % 256) * 2 ^ 8 := by
      rw [Nat.shiftLeft_eq, Nat.shiftLeft_eq, Octet.or_eq_add (k := 16) (by omega) (by omega)]
    rw [hhi, Octet.or_eq_add (k := 8) (by omega) (by omega)]
    omega

/-- Below `hard` a COUNT is accepted; the notification flag is all that
changes. -/
theorem checkMaxCount_of_lt (e : PdcpEntityRx cfg) {count : Nat} (h : count < cfg.maxCount.hard) :
    ∃ e₁, e.checkMaxCount count = (e₁, true) ∧ e₁.st = e.st ∧ e₁.rxWindow = e.rxWindow ∧
      e₁.delivered = e.delivered := by
  refine ⟨if count > cfg.maxCount.notify then { e with maxCountNotified := true } else e,
    by simp [checkMaxCount, Nat.not_le.mpr h], ?_, ?_, ?_⟩ <;> split <;> rfl

/-- From `hard` on a COUNT is refused, after raising both flags when it is
past `notify` too. -/
theorem checkMaxCount_of_ge (e : PdcpEntityRx cfg) {count : Nat} (hnotify : cfg.maxCount.notify < count)
    (hhard : cfg.maxCount.hard ≤ count) :
    e.checkMaxCount count = ({ e with maxCountNotified := true, maxCountOverflow := true }, false) := by
  simp [checkMaxCount, hnotify, hhard]

theorem storeSdu_of_absent (e : PdcpEntityRx cfg) {count : Nat} (sdu : List UInt8)
    (h : e.rxWindow.hasSn count = false) :
    e.storeSdu count sdu =
      .ok ({ e with rxWindow := CircularMap.overwrite e.rxWindow count ⟨sdu, count⟩ }, true) := by
  simp [storeSdu, h, SduWindow.addSn]

/-- A new COUNT takes its slot from whatever COUNT held it, which leaves the
window without being delivered. -/
theorem storeSdu_drops_slot_owner (e : PdcpEntityRx cfg) {count k : Nat} (sdu : List UInt8)
    (h : e.rxWindow.hasSn count = false) (hk : k ≠ count)
    (hs : k % pdcpWindowSize cfg.snSize = count % pdcpWindowSize cfg.snSize) :
    ∃ e', e.storeSdu count sdu = .ok (e', true) ∧ CircularMap.get? e'.rxWindow k = none ∧
      e'.delivered = e.delivered := by
  refine ⟨_, e.storeSdu_of_absent sdu h, ?_, rfl⟩
  rw [CircularMap.get?_overwrite_eq, if_neg hk, if_pos (CircularMap.slot_eq_iff.mpr hs)]

/-- `discard_data_header` on a PDU that still holds its header once the
MAC-I is extracted: the SDU. -/
theorem discardDataHeader_of_le {pdu : List UInt8}
    (htrim : pdcpDataPduHeaderSize cfg.snSize ≤ (withoutMac cfg pdu).length) :
    discardDataHeader cfg pdu = .ok (dataPduSdu cfg pdu) := by
  rw [discardDataHeader, if_neg (Nat.not_lt.mpr htrim)]
  rfl

/-- The path of `handle_data_pdu` that stores the SDU: the PDU is longer
than its header and still holds it once the MAC-I is extracted, its COUNT is
below `hard`, not below `RX_DELIV` and not stored yet. -/
theorem handleDataPdu_of_accepted (e : PdcpEntityRx cfg) {pdu : List UInt8} {count : Nat}
    (hlen : pdcpDataPduHeaderSize cfg.snSize < pdu.length)
    (htrim : pdcpDataPduHeaderSize cfg.snSize ≤ (withoutMac cfg pdu).length)
    (hcount : e.rcvdCount (readDataPduHeader cfg pdu) = count) (hhard : count < cfg.maxCount.hard)
    (hdeliv : e.st.rxDeliv ≤ count) (hnew : e.rxWindow.hasSn count = false) :
    ∃ e₁ : PdcpEntityRx cfg, e₁.st = e.st ∧ e₁.rxWindow = e.rxWindow ∧ e₁.delivered = e.delivered ∧
      e.handleDataPdu pdu =
        ({ e₁ with rxWindow := CircularMap.overwrite e₁.rxWindow count ⟨dataPduSdu cfg pdu, count⟩ }.afterStore
          count).mapError .window := by
  obtain ⟨e₁, hcheck, hst, hw, hdel⟩ := e.checkMaxCount_of_lt hhard
  refine ⟨e₁, hst, hw, hdel, ?_⟩
  have hge : ¬count < e₁.st.rxDeliv := by
    rw [hst]
    exact Nat.not_lt.mpr hdeliv
  unfold handleDataPdu
  simp only [if_neg (Nat.not_le.mpr hlen), hcount, hcheck, Bool.not_true, Bool.false_eq_true,
    ↓reduceIte, discardDataHeader_of_le htrim, if_neg hge, e₁.storeSdu_of_absent _ (hw ▸ hnew),
    Fallible.mapError_ok, Fallible.ok_bind]

/-- Stored above `RX_NEXT` and away from `RX_DELIV`, the SDU moves `RX_NEXT`
to one past it and nothing is delivered before the t-Reordering actions. -/
theorem afterStore_of_above (e : PdcpEntityRx cfg) {count : Nat} (hnext : e.st.rxNext ≤ count)
    (hlt : count + 1 < 2 ^ 32) (hne : count ≠ e.st.rxDeliv) :
    e.afterStore count = { e with st.rxNext := count + 1 }.updateReorderingTimer := by
  simp only [afterStore, ge_iff_le, if_pos hnext, Nat.mod_eq_of_lt hlt, if_neg hne,
    Fallible.pure_eq_ok, Fallible.ok_bind]

/-- While `RX_DELIV` is in HFN 0, a PDU whose SN is `Window_Size` or more
above that of `RX_DELIV`, and that still holds its header once the MAC-I is
extracted, is stored under `RCVD_COUNT = 2^32 - 2^sn_size + SN` and moves
`RX_NEXT` past it: before the t-Reordering actions, `RX_NEXT - RX_DELIV`
exceeds `Window_Size`. -/
theorem handleDataPdu_stale_sn_overruns_window {e : PdcpEntityRx cfg} {pdu : List UInt8}
    (hlen : pdcpDataPduHeaderSize cfg.snSize < pdu.length)
    (htrim : pdcpDataPduHeaderSize cfg.snSize ≤ (withoutMac cfg pdu).length)
    (hdeliv : e.st.rxDeliv < pdcpSnCardinality cfg.snSize)
    (hfar : pdcpComputeSn e.st.rxDeliv cfg.snSize + pdcpWindowSize cfg.snSize ≤ readDataPduHeader cfg pdu)
    (hhard : 2 ^ 32 - pdcpSnCardinality cfg.snSize + readDataPduHeader cfg pdu < cfg.maxCount.hard)
    (hnew : e.rxWindow.hasSn (2 ^ 32 - pdcpSnCardinality cfg.snSize + readDataPduHeader cfg pdu) = false)
    (hnext : e.st.rxNext ≤ 2 ^ 32 - pdcpSnCardinality cfg.snSize + readDataPduHeader cfg pdu) :
    ∃ e' : PdcpEntityRx cfg, e.handleDataPdu pdu = e'.updateReorderingTimer.mapError .window ∧
      e'.st.rxDeliv = e.st.rxDeliv ∧
      e'.st.rxNext = 2 ^ 32 - pdcpSnCardinality cfg.snSize + readDataPduHeader cfg pdu + 1 ∧
      e'.st.rxNext - e'.st.rxDeliv > pdcpWindowSize cfg.snSize ∧
      CircularMap.get? e'.rxWindow (2 ^ 32 - pdcpSnCardinality cfg.snSize + readDataPduHeader cfg pdu) =
        some ⟨dataPduSdu cfg pdu, 2 ^ 32 - pdcpSnCardinality cfg.snSize + readDataPduHeader cfg pdu⟩ := by
  have hsn := readDataPduHeader_lt cfg pdu
  have hcard : pdcpSnCardinality cfg.snSize = 2 * pdcpWindowSize cfg.snSize :=
    pdcpSnCardinality_eq cfg.snSize
  have hws : pdcpWindowSize cfg.snSize ≤ 2 ^ 17 := by
    cases cfg.snSize <;> decide
  have hhard32 := cfg.maxCount.hard_lt
  have hcount : e.rcvdCount (readDataPduHeader cfg pdu) =
      2 ^ 32 - pdcpSnCardinality cfg.snSize + readDataPduHeader cfg pdu :=
    countEstimation_of_hfn_zero hdeliv hsn hfar
  obtain ⟨e₁, hst, hw, -, heq⟩ := e.handleDataPdu_of_accepted hlen htrim hcount hhard (by omega) hnew
  rw [heq, afterStore_of_above _ (by rw [hst]; exact hnext) (by omega) (by rw [hst]; omega)]
  refine ⟨_, rfl, by simp [hst], rfl, by simp only [hst]; omega, ?_⟩
  exact (CircularMap.get?_overwrite_eq _ _ _ _).trans (if_pos rfl)

/-- At creation, with 12-bit SNs, the PDU `88 00 01` (D/C set, SN 2048)
gets COUNT `0xFFFFF800` and moves `RX_NEXT` to `0xFFFFF801`. -/
theorem handleDataPdu_stale_sn_at_create :
    ∃ e' : PdcpEntityRx ⟨.drb, .am, .size12bits, .infinity, pdcpDefaultMaxCount, false⟩,
      (create _).handleDataPdu [0x88, 0x00, 0x01] = e'.updateReorderingTimer.mapError .window ∧
      e'.st.rxDeliv = 0 ∧ e'.st.rxNext = 0xFFFFF801 ∧ e'.st.rxNext - e'.st.rxDeliv > 2048 ∧
      CircularMap.get? e'.rxWindow 0xFFFFF800 = some ⟨[0x01], 0xFFFFF800⟩ :=
  handleDataPdu_stale_sn_overruns_window (by decide) (by decide) (by decide) (by decide) (by decide)
    (by decide) (by decide)

/-- The next PDU, `80 00 02` (SN 0), has COUNT 0, which shares slot 0 with
`0xFFFFF800`: it is delivered and the SDU of `0xFFFFF800` is gone. -/
theorem handleDataPdu_stale_sn_sdu_lost_at_create :
    (((create ⟨.drb, .am, .size12bits, .infinity, pdcpDefaultMaxCount, false⟩).step
        (.pdu [0x88, 0x00, 0x01])).bind (fun e => e.step (.pdu [0x80, 0x00, 0x02]))).map
      (fun e => (e.st, e.delivered, CircularMap.get? e.rxWindow 0xFFFFF800)) =
      .ok (⟨0xFFFFF801, 1, 0⟩, [(0, [0x02])], none) := by
  decide +kernel

/-- An SRB PDU of five octets is longer than its 12-bit header, but
`extract_mac` leaves one octet of it, and `discard_data_header` asserts in
`trim_head` before anything else is checked. -/
theorem handleDataPdu_srb_short_pdu_asserts :
    (create ⟨.srb, .am, .size12bits, .infinity, pdcpDefaultMaxCount, false⟩).handleDataPdu
      [0x08, 0x00, 0xAA, 0xBB, 0xCC] = .error .trimHead :=
  Fallible.eq_error_of_map_const (by decide +kernel)

/-- While `RX_DELIV` is in HFN 0, a PDU whose SN is `Window_Size` or more
above that of `RX_DELIV` gets `RCVD_COUNT = 2^32 - 2^sn_size + SN`, which is
checked against `max_count` before the PDU is verified: from `hard` on, the
PDU raises the notification and the overflow flag (`on_max_count_reached`,
`on_protocol_failure`) and is dropped. -/
theorem handleDataPdu_far_sn_hits_max_count {e : PdcpEntityRx cfg} {pdu : List UInt8}
    (hlen : pdcpDataPduHeaderSize cfg.snSize < pdu.length)
    (hdeliv : e.st.rxDeliv < pdcpSnCardinality cfg.snSize)
    (hfar : pdcpComputeSn e.st.rxDeliv cfg.snSize + pdcpWindowSize cfg.snSize ≤ readDataPduHeader cfg pdu)
    (hnotify : cfg.maxCount.notify < 2 ^ 32 - pdcpSnCardinality cfg.snSize + readDataPduHeader cfg pdu)
    (hhard : cfg.maxCount.hard ≤ 2 ^ 32 - pdcpSnCardinality cfg.snSize + readDataPduHeader cfg pdu) :
    e.rcvdCount (readDataPduHeader cfg pdu) =
        2 ^ 32 - pdcpSnCardinality cfg.snSize + readDataPduHeader cfg pdu ∧
      e.handleDataPdu pdu = .ok { e with maxCountNotified := true, maxCountOverflow := true } := by
  have hcount : e.rcvdCount (readDataPduHeader cfg pdu) =
      2 ^ 32 - pdcpSnCardinality cfg.snSize + readDataPduHeader cfg pdu :=
    countEstimation_of_hfn_zero hdeliv (readDataPduHeader_lt cfg pdu) hfar
  refine ⟨hcount, ?_⟩
  unfold handleDataPdu
  simp only [if_neg (Nat.not_le.mpr hlen), hcount, e.checkMaxCount_of_ge hnotify hhard, Bool.not_false,
    ↓reduceIte, Fallible.pure_eq_ok]

/-- At creation, with 12-bit SNs and the default `max_count`, the PDU
`8F FF 00` (D/C set, SN 4095) gets COUNT `0xFFFFFFFF` and calls
`on_protocol_failure`. -/
theorem handleDataPdu_far_sn_hits_max_count_at_create :
    (create ⟨.drb, .am, .size12bits, .infinity, pdcpDefaultMaxCount, false⟩).rcvdCount 4095 = 0xFFFFFFFF ∧
      (create ⟨.drb, .am, .size12bits, .infinity, pdcpDefaultMaxCount, false⟩).handleDataPdu
          [0x8F, 0xFF, 0x00] =
        .ok { create _ with maxCountNotified := true, maxCountOverflow := true } :=
  @handleDataPdu_far_sn_hits_max_count _ _ [0x8F, 0xFF, 0x00] (by decide) (by decide) (by decide)
    (by decide) (by decide)

end PdcpEntityRx

end SrsRan.Pdcp
