import SrsRan.Pdcp.TxWindow
import SrsRan.Pdcp.TxInvariant
import SrsRan.Pdcp.RxWindow
import SrsRan.Pdcp.RxInvariant

/-!
A data PDU from one side of PDCP to the other. `write_data_pdu_header` puts
the D/C bit (DRBs only) and the SN of a COUNT in front of the SDU, in two
octets for 12-bit SNs and three for 18-bit ones; `read_data_pdu_header`
reads the SN back whatever follows it, and `pdcp_pdu_get_dc` reads the D/C
bit from the first octet (`writeDataPduHeader_spec`). With NIA0 and NEA0 the
MAC-I is four zero octets, appended for SRBs and for DRBs with integrity and
cut off again by the receiver.

A data PDU that `handle_sdu` hands down for COUNT `c` is that header and the
SDU (`handleSdu_sends`). A receiver with `RX_DELIV = c` that does not hold
`c` yet stores it and delivers the SDU at once, before anything else it
delivers (`handlePdu_delivers`), provided the PDU is longer than its
header: the PDU of an empty SDU on a DRB without integrity is its header
alone, which the receiver drops as too small.
-/

namespace SrsRan.Pdcp

open Fallible (Post)
open BitString (and_two_pow_sub_two_pow_shiftRight)

/-- `pdcp_dc_field`. -/
inductive PdcpDcField
  | control
  | data
  deriving DecidableEq, Repr

/-- `pdcp_pdu_get_dc`: the top bit of the first octet. -/
def pdcpPduGetDc (firstByte : UInt8) : PdcpDcField :=
  if (firstByte.toNat >>> 7) &&& 0x01 = 1 then .data else .control

/-! ## The header -/

namespace PdcpEntityTx

variable {cfg : PdcpTxConfig}

/-- The first octet of the header: the D/C bit of a DRB above `x`, the
SN's top bits. -/
theorem toNat_firstOctet (cfg : PdcpTxConfig) {x : Nat} (hx : x < 16) :
    (UInt8.ofNat ((if isSrb cfg then 0x00 else 0x80) ||| x)).toNat =
      (if isSrb cfg then 0x00 else 0x80) + x := by
  have hor : (if isSrb cfg then 0x00 else 0x80) ||| x = (if isSrb cfg then 0x00 else 0x80) + x :=
    Octet.or_eq_add (k := 4) (by split <;> decide) hx
  rw [hor, Octet.toNat_ofNat_uint8]
  split <;> omega

theorem pdcpPduGetDc_firstOctet (cfg : PdcpTxConfig) {x : Nat} (hx : x < 16) :
    pdcpPduGetDc (UInt8.ofNat ((if isSrb cfg then 0x00 else 0x80) ||| x)) =
      if isSrb cfg then .control else .data := by
  unfold pdcpPduGetDc
  rw [toNat_firstOctet cfg hx, Nat.shiftRight_eq_div_pow, Octet.and_0x01]
  split <;> split <;> first | rfl | omega

/-- For a bearer whose header can be written, the header of an SN of the SN
space has the length of the SN size, reads back as that SN whatever
follows it, and carries D/C = data exactly for DRBs. -/
theorem writeDataPduHeader_spec (hsrb : isSrb cfg = true → cfg.snSize = .size12bits) {sn : Nat}
    (hsn : sn < pdcpSnCardinality cfg.snSize) (buf : List UInt8) :
    ∃ hdr, writeDataPduHeader cfg sn buf = .ok (hdr ++ buf) ∧
      hdr.length = pdcpDataPduHeaderSize cfg.snSize ∧
      (∀ rcfg : PdcpRxConfig, rcfg.snSize = cfg.snSize →
        ∀ rest, PdcpEntityRx.readDataPduHeader rcfg (hdr ++ rest) = sn) ∧
      pdcpPduGetDc (hdr.headD 0) = if isSrb cfg then .control else .data := by
  have hvalid : ¬(isSrb cfg && cfg.snSize == .size18bits) = true := by
    intro h
    simp only [Bool.and_eq_true, beq_iff_eq] at h
    rw [hsrb h.1] at h
    cases h.2
  unfold writeDataPduHeader
  rw [if_neg hvalid]
  cases hsz : cfg.snSize with
  | size12bits =>
    rw [hsz] at hsn
    change sn < 2 ^ 12 at hsn
    have htop : (sn &&& 0x00000f00) >>> 8 = sn / 2 ^ 8 := by
      rw [show (0x00000f00 : Nat) = 2 ^ 12 - 2 ^ 8 by rfl, and_two_pow_sub_two_pow_shiftRight _ (by decide),
        Nat.mod_eq_of_lt hsn]
    have hlt : sn / 2 ^ 8 < 16 := by omega
    refine ⟨[_, _], rfl, rfl, fun rcfg hr rest => ?_, ?_⟩
    · simp only [PdcpEntityRx.readDataPduHeader, hr, List.cons_append, List.getD_cons_zero,
        List.getD_cons_succ, htop, toNat_firstOctet cfg hlt, Octet.and_0x0f, Octet.and_0xff,
        Octet.toNat_ofNat_uint8]
      rw [Octet.shiftLeft_or_eq_add _ _ _ (by omega)]
      split <;> omega
    · simp only [List.headD_cons, htop]
      exact pdcpPduGetDc_firstOctet cfg hlt
  | size18bits =>
    rw [hsz] at hsn
    change sn < 2 ^ 18 at hsn
    have htop : (sn &&& 0x00030000) >>> 16 = sn / 2 ^ 16 := by
      rw [show (0x00030000 : Nat) = 2 ^ 18 - 2 ^ 16 by rfl, and_two_pow_sub_two_pow_shiftRight _ (by decide),
        Nat.mod_eq_of_lt hsn]
    have hmid : (sn &&& 0x0000ff00) >>> 8 = sn % 2 ^ 16 / 2 ^ 8 :=
      by rw [show (0x0000ff00 : Nat) = 2 ^ 16 - 2 ^ 8 by rfl, and_two_pow_sub_two_pow_shiftRight _ (by decide)]
    have hlt : sn / 2 ^ 16 < 16 := by omega
    refine ⟨[_, _, _], rfl, rfl, fun rcfg hr rest => ?_, ?_⟩
    · simp only [PdcpEntityRx.readDataPduHeader, hr, List.cons_append, List.getD_cons_zero,
        List.getD_cons_succ, htop, hmid, toNat_firstOctet cfg hlt, Octet.and_0x03, Octet.and_0xff,
        Octet.toNat_ofNat_uint8]
      have h₁ : ((if isSrb cfg then 0x00 else 0x80) + sn / 2 ^ 16) % 4 = sn / 2 ^ 16 := by
        split <;> omega
      have h₂ : sn % 2 ^ 16 / 2 ^ 8 % 256 % 256 = sn % 2 ^ 16 / 2 ^ 8 := by omega
      have h₃ : sn % 256 % 256 % 256 = sn % 256 := by omega
      rw [h₁, h₂, h₃, Nat.shiftLeft_eq, Nat.shiftLeft_eq, Octet.or_eq_add (x := sn / 2 ^ 16 * 2 ^ 16) (k := 16) (by omega) (by omega),
        Octet.or_eq_add (k := 8) (by omega) (by omega)]
      omega
    · simp only [List.headD_cons, htop]
      exact pdcpPduGetDc_firstOctet cfg hlt

/-! ## What `handle_sdu` hands down -/

/-- Calls on the lower layer that are all `on_discard_pdu`. -/
def OnlyDiscards (ds : List PdcpTxLowerEvent) : Prop := ∀ d ∈ ds, ∃ sn, d = .discardPdu sn

theorem skipAbsent_lowerDn (e : PdcpEntityTx cfg) (k : Nat) : (e.skipAbsent k).lowerDn = e.lowerDn := by
  induction k generalizing e with
  | zero => rfl
  | succ k ih =>
    unfold skipAbsent
    split
    · exact ih _
    · rfl

theorem raiseTxTrans_lowerDn (e : PdcpEntityTx cfg) : e.raiseTxTrans.lowerDn = e.lowerDn := by
  unfold raiseTxTrans
  split <;> rfl

/-- `discard_pdu` hands down at most one discard and keeps `TX_NEXT`. -/
theorem discardPdu_lowerDn (e : PdcpEntityTx cfg) (count : Nat) :
    Post (fun e' : PdcpEntityTx cfg => e'.st.txNext = e.st.txNext ∧
        ∃ ds, OnlyDiscards ds ∧ e'.lowerDn = e.lowerDn ++ ds) (fun _ => True) (e.discardPdu count) := by
  have hnone : ∃ ds, OnlyDiscards ds ∧ e.lowerDn = e.lowerDn ++ ds :=
    ⟨[], fun _ h => absurd h List.not_mem_nil, (List.append_nil _).symm⟩
  unfold discardPdu
  split
  · exact ⟨rfl, hnone⟩
  split
  · exact ⟨rfl, hnone⟩
  split
  · exact ⟨rfl, hnone⟩
  refine Post.bind (Fallible.post_eq _) fun w _ =>
    ⟨?_, [.discardPdu (pdcpComputeSn count cfg.snSize)], ?_, ?_⟩
  · rw [(raiseTxTrans_frame _).2.1, (skipAbsent_frame _ _).2]
  · intro d hd
    exact ⟨_, List.mem_singleton.mp hd⟩
  · rw [raiseTxTrans_lowerDn, skipAbsent_lowerDn]

/-- `store_sdu` hands down only the discard of an SDU info stored under
`TX_NEXT`. -/
theorem storeSdu_lowerDn (e : PdcpEntityTx cfg) (sdu : List UInt8) :
    Post (fun e' : PdcpEntityTx cfg => e'.st.txNext = e.st.txNext ∧
        ∃ ds, OnlyDiscards ds ∧ e'.lowerDn = e.lowerDn ++ ds) (fun _ => True) (e.storeSdu sdu) := by
  unfold storeSdu
  split
  · exact ⟨rfl, [], fun _ h => absurd h List.not_mem_nil, (List.append_nil _).symm⟩
  have hadd : ∀ e₁ : PdcpEntityTx cfg, e₁.st.txNext = e.st.txNext →
      (∃ ds, OnlyDiscards ds ∧ e₁.lowerDn = e.lowerDn ++ ds) → ∀ info : PdcpTxSduInfo,
      Post (fun e' : PdcpEntityTx cfg => e'.st.txNext = e.st.txNext ∧
          ∃ ds, OnlyDiscards ds ∧ e'.lowerDn = e.lowerDn ++ ds) (fun _ => True)
        (window (e₁.txWindow.addSn e₁.st.txNext info) >>= fun w =>
          pure ({ e₁ with txWindow := w } : PdcpEntityTx cfg)) :=
    fun e₁ hnext₁ hlow₁ _ => Post.bind (Fallible.post_eq _) fun _ _ => ⟨hnext₁, hlow₁⟩
  dsimp only
  split
  · refine Post.bind (Fallible.post_eq _) fun old _ => ?_
    refine Post.bind (e.discardPdu_lowerDn old.count) fun e₁ ⟨hnext₁, hlow₁⟩ => hadd e₁ hnext₁ hlow₁ _
  · exact hadd e rfl ⟨[], fun _ h => absurd h List.not_mem_nil, (List.append_nil _).symm⟩ _

/-- `handle_sdu` either hands nothing down, or discards and then the data
PDU of `TX_NEXT`: its header and the SDU, with the MAC-I. -/
theorem handleSdu_lowerDn (e : PdcpEntityTx cfg) (buf : List UInt8) :
    Post (fun e' : PdcpEntityTx cfg => e'.lowerDn = e.lowerDn ∨
        ∃ pdu ds, writeDataPduHeader cfg (pdcpComputeSn e.st.txNext cfg.snSize) buf = .ok pdu ∧
          OnlyDiscards ds ∧
          e'.lowerDn = e.lowerDn ++ ds ++ [.dataPdu e.st.txNext (applyCipheringAndIntegrityProtection cfg pdu) false])
      (fun _ => True) (e.handleSdu buf) := by
  unfold handleSdu
  dsimp only
  split
  · exact .inl rfl
  split
  · exact .inl rfl
  have hnext₁ : (if e.st.txNext ≥ cfg.maxCount.notify then
      ({ e with maxCountNotified := true } : PdcpEntityTx cfg) else e).st.txNext = e.st.txNext := by
    split <;> rfl
  have hlow₁ : (if e.st.txNext ≥ cfg.maxCount.notify then
      ({ e with maxCountNotified := true } : PdcpEntityTx cfg) else e).lowerDn = e.lowerDn := by
    split <;> rfl
  generalize (if e.st.txNext ≥ cfg.maxCount.notify then
    ({ e with maxCountNotified := true } : PdcpEntityTx cfg) else e) = e₁ at hnext₁ hlow₁ ⊢
  refine Post.bind (Fallible.post_eq _) fun pdu hpdu => ?_
  refine Post.bind (e₁.storeSdu_lowerDn buf) fun e₂ ⟨hnext₂, ds, hds, hlow₂⟩ => ?_
  refine .inr ⟨pdu, ds, by rw [← hnext₁]; exact hpdu, hds, ?_⟩
  show e₂.lowerDn ++ _ = _
  rw [hlow₂, hlow₁, hnext₂, hnext₁]

end PdcpEntityTx

/-! ## The receiver delivers it -/

namespace PdcpEntityRx

variable {cfg : PdcpRxConfig}

/-- A COUNT's own SN, read from the lower edge at that COUNT, gives the
COUNT back. -/
theorem countEstimation_self (sz : PdcpSnSize) {c : Nat} (hc : c < 2 ^ 32) :
    countEstimation sz c (pdcpComputeSn c sz) = c := by
  have hws : 0 < pdcpWindowSize sz := Nat.two_pow_pos _
  rw [countEstimation_of_within (pdcpComputeSn_lt c sz) (by omega) (by omega), pdcpComputeSn_eq,
    pdcpComputeHfn_eq, Nat.div_add_mod', Nat.mod_eq_of_lt hc]

/-- Stored at `RX_DELIV`, an SDU is delivered at once, before anything else
the receiver delivers: `RX_NEXT` lies above it, so the loop of
`deliver_all_consecutive_counts` takes at least one round. -/
theorem afterStore_delivers {e : PdcpEntityRx cfg} (hb : e.Bounded) {count : Nat}
    (hdeliv : e.st.rxDeliv = count) {info : PdcpRxSduInfo}
    (hget : CircularMap.get? e.rxWindow count = some info) :
    ∃ e', e.afterStore count = .ok e' ∧ ∃ rest, e'.delivered = e.delivered ++ (count, info.sdu) :: rest := by
  have hc : count < 2 ^ 32 := hdeliv ▸ hb.rxDeliv_lt
  have hn := hb.rxNext_lt
  obtain ⟨e₁, he₁, hdeliv₁, hne₁, hn₁, hw₁, hdel₁⟩ : ∃ e₁ : PdcpEntityRx cfg,
      (if count ≥ e.st.rxNext then ({ e with st.rxNext := (count + 1) % 2 ^ 32 } : PdcpEntityRx cfg)
        else e) = e₁ ∧ e₁.st.rxDeliv = count ∧ e₁.st.rxNext ≠ count ∧ e₁.st.rxNext < 2 ^ 32 ∧
        e₁.rxWindow = e.rxWindow ∧ e₁.delivered = e.delivered := by
    refine ⟨_, rfl, ?_⟩
    split
    · exact ⟨hdeliv, by dsimp only; omega, Nat.mod_lt _ (Nat.two_pow_pos 32), rfl, rfl⟩
    · exact ⟨hdeliv, by omega, hn, rfl, rfl⟩
  -- `RX_NEXT` differs from `RX_DELIV`, so the loop has a round to take
  obtain ⟨k, hk⟩ : ∃ k, distance e₁.st.rxDeliv e₁.st.rxNext = k + 1 := by
    refine ⟨distance e₁.st.rxDeliv e₁.st.rxNext - 1, ?_⟩
    unfold distance
    omega
  have hs : e₁.rxWindow.hasSn e₁.st.rxDeliv = true := by
    simp [SduWindow.hasSn, CircularMap.contains, hw₁, hdeliv₁, hget]
  have hpost : Post (fun e' : PdcpEntityRx cfg => e₁.delivered ++ [(count, info.sdu)] <+: e'.delivered)
      (fun _ => False) (e₁.deliverConsecutive >>= updateReorderingTimer) := by
    unfold deliverConsecutive
    rw [hk, deliverAllConsecutiveCounts, if_pos ⟨fun h => hne₁ (h.symm.trans hdeliv₁), hs⟩, hdeliv₁,
      deliverSdu_of_get (by rw [hw₁]; exact hget), Fallible.ok_bind]
    exact Post.bind (deliverAllConsecutiveCounts_keeps k _) fun e₂ h₂ =>
      Post.mono (updateReorderingTimer_keeps e₂) (fun _ h' => h₂.trans h') (fun _ h' => h')
  obtain ⟨e', he', rest, hrest⟩ := hpost.exists_ok
  refine ⟨e', ?_, rest, by rw [← hrest, hdel₁, List.append_assoc, List.singleton_append]⟩
  unfold afterStore
  dsimp only
  rw [he₁, if_pos hdeliv₁.symm]
  exact he'

/-- With the same bearer and integrity switch on both sides, the receiver
cuts off the MAC-I the transmitter appended and the header, and keeps the
SDU. -/
theorem dataPduSdu_applyCipheringAndIntegrityProtection {tcfg : PdcpTxConfig}
    (hsrb : isSrb cfg = PdcpEntityTx.isSrb tcfg) (hint : cfg.integrityEnabled = tcfg.integrityEnabled)
    {hdr : List UInt8} (hlen : hdr.length = pdcpDataPduHeaderSize cfg.snSize) (sdu : List UInt8) :
    dataPduSdu cfg (PdcpEntityTx.applyCipheringAndIntegrityProtection tcfg (hdr ++ sdu)) = sdu := by
  have hpos : 0 < hdr.length := by
    rw [hlen]
    cases cfg.snSize <;> decide
  unfold dataPduSdu PdcpEntityTx.applyCipheringAndIntegrityProtection
  rw [hsrb, hint]
  split
  · have hmac : ¬(hdr ++ sdu ++ [0, 0, 0, 0]).length ≤ 4 := by
      simp only [List.length_append, List.length_cons, List.length_nil]
      omega
    have hcut : (hdr ++ sdu ++ [0, 0, 0, 0]).length - 4 = (hdr ++ sdu).length := by
      simp only [List.length_append, List.length_cons, List.length_nil]
      omega
    rw [extractMac, if_neg hmac, hcut, List.take_left' rfl, List.drop_left' hlen]
  · exact List.drop_left' hlen

/-- What the transmitter appends as MAC-I is what `extract_mac` cuts off. -/
theorem withoutMac_applyCipheringAndIntegrityProtection {tcfg : PdcpTxConfig}
    (hsrb : isSrb cfg = PdcpEntityTx.isSrb tcfg) (hint : cfg.integrityEnabled = tcfg.integrityEnabled)
    {l : List UInt8} (hl : l ≠ []) :
    withoutMac cfg (PdcpEntityTx.applyCipheringAndIntegrityProtection tcfg l) = l := by
  have hpos := List.length_pos_of_ne_nil hl
  unfold withoutMac PdcpEntityTx.applyCipheringAndIntegrityProtection
  rw [hsrb, hint]
  split
  · have hmac : ¬(l ++ [0, 0, 0, 0]).length ≤ 4 := by
      simp only [List.length_append, List.length_cons, List.length_nil]
      omega
    have hcut : (l ++ [0, 0, 0, 0]).length - 4 = l.length := by
      simp only [List.length_append, List.length_cons, List.length_nil]
      omega
    rw [extractMac, if_neg hmac, hcut, List.take_left' rfl]
  · rfl

/-- A data PDU longer than its header, that still holds it once the MAC-I is
extracted and whose SN is that of `RX_DELIV` is stored and its SDU delivered
at once, before anything else the receiver delivers, when the window does
not hold `RX_DELIV` yet. -/
theorem handlePdu_delivers {e : PdcpEntityRx cfg} (hb : e.Bounded) {pdu : List UInt8}
    (hdata : isSrb cfg = true ∨ ((pdu.getD 0 0).toNat >>> 7) &&& 0x01 = 1)
    (hlen : pdcpDataPduHeaderSize cfg.snSize < pdu.length)
    (htrim : pdcpDataPduHeaderSize cfg.snSize ≤ (withoutMac cfg pdu).length)
    (hsn : readDataPduHeader cfg pdu = pdcpComputeSn e.st.rxDeliv cfg.snSize)
    (hhard : e.st.rxDeliv < cfg.maxCount.hard) (hnew : e.rxWindow.hasSn e.st.rxDeliv = false) :
    ∃ e', e.handlePdu pdu = .ok e' ∧
      ∃ rest, e'.delivered = e.delivered ++ (e.st.rxDeliv, dataPduSdu cfg pdu) :: rest := by
  have hcount : e.rcvdCount (readDataPduHeader cfg pdu) = e.st.rxDeliv := by
    rw [hsn]
    exact countEstimation_self _ hb.rxDeliv_lt
  obtain ⟨e₁, hst, hw, hdel, heq⟩ := e.handleDataPdu_of_accepted hlen htrim hcount hhard le_rfl hnew
  -- the SDU is stored under `RX_DELIV`
  have hb₂ : Bounded ({ e₁ with
      rxWindow := CircularMap.overwrite e₁.rxWindow e.st.rxDeliv ⟨dataPduSdu cfg pdu, e.st.rxDeliv⟩ } :
      PdcpEntityRx cfg) := hb.of_st hst
  obtain ⟨e', he', rest, hrest⟩ := afterStore_delivers hb₂ (congrArg PdcpRxState.rxDeliv hst)
    ((CircularMap.get?_overwrite_eq _ _ _ _).trans (if_pos rfl))
  refine ⟨e', ?_, rest, by rw [hrest, ← hdel]⟩
  have hne : pdu ≠ [] := List.ne_nil_of_length_pos (by omega)
  unfold handlePdu
  rw [if_neg hne, if_pos (Bool.or_eq_true_iff.mpr (hdata.imp id decide_eq_true)), heq, he']
  rfl

end PdcpEntityRx

open PdcpEntityTx in
/-- For a bearer whose header can be written: the header of COUNT `c` has
the length of the SN size, reads back as `SN(c)` and carries D/C = data for
DRBs; a data PDU that `handle_sdu` hands down for `c` is that header, the
SDU and (for SRBs and DRBs with integrity) the MAC-I; and a receiver of the
same bearer with `RX_DELIV = c`, not holding `c` yet and below its hard
`max_count`, delivers the SDU at once, provided the SDU is not empty or a
MAC-I follows it. -/
theorem dataPdu_roundTrip {tcfg : PdcpTxConfig} {rcfg : PdcpRxConfig}
    (hsrb : isSrb tcfg = true → tcfg.snSize = .size12bits)
    (hcfg : rcfg.rbType = tcfg.rbType ∧ rcfg.snSize = tcfg.snSize ∧ rcfg.integrityEnabled = tcfg.integrityEnabled)
    (c : Nat) (sdu : List UInt8) :
    ∃ hdr, writeDataPduHeader tcfg (pdcpComputeSn c tcfg.snSize) sdu = .ok (hdr ++ sdu) ∧
      hdr.length = pdcpDataPduHeaderSize tcfg.snSize ∧
      (∀ rest, PdcpEntityRx.readDataPduHeader rcfg (hdr ++ rest) = pdcpComputeSn c tcfg.snSize) ∧
      (tcfg.rbType = .drb → pdcpPduGetDc (hdr.headD 0) = .data) ∧
      ∀ (tx tx' : PdcpEntityTx tcfg) (pdu : List UInt8), tx.handleSdu sdu = .ok tx' →
        .dataPdu c pdu false ∈ tx'.lowerDn → .dataPdu c pdu false ∉ tx.lowerDn →
        pdu = applyCipheringAndIntegrityProtection tcfg (hdr ++ sdu) ∧
        ∀ rx : PdcpEntityRx rcfg, rx.Bounded → rx.st.rxDeliv = c → rx.rxWindow.hasSn c = false →
          c < rcfg.maxCount.hard → (sdu ≠ [] ∨ isSrb tcfg = true ∨ tcfg.integrityEnabled = true) →
          ∃ rx', rx.handlePdu pdu = .ok rx' ∧ ∃ rest, rx'.delivered = rx.delivered ++ (c, sdu) :: rest := by
  obtain ⟨hrb, hsz, hint⟩ := hcfg
  obtain ⟨hdr, hw, hlen, hread, hdc⟩ := writeDataPduHeader_spec hsrb (pdcpComputeSn_lt c tcfg.snSize) sdu
  have hsrb' : PdcpEntityRx.isSrb rcfg = isSrb tcfg := by
    simp only [PdcpEntityRx.isSrb, PdcpEntityTx.isSrb, hrb]
  refine ⟨hdr, hw, hlen, hread rcfg hsz, fun hdrb => ?_, fun tx tx' pdu hrun hmem hnot => ?_⟩
  · rw [hdc, if_neg (by simp [PdcpEntityTx.isSrb, hdrb])]
  -- the PDU is the data PDU `handle_sdu` hands down for `TX_NEXT`
  have hpdu : c = tx.st.txNext ∧ pdu = applyCipheringAndIntegrityProtection tcfg (hdr ++ sdu) := by
    have hpost := tx.handleSdu_lowerDn sdu
    rw [hrun] at hpost
    rcases hpost with hsame | ⟨p, ds, hp, hds, hlow⟩
    · exact absurd (hsame ▸ hmem) hnot
    rw [hlow, List.mem_append, List.mem_append, List.mem_singleton] at hmem
    rcases hmem with (hold | hd) | hlast
    · exact absurd hold hnot
    · obtain ⟨sn, hsn⟩ := hds _ hd
      cases hsn
    · injection hlast with hc hp'
      subst hc
      rw [hw] at hp
      cases hp
      exact ⟨rfl, hp'⟩
  obtain ⟨-, rfl⟩ := hpdu
  refine ⟨rfl, fun rx hb hdeliv hnew hhard hne => ?_⟩
  subst hdeliv
  have hpos : 0 < hdr.length := by
    rw [hlen]
    cases tcfg.snSize <;> decide
  -- what the receiver reads of the PDU: the header first, the SDU after it
  have hsplit : ∃ tail, applyCipheringAndIntegrityProtection tcfg (hdr ++ sdu) = hdr ++ tail ∧
      (sdu ≠ [] ∨ isSrb tcfg = true ∨ tcfg.integrityEnabled = true → tail ≠ []) := by
    unfold applyCipheringAndIntegrityProtection
    split
    · exact ⟨sdu ++ [0, 0, 0, 0], by rw [List.append_assoc], fun _ => by simp⟩
    · rename_i hmac
      refine ⟨sdu, rfl, fun h => ?_⟩
      rcases h with h | h | h
      · exact h
      · simp [h] at hmac
      · simp [h] at hmac
  obtain ⟨tail, htail, htail_ne⟩ := hsplit
  have hdata : PdcpEntityRx.isSrb rcfg = true ∨
      (((applyCipheringAndIntegrityProtection tcfg (hdr ++ sdu)).getD 0 0).toNat >>> 7) &&& 0x01 = 1 := by
    rw [hsrb']
    cases hs : isSrb tcfg with
    | true => exact .inl rfl
    | false =>
      refine .inr ?_
      have hdrb : tcfg.rbType = .drb := by
        cases hr : tcfg.rbType <;> simp_all [PdcpEntityTx.isSrb]
      have hd := hdc
      rw [if_neg (by simp [hs])] at hd
      obtain ⟨b, bs, rfl⟩ := List.exists_cons_of_length_pos hpos
      rw [htail]
      unfold pdcpPduGetDc at hd
      simpa using hd
  have hlen' : pdcpDataPduHeaderSize rcfg.snSize <
      (applyCipheringAndIntegrityProtection tcfg (hdr ++ sdu)).length := by
    rw [htail, List.length_append, hsz, ← hlen]
    have := List.length_pos_of_ne_nil (htail_ne hne)
    omega
  have htrim : pdcpDataPduHeaderSize rcfg.snSize ≤
      (PdcpEntityRx.withoutMac rcfg (applyCipheringAndIntegrityProtection tcfg (hdr ++ sdu))).length := by
    rw [PdcpEntityRx.withoutMac_applyCipheringAndIntegrityProtection hsrb' hint
      (List.ne_nil_of_length_pos (by simp only [List.length_append]; omega)), List.length_append, hsz, ← hlen]
    omega
  obtain ⟨rx', hrx', rest, hrest⟩ := PdcpEntityRx.handlePdu_delivers hb hdata hlen' htrim
    (by rw [htail, hread rcfg hsz, hsz]) hhard hnew
  refine ⟨rx', hrx', rest, ?_⟩
  rw [hrest, PdcpEntityRx.dataPduSdu_applyCipheringAndIntegrityProtection hsrb' hint (by rw [hsz]; exact hlen)]

/-- A 12-bit AM DRB: the header of COUNT 5 is two octets and reads back as
SN 5. -/
theorem dataPdu_roundTrip_drb12 :
    ∃ hdr, PdcpEntityTx.writeDataPduHeader
        ⟨.drb, .am, .size12bits, some (.ms 100), false, 64, pdcpDefaultMaxCount, false⟩
        (pdcpComputeSn 5 .size12bits) [1, 2, 3] = .ok (hdr ++ [1, 2, 3]) ∧ hdr.length = 2 ∧
      ∀ rest, PdcpEntityRx.readDataPduHeader ⟨.drb, .am, .size12bits, .infinity, pdcpDefaultMaxCount, false⟩
        (hdr ++ rest) = pdcpComputeSn 5 .size12bits := by
  obtain ⟨hdr, hw, hlen, hread, -⟩ :=
    @dataPdu_roundTrip ⟨.drb, .am, .size12bits, some (.ms 100), false, 64, pdcpDefaultMaxCount, false⟩
      ⟨.drb, .am, .size12bits, .infinity, pdcpDefaultMaxCount, false⟩ (by decide) ⟨rfl, rfl, rfl⟩ 5 [1, 2, 3]
  exact ⟨hdr, hw, hlen, hread⟩

/-- An empty SDU on a DRB without integrity: `handle_sdu` hands down its
header alone for COUNT 0, and a receiver with `RX_DELIV = 0` drops it as
too small, delivering nothing. -/
theorem handlePdu_drops_empty_sdu :
    ∃ tx', (PdcpEntityTx.create
        ⟨.drb, .am, .size12bits, some (.ms 100), false, 64, pdcpDefaultMaxCount, false⟩).handleSdu [] = .ok tx' ∧
      tx'.lowerDn = [.dataPdu 0 [0x80, 0x00] false] ∧
      (PdcpEntityRx.create ⟨.drb, .am, .size12bits, .infinity, pdcpDefaultMaxCount, false⟩).handlePdu
        [0x80, 0x00] = .ok (PdcpEntityRx.create _) :=
  ⟨_, rfl, rfl, rfl⟩

end SrsRan.Pdcp
