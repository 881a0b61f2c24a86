import SrsRan.Rlc.TxAm
import SrsRan.Rlc.DataPduCodec
import SrsRan.Rlc.RetxQueueSpec

/-!
What the AM transmitter sends over every run in which the SDUs handed to
`handle_sdu` are shorter than 2^16 octets: each PDU `pull_pdu` returns is a
status PDU, or a data PDU whose header the codec carries (`Codable`: an SN
of the field's width, a one-bit poll flag, and an SO exactly where the SI
announces one) followed by payload, so that `rlc_am_read_data_pdu_header`
reads the header back.

The SO of a header is the `uint16_t` of an offset into its SDU, taken where
the builders check it against the SDU (`build_retx_pdu` the ReTx,
`build_continued_sdu_segment` its `next_so`); with short SDUs it survives
the cast. `Stored` says that the SDUs the entity holds are short, that its
SNs fit the SN field and, with 12-bit SNs, that its ReTx queue keeps the
queue's invariant `Wf` for ReTx of at most 2^16 octets; every function of the
entity keeps it, and every builder frames its PDU. With 12-bit SNs the queue
of `AM_Window_Size = 2048` such ReTx never lets its `uint32_t` counters wrap,
so that the state the buffer-state report reads counts the queue.
-/

namespace SrsRan.Rlc

namespace RlcTxAmEntity

variable {cfg : RlcTxAmConfig}

open Fallible (Post)

/-- A PDU as the transmitter frames it: a status PDU, or a data PDU whose
header the codec carries, with payload after it. -/
def Framed (cfg : RlcTxAmConfig) (pdu : List UInt8) : Prop :=
  (∃ s : RlcAmStatusPdu, pdu = s.pack) ∨
    ∃ (h : RlcAmPduHeader) (payload : List UInt8), h.Codable ∧ h.dc = .data ∧
      h.snSize = cfg.snFieldLength ∧ payload ≠ [] ∧ pdu = rlcAmWriteDataPduHeader h ++ payload

/-- An entry of the TX window: its SN fits the SN field and its SDU is
shorter than 2^16 octets. -/
def ShortEntry (cfg : RlcTxAmConfig) (sn : Nat) (info : RlcTxAmSduInfo) : Prop :=
  sn < mod cfg ∧ info.sdu.length < 2 ^ 16

/-- The ReTx queue's invariant for ReTx of at most 2^16 octets, which the
transmitter keeps when its SNs have 12 bits. -/
def RetxWf (cfg : RlcTxAmConfig) (q : RlcRetxQueue) : Prop :=
  cfg.snFieldLength = .size12bits → RlcRetxQueue.Wf (2 ^ 16) q

/-- The SDUs the entity holds, queued or in the TX window, are shorter than
2^16 octets, its SNs fit the SN field, the PDUs it has sent are framed, and
its ReTx queue keeps `RetxWf`. -/
structure Stored (e : RlcTxAmEntity cfg) : Prop where
  txNext_lt : e.st.txNext < mod cfg
  queue_short : ∀ sdu ∈ e.sduQueue.queue, sdu.buf.length < 2 ^ 16
  window : SduWindow.All (ShortEntry cfg) e.txWindow
  log_framed : ∀ pdu ∈ e.pdus, Framed cfg pdu
  retx_wf : RetxWf cfg e.retxQueue

/-- The SDU of an event, if it has one, is shorter than 2^16 octets. -/
def ShortEvent : RlcTxAmEvent → Prop
  | .sdu buf _ => buf.length < 2 ^ 16
  | _ => True

variable {e e' : RlcTxAmEntity cfg}

theorem Stored.of_eq (h : Stored e) (hnext : e'.st.txNext = e.st.txNext) (hq : e'.sduQueue = e.sduQueue)
    (hw : e'.txWindow = e.txWindow) (hp : e'.pdus = e.pdus) (hr : RetxWf cfg e'.retxQueue) : Stored e' :=
  ⟨hnext ▸ h.txNext_lt, hq ▸ h.queue_short, hw ▸ h.window, hp ▸ h.log_framed, hr⟩

theorem mod_pos (cfg : RlcTxAmConfig) : 0 < mod cfg := Nat.two_pow_pos _

/-! ## The ReTx queue -/

/-- The entity with another ReTx queue that keeps `RetxWf`. -/
theorem Stored.setRetxQueue (h : Stored e) {q : RlcRetxQueue} (hq : RetxWf cfg q) :
    Stored ({ e with retxQueue := q } : RlcTxAmEntity cfg) :=
  h.of_eq rfl rfl rfl rfl hq

theorem RetxWf.pop {q : RlcRetxQueue} (h : RetxWf cfg q) : RetxWf cfg q.pop :=
  fun hsn => (h hsn).pop

theorem RetxWf.tryPush {q : RlcRetxQueue} (h : RetxWf cfg q) {retx : RlcTxAmdRetx} (hL : retx.length ≤ 2 ^ 16) :
    RetxWf cfg (q.tryPush retx).2 :=
  fun hsn => (h hsn).tryPush hL

/-- `replace_front` with a ReTx no longer than the front. -/
theorem RetxWf.replaceFront {q : RlcRetxQueue} (h : RetxWf cfg q) {top retx : RlcTxAmdRetx}
    (htop : q.front = .ok top) (hL : retx.length ≤ top.length) :
    Post (RetxWf cfg) (fun _ => True) (q.replaceFront retx) := by
  cases hr : q.replaceFront retx with
  | error err => trivial
  | ok q' =>
    intro hsn
    have htopL : top.length ≤ 2 ^ 16 := (h hsn).length_le top ((h hsn).mem_valid_of_front htop)
    exact (h hsn).replaceFront (hL.trans htopL) hr

/-- The loop that drops stale ReTx only pops. Induction on the fuel. -/
theorem RetxWf.dropStaleRetx (e : RlcTxAmEntity cfg) (fuel : Nat) :
    ∀ {q : RlcRetxQueue}, RetxWf cfg q → Post (RetxWf cfg) (fun _ => True) (e.dropStaleRetx fuel q) := by
  induction fuel with
  | zero => intro q h; exact h
  | succ fuel ih =>
    intro q h
    unfold RlcTxAmEntity.dropStaleRetx
    refine Post.bind (Fallible.post_true _) fun front _ => ?_
    split
    · exact h
    · dsimp only
      split
      · exact h.pop
      · exact ih h.pop

/-- The clamped offsets of a NACK are in order. -/
theorem clampNack_soStart_le (nack : RlcAmStatusNack) (sduLength : Nat) :
    (clampNack nack sduLength).soStart.toNat ≤ (clampNack nack sduLength).soEnd.toNat := by
  unfold clampNack
  dsimp only
  -- the first check puts the offsets in order
  generalize hn₁ : (if nack.soStart > nack.soEnd then { nack with soStart := 0 } else nack) = n₁
  have h₁ : n₁.soStart.toNat ≤ n₁.soEnd.toNat := by
    rw [← hn₁]
    split_ifs with h
    · simp
    · exact Nat.le_of_not_lt fun hlt => h (UInt16.lt_iff_toNat_lt.mpr hlt)
  -- the second leaves the start inside the SDU, or at 0
  generalize hn₂ : (if n₁.soStart.toNat ≥ sduLength then { n₁ with soStart := 0 } else n₁) = n₂
  have h₂ : n₂.soStart.toNat ≤ n₂.soEnd.toNat ∧ (n₂.soStart.toNat = 0 ∨ n₂.soStart.toNat < sduLength) := by
    rw [← hn₂]
    split_ifs with h
    · simp
    · exact ⟨h₁, .inr (Nat.lt_of_not_le h)⟩
  split_ifs with h
  · -- the end becomes `sdu_length - 1`, which the start does not pass
    have hend := n₂.soEnd.toNat_lt
    show n₂.soStart.toNat ≤ (UInt16.ofNat (sduLength + 2 ^ 32 - 1)).toNat
    rw [UInt16.toNat_ofNat']
    omega
  · exact h₂.1

/-- So the ReTx of a NACK covers at most 2^16 octets. -/
theorem clampNack_retx_length_le (nack : RlcAmStatusNack) (sduLength : Nat) :
    ((clampNack nack sduLength).soEnd.toNat + 1 + 2 ^ 32 - (clampNack nack sduLength).soStart.toNat) % 2 ^ 32 ≤
      2 ^ 16 := by
  have hle := clampNack_soStart_le nack sduLength
  have hend := (clampNack nack sduLength).soEnd.toNat_lt
  omega

/-- `TX_Next` moves on to the next SN. -/
theorem Stored.advance (h : Stored e) : Stored { e with st.txNext := (e.st.txNext + 1) % mod cfg } :=
  ⟨Nat.mod_lt _ (mod_pos cfg), h.queue_short, h.window, h.log_framed, h.retx_wf⟩

/-! ## Polling -/

section Polling

variable (e : RlcTxAmEntity cfg) (sn : Nat) (isRetx : Bool) (n : Nat)

/-- `get_polling_bit` changes only the poll counters, `POLL_SN` and the flags
of t-PollRetransmit. -/
@[simp] theorem getPollingBit_frame :
    (e.getPollingBit sn isRetx n).1.st.txNext = e.st.txNext ∧
      (e.getPollingBit sn isRetx n).1.sduQueue = e.sduQueue ∧
      (e.getPollingBit sn isRetx n).1.txWindow = e.txWindow ∧
      (e.getPollingBit sn isRetx n).1.pdus = e.pdus ∧
      (e.getPollingBit sn isRetx n).1.retxQueue = e.retxQueue := by
  unfold getPollingBit
  dsimp only
  split_ifs <;> exact ⟨rfl, rfl, rfl, rfl, rfl⟩

theorem getPollingBit_le_one : (e.getPollingBit sn isRetx n).2.toNat ≤ 1 := by
  unfold getPollingBit
  dsimp only
  split_ifs <;> simp

end Polling

theorem Stored.getPollingBit (h : Stored e) (sn : Nat) (isRetx : Bool) (n : Nat) :
    Stored (e.getPollingBit sn isRetx n).1 :=
  h.of_eq (by simp) (by simp) (by simp) (by simp) (by simpa using h.retx_wf)

/-! ## Headers -/

/-- A header of the transmitter is carried by the codec when its SN fits, its
offset fits 16 bits, and the offset is non-zero exactly for the SIs that
announce one. -/
theorem dataHeader_codable {p : UInt8} (hp : p.toNat ≤ 1) {si : RlcSiField} {sn so : Nat} (hsn : sn < mod cfg)
    (hso : so < 2 ^ 16) (hsi : so ≠ 0 ↔ si.hasSo = true) : (dataHeader cfg p si sn so).Codable := by
  have hcast : UInt16.ofNat so ≠ 0 ↔ so ≠ 0 := by
    rw [ne_eq, ne_eq, ← UInt16.toNat_inj, UInt16.toNat_ofNat', UInt16.toNat_zero, Nat.mod_eq_of_lt hso]
  exact ⟨hsn, hp, hcast.trans hsi⟩

theorem framed_data {p : UInt8} {si : RlcSiField} {sn so : Nat} {payload : List UInt8}
    (hc : (dataHeader cfg p si sn so).Codable) (hpl : payload ≠ []) :
    Framed cfg (rlcAmWriteDataPduHeader (dataHeader cfg p si sn so) ++ payload) :=
  .inr ⟨_, payload, hc, rfl, rfl, hpl, rfl⟩

/-! ## The TX window -/

theorem Stored.sduAt (h : Stored e) {sn : Nat} {info : RlcTxAmSduInfo} (hs : e.sduAt sn = .ok info) :
    sn < mod cfg ∧ info.sdu.length < 2 ^ 16 := by
  unfold RlcTxAmEntity.sduAt at hs
  cases hget : e.txWindow.get sn with
  | error err => simp [hget] at hs
  | ok v =>
    simp only [hget, Fallible.mapError_ok, Except.ok.injEq] at hs
    subst hs
    exact h.window.get hget

theorem Stored.sduAt_post (h : Stored e) (sn : Nat) : Post (ShortEntry cfg sn) (fun _ => True) (e.sduAt sn) := by
  cases hs : e.sduAt sn with
  | error err => trivial
  | ok info => exact h.sduAt hs

/-- A write to the TX window that keeps a short SDU keeps `Stored`. -/
theorem Stored.setSdu (h : Stored e) (sn : Nat) {info : RlcTxAmSduInfo} (hlen : info.sdu.length < 2 ^ 16) :
    Post Stored (fun _ => True) (e.setSdu sn info) := by
  unfold RlcTxAmEntity.setSdu
  cases hw : e.txWindow.set sn info with
  | error err => trivial
  | ok w => exact ⟨h.txNext_lt, h.queue_short, h.window.set hw fun _ hv => ⟨hv.1, hlen⟩, h.log_framed, h.retx_wf⟩

theorem Stored.incrementRetxCount (h : Stored e) (sn : Nat) :
    Post Stored (fun _ => True) (e.incrementRetxCount sn) := by
  unfold RlcTxAmEntity.incrementRetxCount
  cases hget : e.sduAt sn with
  | error err => trivial
  | ok info => exact h.setSdu sn (h.sduAt hget).2

theorem Stored.decrementRetxCount (h : Stored e) (sn : Nat) :
    Post Stored (fun _ => True) (e.decrementRetxCount sn) := by
  unfold RlcTxAmEntity.decrementRetxCount
  cases hget : e.sduAt sn with
  | error err => trivial
  | ok info =>
    have hlen := (h.sduAt hget).2
    rw [Fallible.ok_bind]
    split
    · exact h
    · exact h.setSdu sn hlen
    · exact h.setSdu sn hlen

/-- `add_sn` of a short SDU at `TX_Next`. -/
theorem Stored.addSn (h : Stored e) (info : RlcTxAmSduInfo) (hlen : info.sdu.length < 2 ^ 16) :
    Post (SduWindow.All (ShortEntry cfg)) (fun _ => True)
      ((e.txWindow.addSn e.st.txNext info).mapError RlcTxAmAssertion.window) := by
  cases hadd : e.txWindow.addSn e.st.txNext info with
  | error err => trivial
  | ok w => exact h.window.addSn ⟨h.txNext_lt, hlen⟩ hadd

/-! ## The builders -/

/-- What a builder guarantees: the entity keeps `Stored`, and the PDU is empty
or framed. -/
def Sends (cfg : RlcTxAmConfig) (r : RlcTxAmEntity cfg × List UInt8) : Prop :=
  Stored r.1 ∧ (r.2 = [] ∨ Framed cfg r.2)

theorem sends_empty (h : Stored e) : Sends cfg (e, []) := ⟨h, .inl rfl⟩

theorem buildFirstSduSegment_sends (h : Stored e) (grantLen : Nat) {info : RlcTxAmSduInfo} (hso : info.nextSo = 0)
    (hlen : info.sdu.length < 2 ^ 16) :
    Post (Sends cfg) (fun _ => True) (e.buildFirstSduSegment grantLen info) := by
  unfold buildFirstSduSegment
  split_ifs with h1 h2
  · exact sends_empty h
  · exact sends_empty h
  · dsimp only
    have hs₁ : Stored ({ e with snUnderSegmentation := some e.st.txNext } : RlcTxAmEntity cfg) :=
      h.of_eq rfl rfl rfl rfl h.retx_wf
    generalize hr : ({ e with snUnderSegmentation := some e.st.txNext } : RlcTxAmEntity cfg).getPollingBit
      e.st.txNext false (grantLen - headMinSize cfg) = r
    have hs₂ : Stored r.1 := hr ▸ hs₁.getPollingBit _ _ _
    have hnext : r.1.st.txNext = e.st.txNext := by rw [← hr, (getPollingBit_frame _ _ _ _).1]
    have hc : (dataHeader cfg r.2 .firstSegment r.1.st.txNext info.nextSo).Codable :=
      dataHeader_codable (hr ▸ getPollingBit_le_one _ _ _ _) (hnext ▸ h.txNext_lt) (by omega)
        (by simp [hso, RlcSiField.hasSo])
    split_ifs with hpl
    · exact sends_empty hs₂
    · refine Post.bind (hs₂.setSdu _ hlen) fun e₃ h₃ => (Fallible.post_pure _).mpr ⟨h₃, .inr ?_⟩
      exact framed_data hc (List.ne_nil_of_length_pos (by omega))

theorem buildNewPdu_sends (h : Stored e) (grantLen : Nat) :
    Post (Sends cfg) (fun _ => True) (e.buildNewPdu grantLen) := by
  unfold buildNewPdu
  split_ifs with h1 h2
  · exact sends_empty h
  · exact sends_empty h
  · obtain ⟨hread, hkeep⟩ := RlcSduQueue.mem_read (q := e.sduQueue)
    generalize e.sduQueue.read = r at hread hkeep ⊢
    obtain ⟨o, q⟩ := r
    have hq : Stored ({ e with sduQueue := q } : RlcTxAmEntity cfg) :=
      ⟨h.txNext_lt, fun x hx => h.queue_short x (hkeep x hx), h.window, h.log_framed, h.retx_wf⟩
    cases o with
    | none => exact sends_empty hq
    | some sdu =>
      dsimp only
      have hsdu : sdu.buf.length < 2 ^ 16 := h.queue_short sdu (hread sdu rfl)
      refine Post.bind (hq.addSn _ hsdu) fun w hw => ?_
      have hs₁ : Stored ({ e with sduQueue := q, txWindow := w } : RlcTxAmEntity cfg) :=
        ⟨h.txNext_lt, hq.queue_short, hw, h.log_framed, h.retx_wf⟩
      split_ifs with hfit hpl
      · -- the SDU does not fit: its first segment
        exact buildFirstSduSegment_sends hs₁ grantLen rfl hsdu
      · exact sends_empty (hs₁.getPollingBit _ _ _)
      · -- the whole SDU
        generalize hr : ({ e with sduQueue := q, txWindow := w } : RlcTxAmEntity cfg).getPollingBit
          e.st.txNext false 0 = r at hpl ⊢
        have hs₂ : Stored r.1 := hr ▸ hs₁.getPollingBit _ _ _
        have hnext : r.1.st.txNext = e.st.txNext := by rw [← hr, (getPollingBit_frame _ _ _ _).1]
        have hc : (dataHeader cfg r.2 .fullSdu r.1.st.txNext 0).Codable :=
          dataHeader_codable (hr ▸ getPollingBit_le_one _ _ _ _) (hnext ▸ h.txNext_lt) (by omega)
            (by simp [RlcSiField.hasSo])
        exact (Fallible.post_pure _).mpr
          ⟨hs₂.advance, .inr (framed_data hc (List.ne_nil_of_length_pos (by omega)))⟩

theorem buildContinuedSduSegment_sends (h : Stored e) (grantLen sn : Nat) {info : RlcTxAmSduInfo}
    (hlen : info.sdu.length < 2 ^ 16) :
    Post (Sends cfg) (fun _ => True) (e.buildContinuedSduSegment grantLen sn info) := by
  unfold buildContinuedSduSegment
  by_cases h1 : info.nextSo = 0
  · rw [if_pos h1]
    exact sends_empty (h.of_eq rfl rfl rfl rfl h.retx_wf)
  rw [if_neg h1]
  by_cases h2 : info.nextSo ≥ info.sdu.length
  · rw [if_pos h2]
    exact sends_empty (h.of_eq rfl rfl rfl rfl h.retx_wf)
  rw [if_neg h2]
  by_cases h3 : grantLen ≤ headMaxSize cfg
  · rw [if_pos h3]
    exact sends_empty h
  rw [if_neg h3]
  -- a middle segment, or the last one, which ends the segmentation
  generalize hsel : (if info.sdu.length - info.nextSo + headMaxSize cfg > grantLen then
      (RlcSiField.middleSegment, grantLen - headMaxSize cfg, e)
    else (RlcSiField.lastSegment, info.sdu.length - info.nextSo, { e with snUnderSegmentation := none })) = sel
  have hsel' : sel.1.hasSo = true ∧ sel.2.2.st.txNext = e.st.txNext ∧ Stored sel.2.2 := by
    rw [← hsel]
    split_ifs
    · exact ⟨rfl, rfl, h⟩
    · exact ⟨rfl, rfl, h.of_eq rfl rfl rfl rfl h.retx_wf⟩
  obtain ⟨si, len, e₀⟩ := sel
  obtain ⟨hsi, hnext₀, hs₀⟩ := hsel'
  dsimp only at hsi hnext₀ hs₀ ⊢
  generalize hr : e₀.getPollingBit e₀.st.txNext false len = r
  have hs₁ : Stored r.1 := hr ▸ hs₀.getPollingBit _ _ _
  have hnext : r.1.st.txNext = e.st.txNext := by rw [← hr, (getPollingBit_frame _ _ _ _).1, hnext₀]
  have hc : (dataHeader cfg r.2 si r.1.st.txNext info.nextSo).Codable :=
    dataHeader_codable (hr ▸ getPollingBit_le_one _ _ _ _) (hnext ▸ h.txNext_lt) (by omega)
      (by simp [hsi, h1])
  split
  · exact sends_empty hs₁
  · rename_i hpl
    refine Post.bind (hs₁.setSdu sn hlen) fun e₂ h₂ => (Fallible.post_pure _).mpr ⟨?_, .inr ?_⟩
    · -- the last segment moves `TX_Next` on
      dsimp only
      split
      · exact h₂.advance
      · exact h₂
    · exact framed_data hc (List.ne_nil_of_length_pos (by omega))

theorem buildRetxPdu_sends (h : Stored e) (grantLen : Nat) :
    Post (Sends cfg) (fun _ => True) (e.buildRetxPdu grantLen) := by
  unfold buildRetxPdu
  split
  · exact sends_empty h
  refine Post.bind (RetxWf.dropStaleRetx e _ h.retx_wf) fun queue hq => ?_
  dsimp only
  refine Fallible.post_ite (sends_empty (h.setRetxQueue hq)) ?_
  refine Post.bind (Fallible.post_eq _) fun retx hfront => ?_
  rw [Fallible.mapError_eq_ok] at hfront
  have hs : Stored ({ e with retxQueue := queue, retxSn := some retx.sn } : RlcTxAmEntity cfg) :=
    h.of_eq rfl rfl rfl rfl hq
  refine Post.bind (hs.sduAt_post _) fun info hinfo => ?_
  split
  · exact sends_empty (hs.setRetxQueue hq.pop)
  rename_i hfits
  refine Fallible.post_ite (sends_empty hs) ?_
  generalize hsi : (if retx.so = 0 then
      (if decide (retx.so + min retx.length (grantLen - getRetxExpectedHdrLen cfg retx) ≥ info.sdu.length) = true
        then RlcSiField.fullSdu else RlcSiField.firstSegment)
    else (if decide (retx.so + min retx.length (grantLen - getRetxExpectedHdrLen cfg retx) ≥ info.sdu.length) = true
        then RlcSiField.lastSegment else RlcSiField.middleSegment)) = si
  have hso : retx.so ≠ 0 ↔ si.hasSo = true := by
    rw [← hsi]
    split_ifs <;> simp_all [RlcSiField.hasSo]
  -- the front leaves the queue, or its remainder, shorter, takes its place
  refine Post.bind (Fallible.post_ite ((Fallible.post_pure _).mpr hq.pop)
    (Post.mapError (hq.replaceFront hfront (Nat.sub_le _ _)))) fun queue' hq' => ?_
  have hsE : Stored ({ e with retxQueue := queue', retxSn := some retx.sn } : RlcTxAmEntity cfg) :=
    h.of_eq rfl rfl rfl rfl hq'
  generalize hr : ({ e with retxQueue := queue', retxSn := some retx.sn } : RlcTxAmEntity cfg).getPollingBit
    retx.sn true 0 = r
  have hc : (dataHeader cfg r.2 si retx.sn retx.so).Codable :=
    dataHeader_codable (hr ▸ getPollingBit_le_one _ _ _ _) hinfo.1 (by have := hinfo.2; omega) hso
  split
  · trivial
  split
  · exact sends_empty (hr ▸ hsE.getPollingBit _ _ _)
  · rename_i hpl
    exact (Fallible.post_pure _).mpr
      ⟨hr ▸ hsE.getPollingBit _ _ _, .inr (framed_data hc (List.ne_nil_of_length_pos (by omega)))⟩

theorem pullPdu_sends (h : Stored e) (grantLen : Nat) (status : Option RlcAmStatusPdu) :
    Post (Sends cfg) (fun _ => True) (e.pullPdu grantLen status) := by
  unfold pullPdu
  cases status with
  | some status =>
    -- the status PDU the receiver provides, trimmed to the grant
    dsimp only
    generalize (if status.packedSize > grantLen then status.trim grantLen else (true, status)) = r
    split_ifs
    · exact sends_empty h
    · exact sends_empty h
    · exact ⟨h, .inr (.inl ⟨_, rfl⟩)⟩
  | none =>
    dsimp only
    split
    · exact buildRetxPdu_sends h grantLen
    split
    · rename_i sn _
      split
      · rename_i info hget
        exact buildContinuedSduSegment_sends h grantLen sn (h.window sn info hget).2
      · rw [Fallible.pure_eq_ok, Fallible.ok_bind]
        split
        · exact sends_empty (h.of_eq rfl rfl rfl rfl h.retx_wf)
        · refine buildNewPdu_sends ?_ grantLen
          exact h.of_eq rfl rfl rfl rfl h.retx_wf
    · rw [Fallible.pure_eq_ok, Fallible.ok_bind]
      split
      · exact sends_empty h
      · exact buildNewPdu_sends h grantLen

/-! ## Status reports and the expiry of t-PollRetransmit -/

theorem Stored.handleNack (h : Stored e) (nack : RlcAmStatusNack) :
    Post (fun r => Stored r.1) (fun _ => True) (e.handleNack nack) := by
  unfold RlcTxAmEntity.handleNack
  split
  · exact h
  split
  · exact h
  refine Post.bind (Q := fun _ => True) (by cases e.sduAt nack.nackSn <;> trivial) fun info _ => ?_
  -- every branch returns the entity, or it with one more ReTx queued
  simp only [Fallible.pure_eq_ok, Fallible.ok_bind]
  repeat' apply Fallible.post_ite
  all_goals first
    | exact h
    | exact h.of_eq rfl rfl rfl rfl (h.retx_wf.tryPush (clampNack_retx_length_le _ _))

theorem Stored.nackOne (h : Stored e) (prev : Option Nat) (nack : RlcAmStatusNack) :
    Post (fun r => Stored r.1) (fun _ => True) (e.nackOne prev nack) := by
  unfold RlcTxAmEntity.nackOne
  refine Post.bind (h.handleNack nack) fun ⟨e₁, queued⟩ h₁ => ?_
  dsimp only
  split_ifs
  · exact Post.bind (h₁.incrementRetxCount _) fun e₂ h₂ => h₂
  · exact h₁

/-- The NACK range loop keeps `Stored`. Induction on the fuel. -/
theorem Stored.nackRangeLoop (ackSn : Nat) (nack : RlcAmStatusNack) (fuel : Nat) :
    ∀ {e : RlcTxAmEntity cfg} (rangeSn : Nat) (prev : Option Nat), Stored e →
      Post (fun r => Stored r.1) (fun _ => True) (e.nackRangeLoop ackSn nack fuel rangeSn prev) := by
  induction fuel with
  | zero => intro e rangeSn prev h; exact h
  | succ fuel ih =>
    intro e rangeSn prev h
    unfold RlcTxAmEntity.nackRangeLoop
    split_ifs
    · exact h
    · exact h
    · exact Post.bind (h.nackOne _ _) fun r hr => ih _ _ hr

/-- The NACK loop keeps `Stored`. Induction on the NACKs. -/
theorem Stored.nackLoop (ackSn : Nat) (nacks : List RlcAmStatusNack) :
    ∀ {e : RlcTxAmEntity cfg} (prev : Option Nat), Stored e →
      Post Stored (fun _ => True) (e.nackLoop ackSn nacks prev) := by
  induction nacks with
  | nil => intro e prev h; exact h
  | cons nack rest ih =>
    intro e prev h
    unfold RlcTxAmEntity.nackLoop
    dsimp only
    split
    · exact Post.bind (h.nackRangeLoop ackSn nack _ _ _) fun ⟨e₁, prev₁⟩ h₁ => ih prev₁ h₁
    · exact Post.bind (h.nackOne _ _) fun ⟨e₁, prev₁⟩ h₁ => ih prev₁ h₁

/-- The ACK loop removes SDUs from the window. Induction on the fuel. -/
theorem Stored.ackLoop (stopSn fuel : Nat) :
    ∀ {e : RlcTxAmEntity cfg} (sn : Nat), Stored e → Post Stored (fun _ => True) (e.ackLoop stopSn fuel sn) := by
  induction fuel with
  | zero => intro e sn h; exact h
  | succ fuel ih =>
    intro e sn h
    unfold RlcTxAmEntity.ackLoop
    split_ifs
    · cases hrm : e.txWindow.removeSn sn with
      | error err => trivial
      | ok w => exact ih _ ⟨h.txNext_lt, h.queue_short, h.window.removeSn hrm, h.log_framed, h.retx_wf⟩
    · exact h
    · exact h

/-- Emptying the ReTx queue keeps `Stored`. Induction on the fuel. -/
theorem Stored.clearRetxQueue (fuel : Nat) :
    ∀ {e : RlcTxAmEntity cfg}, Stored e → Post Stored (fun _ => True) (e.clearRetxQueue fuel) := by
  induction fuel with
  | zero => intro e h; exact h
  | succ fuel ih =>
    intro e h
    unfold RlcTxAmEntity.clearRetxQueue
    split
    · exact h
    refine Post.bind (Fallible.post_true _) fun retx _ => ?_
    dsimp only
    split
    · -- a new SN of the queue: its ReTx count is taken back
      split
      · exact Post.bind (h.decrementRetxCount _) fun e₁ h₁ => ih (h₁.of_eq rfl rfl rfl rfl h₁.retx_wf.pop)
      · exact ih (h.of_eq rfl rfl rfl rfl h.retx_wf.pop)
    · exact ih (h.of_eq rfl rfl rfl rfl h.retx_wf.pop)

theorem Stored.handleStatusPdu (h : Stored e) (status : RlcAmStatusPdu) :
    Post Stored (fun _ => True) (e.handleStatusPdu status) := by
  unfold RlcTxAmEntity.handleStatusPdu
  split_ifs
  · exact h
  · exact h
  · exact h
  all_goals
    refine Post.bind (Stored.ackLoop _ _ _ (h.of_eq rfl rfl rfl rfl h.retx_wf)) fun e₁ h₁ => ?_
    refine Post.bind (h₁.clearRetxQueue _) fun e₂ h₂ => ?_
    exact Stored.nackLoop _ _ _ (h₂.of_eq rfl rfl rfl rfl h₂.retx_wf)

theorem Stored.onExpiredPollRetransmitTimer (h : Stored e) :
    Post Stored (fun _ => True) e.onExpiredPollRetransmitTimer := by
  unfold RlcTxAmEntity.onExpiredPollRetransmitTimer
  dsimp only
  split
  · -- the queues are idle or the window is full: the SDU `TX_Next_Ack` goes to the ReTx queue
    split
    · exact h
    · split
      · exact h
      · refine Post.bind (h.sduAt_post _) fun info hinfo => ?_
        split
        · -- the whole SDU, shorter than 2^16 octets, is queued for ReTx
          refine Post.bind (Q := Stored) (Stored.incrementRetxCount ?_ _) fun e₁ h₁ => ?_
          · exact h.of_eq rfl rfl rfl rfl (h.retx_wf.tryPush (Nat.le_of_lt hinfo.2))
          · exact h₁.of_eq rfl rfl rfl rfl h₁.retx_wf
        · exact h.of_eq rfl rfl rfl rfl h.retx_wf
  · exact h.of_eq rfl rfl rfl rfl h.retx_wf

/-! ## Runs -/

/-- `handle_sdu` of a short SDU keeps `Stored`: the queue gains only that SDU. -/
theorem Stored.handleSdu (h : Stored e) {buf : List UInt8} (hbuf : buf.length < 2 ^ 16) (isRetx : Bool) :
    Post Stored (fun _ => True) (e.handleSdu buf isRetx) := by
  unfold RlcTxAmEntity.handleSdu
  cases getPdcpSn buf cfg.pdcpSnLen with
  | error err => trivial
  | ok pdcpSn =>
    rw [Fallible.mapError_ok, Fallible.ok_bind]
    dsimp only
    generalize hw : e.sduQueue.write _ = r
    cases r with
    | error err => trivial
    | ok r =>
      obtain ⟨b, q⟩ := r
      refine ⟨h.txNext_lt, fun sdu hsdu => ?_, h.window, h.log_framed, h.retx_wf⟩
      rcases RlcSduQueue.mem_write hw hsdu with hold | rfl
      · exact h.queue_short sdu hold
      · exact hbuf

theorem Stored.discardSdu (h : Stored e) (pdcpSn : Nat) :
    Fallible.Post Stored (fun _ => True) (e.discardSdu pdcpSn) := by
  unfold RlcTxAmEntity.discardSdu
  generalize hd : e.sduQueue.tryDiscard pdcpSn = r
  cases r with
  | error err => trivial
  | ok r =>
    obtain ⟨b, q⟩ := r
    have hq := RlcSduQueue.queue_tryDiscard hd
    exact ⟨h.txNext_lt, fun sdu hsdu => h.queue_short sdu (hq ▸ hsdu), h.window, h.log_framed, h.retx_wf⟩

/-- A PDU a builder sends goes to the log framed. -/
theorem Sends.log {r : RlcTxAmEntity cfg × List UInt8} (h : Sends cfg r) :
    Stored (if r.2.isEmpty then r.1 else { r.1 with pdus := r.1.pdus ++ [r.2] }) := by
  obtain ⟨hs, hpdu⟩ := h
  split
  · exact hs
  · rename_i hne
    have hframed : Framed cfg r.2 := hpdu.resolve_left fun h0 => hne (by simp [h0])
    refine ⟨hs.txNext_lt, hs.queue_short, hs.window, fun pdu hmem => ?_, hs.retx_wf⟩
    rcases List.mem_append.mp hmem with hold | hnew
    · exact hs.log_framed pdu hold
    · rw [List.mem_singleton.mp hnew]
      exact hframed

/-- The step lemma: every event whose SDU is short keeps `Stored`. -/
theorem Stored.step (h : Stored e) {ev : RlcTxAmEvent} (hev : ShortEvent ev) :
    Post Stored (fun _ => True) (e.step ev) := by
  cases ev with
  | sdu buf isRetx => exact h.handleSdu hev isRetx
  | discardSdu pdcpSn => exact h.discardSdu pdcpSn
  | pullPdu grantLen status =>
    exact Post.bind (pullPdu_sends h grantLen status) fun ⟨e₁, pdu⟩ hs => hs.log
  | statusPdu status => exact h.handleStatusPdu status
  | pollRetransmitTimerExpiry =>
    rw [RlcTxAmEntity.step]
    split
    · exact Stored.onExpiredPollRetransmitTimer (h.of_eq rfl rfl rfl rfl h.retx_wf)
    · exact h

theorem stored_create (cfg : RlcTxAmConfig) : Stored (create cfg) where
  txNext_lt := mod_pos cfg
  queue_short := fun _ h => by simp [create, RlcSduQueue.create] at h
  window := SduWindow.all_empty _
  log_framed := fun _ h => by simp [create] at h
  retx_wf := by
    -- a buffer of 2048 ReTx of at most 2^16 octets holds fewer than 2^32
    intro hsn
    have hsize : amWindowSize cfg = 2048 := by rw [amWindowSize, hsn]; rfl
    exact RlcRetxQueue.wf_create (by rw [hsize]; norm_num) (by rw [hsize]; norm_num)

/-- The run lemma: every run of events whose SDUs are short keeps `Stored`
from the entity's creation. -/
theorem run_stored {es : List RlcTxAmEvent} (hes : ∀ ev ∈ es, ShortEvent ev)
    (hrun : Transition.run step (create cfg) es = .ok e) : Stored e := by
  refine Transition.run_invariant (fun e₀ ev e₁ hev h₀ hstep => ?_) (stored_create cfg) hes hrun
  have hpost := h₀.step hev
  rw [hstep] at hpost
  exact hpost

/-- So every PDU `pull_pdu` has returned is framed. -/
theorem run_framed {es : List RlcTxAmEvent} (hes : ∀ ev ∈ es, ShortEvent ev)
    (hrun : Transition.run step (create cfg) es = .ok e) : ∀ pdu ∈ e.pdus, Framed cfg pdu :=
  (run_stored hes hrun).log_framed

/-- With 12-bit SNs, over every run of events whose SDUs are shorter than
2^16 octets, from the entity's creation, the ReTx queue counts its ReTx:
`state()`, which the buffer-state report reads, is their octets and their
numbers with zero and non-zero SO, no ReTx it holds takes a clamping branch
of `subtract`, and `front()` of a non-empty queue returns its first ReTx
without an assertion. -/
theorem run_retxQueue_accounting (hsn : cfg.snFieldLength = .size12bits) {es : List RlcTxAmEvent}
    (hes : ∀ ev ∈ es, ShortEvent ev) (hrun : Transition.run step (create cfg) es = .ok e) :
    e.retxQueue.state = RlcRetxQueueState.accounts e.retxQueue.valid ∧
      (∀ x ∈ e.retxQueue.valid, ¬ e.retxQueue.state.Saturates x) ∧
      (e.retxQueue.empty = false → ∃ retx, e.retxQueue.front = .ok retx ∧ e.retxQueue.valid.head? = some retx) :=
  ((run_stored hes hrun).retx_wf hsn).reads

/-- An SDU sent whole, then the expiry of t-PollRetransmit with nothing else to
send: the SDU is queued for ReTx, and counted. -/
theorem run_retxQueue_accounting_pollExpiry :
    let cfg : RlcTxAmConfig := ⟨.size12bits, .size12bits, 45, 4, 4, 25, 16, 0, false⟩
    ∃ e : RlcTxAmEntity cfg, Transition.run step (create cfg)
        [.sdu [0x80, 0x00, 0x01] false, .pullPdu 10 none, .pollRetransmitTimerExpiry] = .ok e ∧
      e.retxQueue.valid = [⟨0, 0, 3⟩] ∧
      e.retxQueue.state = RlcRetxQueueState.accounts e.retxQueue.valid ∧
      (∀ x ∈ e.retxQueue.valid, ¬ e.retxQueue.state.Saturates x) ∧
      (e.retxQueue.empty = false → ∃ retx, e.retxQueue.front = .ok retx ∧ e.retxQueue.valid.head? = some retx) := by
  intro cfg
  obtain ⟨e, hrun, hvalid⟩ := Fallible.exists_ok_of_toOption_map
    (show (Transition.run step (create cfg)
        [.sdu [0x80, 0x00, 0x01] false, .pullPdu 10 none, .pollRetransmitTimerExpiry]).toOption.map
          (fun e : RlcTxAmEntity cfg => e.retxQueue.valid) = some [⟨0, 0, 3⟩] by decide +kernel)
  have hshort : ∀ ev ∈ [RlcTxAmEvent.sdu [0x80, 0x00, 0x01] false, .pullPdu 10 none, .pollRetransmitTimerExpiry],
      ShortEvent ev := by
    simp [ShortEvent]
  exact ⟨e, hrun, hvalid, run_retxQueue_accounting rfl hshort hrun⟩

end RlcTxAmEntity

end SrsRan.Rlc
