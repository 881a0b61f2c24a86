import SrsRan.Rlc.TxUm
import SrsRan.Rlc.TxAmFraming
import SrsRan.Lib.Fallible

/-!
What the UM transmitter sends over every run in which the SDUs handed to
`handle_sdu` are shorter than 2^16 octets: each PDU `pull_pdu` returns is a
header that `rlc_um_read_data_pdu_header` reads back, followed by payload.

The SO of a header is `next_so` as a `uint16_t`, and
`get_si_and_expected_header_size` picks a segment SI exactly when
`next_so ≠ 0`. `next_so` stays within the SDU being sent, so with short SDUs
the SO survives the cast and is non-zero exactly where the SI announces it.
-/

namespace SrsRan.Rlc

namespace RlcTxUmEntity

variable {cfg : RlcTxUmConfig}

/-- A PDU as the UM transmitter frames it: a header the codec carries, with
payload after it. -/
def Framed (cfg : RlcTxUmConfig) (pdu : List UInt8) : Prop :=
  ∃ (h : RlcUmPduHeader) (payload : List UInt8), h.snSize = cfg.snFieldLength ∧
    h.sn < cardinality h.snSize.toNumber ∧ SoFollowsSi h.si h.so ∧ payload ≠ [] ∧
    pdu = rlcUmWriteDataPduHeader h ++ payload

/-- The SDUs the entity holds are shorter than 2^16 octets, `next_so` lies
within the SDU being sent, `TX_Next` fits the SN field, and the PDUs sent are
framed. -/
structure Stored (e : RlcTxUmEntity cfg) : Prop where
  txNext_lt : e.txNext < mod cfg
  queue_short : ∀ sdu ∈ e.sduQueue.queue, sdu.buf.length < 2 ^ 16
  sdu_short : e.sdu.buf.length < 2 ^ 16
  nextSo_le : e.nextSo ≤ e.sdu.buf.length
  log_framed : ∀ pdu ∈ e.pdus, Framed cfg pdu

/-- The SDU of an event, if it has one, is shorter than 2^16 octets. -/
def ShortEvent : RlcTxUmEvent → Prop
  | .sdu buf _ => buf.length < 2 ^ 16
  | _ => True

/-- What `pull_pdu` guarantees: the entity keeps `Stored`, and the PDU is
empty or framed. -/
def Sends (cfg : RlcTxUmConfig) (r : RlcTxUmEntity cfg × List UInt8) : Prop :=
  Stored r.1 ∧ (r.2 = [] ∨ Framed cfg r.2)

variable {e : RlcTxUmEntity cfg}

theorem sends_empty (h : Stored e) : Sends cfg (e, []) := ⟨h, .inl rfl⟩

/-! ## The header of a PDU -/

/-- `get_si_and_expected_header_size` picks a segment SI exactly from a
non-zero offset. -/
theorem hasSo_of_getSiAndExpectedHeaderSize {so sduLen grantLen headLen : Nat} {si : RlcSiField}
    (h : e.getSiAndExpectedHeaderSize so sduLen grantLen = some (si, headLen)) :
    si.hasSo = true ↔ so ≠ 0 := by
  unfold getSiAndExpectedHeaderSize at h
  split_ifs at h with hso <;> cases h <;> simp [RlcSiField.hasSo, hso]

/-- The header of a PDU of an offset below 2^16 whose SI follows the offset is
carried by the codec. -/
theorem pduHeader_soFollowsSi {si : RlcSiField} (hso : e.nextSo < 2 ^ 16)
    (hsi : si.hasSo = true ↔ e.nextSo ≠ 0) : SoFollowsSi si (e.pduHeader si).so := by
  have hval : (UInt16.ofNat e.nextSo).toNat = e.nextSo := by
    rw [UInt16.toNat_ofNat', Nat.mod_eq_of_lt (by simpa using hso)]
  unfold SoFollowsSi pduHeader
  rw [hsi, Ne, Ne, ← UInt16.toNat_inj, hval, UInt16.toNat_zero]

/-! ## `pull_pdu` -/

/-- The SDU taken to send from keeps `Stored`: a new one comes from the queue
while none is under way, so that `next_so` is 0. -/
theorem Stored.takeSdu (h : Stored e) : Stored e.takeSdu.1 := by
  unfold RlcTxUmEntity.takeSdu
  split
  · rename_i hempty
    have hso : e.nextSo = 0 := by
      have := h.nextSo_le
      simp only [List.isEmpty_iff] at hempty
      simp [hempty] at this
      exact this
    obtain ⟨hread, hkeep⟩ := RlcSduQueue.mem_read (q := e.sduQueue)
    generalize e.sduQueue.read = r at hread hkeep
    obtain ⟨o, q⟩ := r
    cases o with
    | some sdu =>
      exact ⟨h.txNext_lt, fun x hx => h.queue_short x (hkeep x hx),
        h.queue_short sdu (hread sdu rfl), by simp [hso], h.log_framed⟩
    | none =>
      exact ⟨h.txNext_lt, fun x hx => h.queue_short x (hkeep x hx), h.sdu_short, h.nextSo_le,
        h.log_framed⟩
  · exact h

/-- The SDU is released after its last octet. -/
theorem Stored.release (h : Stored e) :
    Stored ({ e with sdu := { e.sdu with buf := [] }, nextSo := 0 } : RlcTxUmEntity cfg) :=
  ⟨h.txNext_lt, h.queue_short, Nat.two_pow_pos _, Nat.zero_le _, h.log_framed⟩

/-- `next_so` moves on by at most what is left of the SDU. -/
theorem Stored.advanceSo (h : Stored e) {n : Nat} (hn : n ≤ e.sdu.buf.length - e.nextSo) :
    Stored ({ e with nextSo := e.nextSo + n } : RlcTxUmEntity cfg) :=
  ⟨h.txNext_lt, h.queue_short, h.sdu_short, by have := h.nextSo_le; dsimp only; omega, h.log_framed⟩

/-- `TX_Next` moves on to the next SN. -/
theorem Stored.advance (h : Stored e) :
    Stored ({ e with txNext := (e.txNext + 1) % mod cfg } : RlcTxUmEntity cfg) :=
  ⟨Nat.mod_lt _ (Nat.two_pow_pos _), h.queue_short, h.sdu_short, h.nextSo_le, h.log_framed⟩

/-- The payload of a PDU comes from `next_so` to at most the end of the SDU. -/
theorem payloadLen_le (space : Nat) :
    (if space ≥ e.sdu.buf.length - e.nextSo then e.sdu.buf.length - e.nextSo else space) ≤
      e.sdu.buf.length - e.nextSo := by
  split <;> omega

/-- `build` step of `pull_pdu`: the header of SN `TX_Next` and SO `next_so`,
then the payload; the entity moves `next_so` on or releases the SDU. -/
theorem buildPdu_sends (h : Stored e) (grantLen : Nat) : Sends cfg (e.buildPdu grantLen) := by
  unfold buildPdu
  split
  · exact sends_empty h
  · rename_i si headLen hsel
    dsimp only
    generalize hpl : (if _ ≥ e.sdu.buf.length - e.nextSo then _ else _) = payloadLen
    have hle : payloadLen ≤ e.sdu.buf.length - e.nextSo := hpl ▸ payloadLen_le _
    split
    · exact sends_empty h
    · rename_i hbad
      refine ⟨?_, .inr ⟨e.pduHeader si, _, rfl, h.txNext_lt, ?_, ?_, rfl⟩⟩
      · -- the SDU is released after its last octet, or `next_so` moves on within it
        have h₁ : Stored (if si = .fullSdu ∨ si = .lastSegment then
            ({ e with sdu := { e.sdu with buf := [] }, nextSo := 0 } : RlcTxUmEntity cfg)
          else { e with nextSo := e.nextSo + payloadLen }) := by
          split
          · exact h.release
          · exact h.advanceSo hle
        by_cases hlast : si = .lastSegment
        · rw [if_pos hlast]
          exact h₁.advance
        · rw [if_neg hlast]
          exact h₁
      · exact pduHeader_soFollowsSi (by have := h.sdu_short; have := h.nextSo_le; omega)
          (hasSo_of_getSiAndExpectedHeaderSize hsel)
      · intro h0
        exact hbad (.inl (by rw [h0]; rfl))

theorem pullPdu_sends (h : Stored e) (grantLen : Nat) : Sends cfg (e.pullPdu grantLen) := by
  unfold pullPdu
  split_ifs
  · exact sends_empty h
  · dsimp only
    generalize htake : e.takeSdu = r
    have hr : Stored r.1 := htake ▸ h.takeSdu
    obtain ⟨e₁, found⟩ := r
    split_ifs
    · exact sends_empty hr
    · exact buildPdu_sends hr grantLen

/-! ## Runs -/

/-- `handle_sdu` of a short SDU keeps `Stored`: the queue gains only that SDU. -/
theorem Stored.handleSdu (h : Stored e) {buf : List UInt8} (hbuf : buf.length < 2 ^ 16) (isRetx : Bool) :
    Fallible.Post Stored (fun _ => True) (e.handleSdu buf isRetx) := by
  unfold RlcTxUmEntity.handleSdu
  cases getPdcpSn buf cfg.pdcpSnLen with
  | error err => trivial
  | ok pdcpSn =>
    rw [Fallible.mapError_ok, Fallible.ok_bind]
    dsimp only
    generalize hw : e.sduQueue.write _ = r
    cases r with
    | error err => trivial
    | ok r =>
      obtain ⟨b, q⟩ := r
      refine ⟨h.txNext_lt, fun sdu hsdu => ?_, h.sdu_short, h.nextSo_le, h.log_framed⟩
      rcases RlcSduQueue.mem_write hw hsdu with hold | rfl
      · exact h.queue_short sdu hold
      · exact hbuf

theorem Stored.discardSdu (h : Stored e) (pdcpSn : Nat) :
    Fallible.Post Stored (fun _ => True) (e.discardSdu pdcpSn) := by
  unfold RlcTxUmEntity.discardSdu
  generalize hd : e.sduQueue.tryDiscard pdcpSn = r
  cases r with
  | error err => trivial
  | ok r =>
    obtain ⟨b, q⟩ := r
    have hq := RlcSduQueue.queue_tryDiscard hd
    exact ⟨h.txNext_lt, fun sdu hsdu => h.queue_short sdu (hq ▸ hsdu), h.sdu_short, h.nextSo_le, h.log_framed⟩

/-- A PDU `pull_pdu` sends goes to the log framed. -/
theorem Sends.log {r : RlcTxUmEntity cfg × List UInt8} (h : Sends cfg r) :
    Stored (if r.2.isEmpty then r.1 else { r.1 with pdus := r.1.pdus ++ [r.2] }) := by
  obtain ⟨hs, hpdu⟩ := h
  split
  · exact hs
  · rename_i hne
    have hframed : Framed cfg r.2 := hpdu.resolve_left fun h0 => hne (by simp [h0])
    refine ⟨hs.txNext_lt, hs.queue_short, hs.sdu_short, hs.nextSo_le, fun pdu hmem => ?_⟩
    rcases List.mem_append.mp hmem with hold | hnew
    · exact hs.log_framed pdu hold
    · rw [List.mem_singleton.mp hnew]
      exact hframed

/-- The step lemma: every event whose SDU is short keeps `Stored`. -/
theorem Stored.step (h : Stored e) {ev : RlcTxUmEvent} (hev : ShortEvent ev) :
    Fallible.Post Stored (fun _ => True) (e.step ev) := by
  cases ev with
  | sdu buf isRetx => exact h.handleSdu hev isRetx
  | discardSdu pdcpSn => exact h.discardSdu pdcpSn
  | pullPdu grantLen => exact (pullPdu_sends h grantLen).log

theorem stored_create (cfg : RlcTxUmConfig) : Stored (create cfg) where
  txNext_lt := Nat.two_pow_pos _
  queue_short := fun _ h => by simp [create, RlcSduQueue.create] at h
  sdu_short := by simp [create]
  nextSo_le := Nat.zero_le _
  log_framed := fun _ h => by simp [create] at h

/-- The run lemma: over every run of events whose SDUs are short, from the
entity's creation, every PDU `pull_pdu` has returned is framed. -/
theorem run_framed {es : List RlcTxUmEvent} (hes : ∀ ev ∈ es, ShortEvent ev)
    (hrun : Transition.run step (create cfg) es = .ok e) : ∀ pdu ∈ e.pdus, Framed cfg pdu := by
  have hstored : Stored e := by
    refine Transition.run_invariant (fun e₀ ev e₁ hev h₀ hstep => ?_) (stored_create cfg) hes hrun
    have hpost := h₀.step hev
    rw [hstep] at hpost
    exact hpost
  exact hstored.log_framed

end RlcTxUmEntity

/-! ## The header codecs and the transmitters -/

/-- The data PDU header codecs of both modes round trip on the headers whose
SO is non-zero exactly where the SI announces one, except that a UM header of
a full SDU reads back with SN 0; and over every run of both transmitters from
their creation in which the SDUs are shorter than 2^16 octets, every data PDU
sent is such a header, with payload after it. -/
theorem dataPduHeader_roundTrip :
    (∀ (h : RlcAmPduHeader) (payload : List UInt8), h.Codable → payload ≠ [] →
      (rlcAmWriteDataPduHeader h).length = h.getPackedSize ∧
        rlcAmReadDataPduHeader (rlcAmWriteDataPduHeader h ++ payload) h.snSize = some h) ∧
    (∀ (h : RlcUmPduHeader) (payload : List UInt8), h.sn < cardinality h.snSize.toNumber →
      SoFollowsSi h.si h.so →
      (rlcUmWriteDataPduHeader h).length = rlcUmNrPackedLength h ∧
        rlcUmReadDataPduHeader (rlcUmWriteDataPduHeader h ++ payload) h.snSize =
          some (if h.si = .fullSdu then { h with sn := 0 } else h)) ∧
    (∀ (cfg : RlcTxAmConfig) (es : List RlcTxAmEvent) (e : RlcTxAmEntity cfg),
      (∀ ev ∈ es, RlcTxAmEntity.ShortEvent ev) →
      Transition.run RlcTxAmEntity.step (RlcTxAmEntity.create cfg) es = .ok e →
      ∀ pdu ∈ e.pdus, RlcTxAmEntity.Framed cfg pdu) ∧
    (∀ (cfg : RlcTxUmConfig) (es : List RlcTxUmEvent) (e : RlcTxUmEntity cfg),
      (∀ ev ∈ es, RlcTxUmEntity.ShortEvent ev) →
      Transition.run RlcTxUmEntity.step (RlcTxUmEntity.create cfg) es = .ok e →
      ∀ pdu ∈ e.pdus, RlcTxUmEntity.Framed cfg pdu) := by
  refine ⟨fun h payload hc hpl => ?_, fun h payload hsn hso => ?_, ?_, ?_⟩
  · exact ⟨length_rlcAmWriteDataPduHeader hc.so_follows_si, rlcAmReadDataPduHeader_write hc hpl⟩
  · exact ⟨length_rlcUmWriteDataPduHeader h, rlcUmReadDataPduHeader_write hsn hso payload⟩
  · intro cfg es e hes hrun
    exact RlcTxAmEntity.run_framed hes hrun
  · intro cfg es e hes hrun
    exact RlcTxUmEntity.run_framed hes hrun

/-- An AM middle segment and a UM last segment read back; and an SDU that each
transmitter sends in two segments over two grants gives two framed PDUs. -/
theorem dataPduHeader_roundTrip_segmented :
    let amCfg : RlcTxAmConfig := ⟨.size12bits, .size12bits, 45, 4, 4, 25, 16, 0, false⟩
    let umCfg : RlcTxUmConfig := ⟨.size6bits, .size12bits, 16⟩
    rlcAmReadDataPduHeader (rlcAmWriteDataPduHeader ⟨.data, 1, .middleSegment, .size12bits, 5, 3⟩ ++ [0xAA])
        .size12bits = some ⟨.data, 1, .middleSegment, .size12bits, 5, 3⟩ ∧
      rlcUmReadDataPduHeader (rlcUmWriteDataPduHeader ⟨.lastSegment, .size6bits, 2, 4⟩ ++ [0xBB]) .size6bits =
        some ⟨.lastSegment, .size6bits, 2, 4⟩ ∧
      (∃ e : RlcTxAmEntity amCfg, Transition.run RlcTxAmEntity.step (RlcTxAmEntity.create amCfg)
          [.sdu [0x80, 0x00, 0x01, 0x02, 0x03] false, .pullPdu 5 none, .pullPdu 8 none] = .ok e ∧
        e.pdus = [[0x90, 0x00, 0x80, 0x00, 0x01], [0xE0, 0x00, 0x00, 0x03, 0x02, 0x03]] ∧
        ∀ pdu ∈ e.pdus, RlcTxAmEntity.Framed amCfg pdu) ∧
      ∃ e : RlcTxUmEntity umCfg, Transition.run RlcTxUmEntity.step (RlcTxUmEntity.create umCfg)
          [.sdu [0x80, 0x00, 0x01, 0x02] false, .pullPdu 3, .pullPdu 10] = .ok e ∧
        e.pdus = [[0x40, 0x80, 0x00], [0x80, 0x00, 0x02, 0x01, 0x02]] ∧
        ∀ pdu ∈ e.pdus, RlcTxUmEntity.Framed umCfg pdu := by
  intro amCfg umCfg
  obtain ⟨hAm, hUm, hAmRun, hUmRun⟩ := dataPduHeader_roundTrip
  obtain ⟨e, he, hpdus⟩ := Fallible.exists_ok_of_toOption_map
    (show (Transition.run RlcTxAmEntity.step (RlcTxAmEntity.create amCfg)
        [.sdu [0x80, 0x00, 0x01, 0x02, 0x03] false, .pullPdu 5 none, .pullPdu 8 none]).toOption.map
          (fun e : RlcTxAmEntity amCfg => e.pdus) =
        some [[0x90, 0x00, 0x80, 0x00, 0x01], [0xE0, 0x00, 0x00, 0x03, 0x02, 0x03]] by decide +kernel)
  obtain ⟨u, hu, hupdus⟩ := Fallible.exists_ok_of_toOption_map
    (show (Transition.run RlcTxUmEntity.step (RlcTxUmEntity.create umCfg)
        [.sdu [0x80, 0x00, 0x01, 0x02] false, .pullPdu 3, .pullPdu 10]).toOption.map
          (fun e : RlcTxUmEntity umCfg => e.pdus) = some [[0x40, 0x80, 0x00], [0x80, 0x00, 0x02, 0x01, 0x02]] by
      decide +kernel)
  have hshortAm : ∀ ev ∈ [RlcTxAmEvent.sdu [0x80, 0x00, 0x01, 0x02, 0x03] false, .pullPdu 5 none, .pullPdu 8 none],
      RlcTxAmEntity.ShortEvent ev := by
    simp [RlcTxAmEntity.ShortEvent]
  have hshortUm : ∀ ev ∈ [RlcTxUmEvent.sdu [0x80, 0x00, 0x01, 0x02] false, .pullPdu 3, .pullPdu 10],
      RlcTxUmEntity.ShortEvent ev := by
    simp [RlcTxUmEntity.ShortEvent]
  have hcodable : RlcAmPduHeader.Codable ⟨.data, 1, .middleSegment, .size12bits, 5, 3⟩ :=
    ⟨by decide, by decide, by unfold SoFollowsSi; decide⟩
  refine ⟨(hAm _ [0xAA] hcodable (by simp)).2,
    (hUm ⟨.lastSegment, .size6bits, 2, 4⟩ [0xBB] (by decide) (by unfold SoFollowsSi; decide)).2.trans rfl,
    ⟨e, he, hpdus, hAmRun amCfg _ e hshortAm he⟩, ⟨u, hu, hupdus, hUmRun umCfg _ u hshortUm hu⟩⟩

/-- The UM header of a full SDU carries no SN, yet `pull_pdu` builds it with
SN `TX_Next`. With 6-bit SNs, the SDU `80 00 01 02` goes out in two segments
of SN 0, which moves `TX_Next` to 1; the next SDU `80 00 05` fits a 10-octet
grant whole, under the header of SN 1, and that header reads back with SN 0. -/
theorem RlcTxUmEntity.pullPdu_full_sdu_header_reads_sn_zero :
    let cfg : RlcTxUmConfig := ⟨.size6bits, .size12bits, 16⟩
    ∃ e : RlcTxUmEntity cfg,
      Transition.run RlcTxUmEntity.step (RlcTxUmEntity.create cfg)
          [.sdu [0x80, 0x00, 0x01, 0x02] false, .pullPdu 3, .pullPdu 10, .sdu [0x80, 0x00, 0x05] false] =
        .ok e ∧
      (e.pullPdu 10).2 = rlcUmWriteDataPduHeader (e.pduHeader .fullSdu) ++ [0x80, 0x00, 0x05] ∧
      (e.pduHeader .fullSdu).sn = 1 ∧
      rlcUmReadDataPduHeader (e.pullPdu 10).2 .size6bits = some { e.pduHeader .fullSdu with sn := 0 } := by
  intro cfg
  obtain ⟨e, hrun, hfacts⟩ := Fallible.exists_ok_of_toOption_map
    (show (Transition.run RlcTxUmEntity.step (RlcTxUmEntity.create cfg)
          [.sdu [0x80, 0x00, 0x01, 0x02] false, .pullPdu 3, .pullPdu 10,
            .sdu [0x80, 0x00, 0x05] false]).toOption.map
        (fun e : RlcTxUmEntity cfg => ((e.pullPdu 10).2, e.pduHeader .fullSdu)) =
      some ([0x00, 0x80, 0x00, 0x05], ⟨.fullSdu, .size6bits, 1, 0⟩) by decide +kernel)
  simp only [Prod.mk.injEq] at hfacts
  obtain ⟨hpdu, hheader⟩ := hfacts
  refine ⟨e, hrun, ?_, ?_, ?_⟩
  · rw [hpdu, hheader]
    decide
  · rw [hheader]
  · rw [hpdu, hheader]
    decide

end SrsRan.Rlc
