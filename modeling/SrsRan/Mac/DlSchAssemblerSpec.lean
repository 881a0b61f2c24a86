import SrsRan.Mac.DlSchPduSpec

/-!
What `assemble_newtx_pdu` builds. Each scheduled entry contributes a block of
subPDUs: the SDUs its bearer wrote, in the order written, or its CE; then one
padding subPDU fills what is left of the transport block.

`assembleNewtxPdu_octets` says this for any bearer that writes no more than
the buffer it is offered, with the octets `macOctets` the assembler writes.
The loop of `assemble_sdus` is its centre: `assembleSdusLoop_round` is one
round, `assembleSdusLoop_spec` the loop by induction on the octets left.

To speak of what the bearers wrote, the bearers are run `recording`: each
records the non-empty SDU it writes, with its LCID, and behaves as before.
-/

namespace SrsRan.Mac

variable {σ τ : Type}

/-! ## What the scheduled entries contribute -/

/-- `ue` with each bearer recording the non-empty SDUs it writes. -/
def DlUeContext.recording (ue : DlUeContext σ) : DlUeContext (σ × List (LcidDlSch × List UInt8)) where
  conResId := ue.conResId
  onNewTxSdu := fun (s, log) lcid n =>
    let (s, sdu) := ue.onNewTxSdu s lcid n
    ((s, if sdu = [] then log else log ++ [(lcid, sdu)]), sdu)

/-- The TAG ID and command octet `add_tag_cmd` writes. -/
def taCmdOctet (cePayload : TaCmdCePayload) : UInt8 :=
  UInt8.ofNat ((cePayload.tagId.toNat &&& 0xc0) ||| (cePayload.taCmd &&& 0x3f))

/-- The subPDU `assemble_ce` writes for a CE entry, if it writes one. -/
def ceSubPdu (conResId : UeConResId) (lc : DlMsgLcInfo) : Option DlSchSubPdu :=
  if lc.lcid = LcidDlSch.ueConResId then some (.ueConResId conResId.toList)
  else if lc.lcid = LcidDlSch.taCmd then
    match lc.cePayload with
    | .taCmd cePayload => some (.taCmd (taCmdOctet cePayload))
    | .dummy => none
  else none

/-- The octets the scheduler set aside for an entry: an SDU of `sched_bytes`
with its subheader, or a fixed-size CE with its one-octet subheader. -/
def scheduledSize (lc : DlMsgLcInfo) : Nat :=
  if lc.lcid.isSdu then getMacSduRequiredBytes lc.schedBytes
  else fixedSizedMacCeSubheaderSize + lc.lcid.sizeofCe

/-- The subPDUs of the blocks: for a logical channel, its SDUs; for a CE, the CE. -/
def blockSubPdus (conResId : UeConResId) (blocks : List (DlMsgLcInfo × List (List UInt8))) :
    List DlSchSubPdu :=
  blocks.flatMap fun b =>
    if b.1.lcid.isSdu then b.2.map (.sdu b.1.lcid.value) else (ceSubPdu conResId b.1).toList

/-- The SDUs of the blocks with their LCIDs, in order. -/
def blockSdus (blocks : List (DlMsgLcInfo × List (List UInt8))) : List (LcidDlSch × List UInt8) :=
  blocks.flatMap fun b => if b.1.lcid.isSdu then b.2.map (b.1.lcid, ·) else []

@[simp] theorem blockSubPdus_nil (conResId : UeConResId) : blockSubPdus conResId [] = [] := rfl

@[simp] theorem blockSubPdus_cons (conResId : UeConResId) (b : DlMsgLcInfo × List (List UInt8)) blocks :
    blockSubPdus conResId (b :: blocks) =
      (if b.1.lcid.isSdu then b.2.map (.sdu b.1.lcid.value) else (ceSubPdu conResId b.1).toList) ++
        blockSubPdus conResId blocks := rfl

@[simp] theorem blockSdus_nil : blockSdus [] = [] := rfl

@[simp] theorem blockSdus_cons (b : DlMsgLcInfo × List (List UInt8)) blocks :
    blockSdus (b :: blocks) = (if b.1.lcid.isSdu then b.2.map (b.1.lcid, ·) else []) ++ blockSdus blocks := rfl

/-- The padding subPDU after `used` octets of a transport block of `tb`, when
there is room left: its length after the subheader. -/
def paddingFor (tb used : Nat) : Option Nat :=
  if used < tb then some (tb - used - 1) else none

/-! ## The loop of `assemble_sdus` -/

section Loop

variable (ue : DlUeContext τ) (lcid : LcidDlSch) {minSize : Nat}

theorem assembleSdusLoop_of_lt (p : DlSchPdu) (st : τ) {rem : Nat} (h : rem < minSize) :
    assembleSdusLoop ue lcid minSize p st rem = .ok (p, st, rem) := by
  rw [assembleSdusLoop, if_pos h]

theorem assembleSdusLoop_of_getSduEncoder_none {p : DlSchPdu} (st : τ) {rem : Nat} (hrem : minSize ≤ rem)
    (henc : p.getSduEncoder lcid (getMacSduPayloadSize rem) = none) :
    assembleSdusLoop ue lcid minSize p st rem = .ok (p, st, rem) := by
  rw [assembleSdusLoop, if_neg (by omega), henc]

variable {p : DlSchPdu} {pre r : List UInt8} {st st' : τ} {rem : Nat} {enc : MacSduEncoder}

/-- The round in which the bearer writes nothing ends the loop. -/
theorem assembleSdusLoop_of_empty (h : p.Holds pre r) (hrem : minSize ≤ rem)
    (henc : p.getSduEncoder lcid (getMacSduPayloadSize rem) = some enc)
    (hsdu : ue.onNewTxSdu st lcid enc.maxSduSize = (st', [])) :
    ∃ p', assembleSdusLoop ue lcid minSize p st rem = .ok (p', st', rem) ∧ p'.Holds pre r := by
  obtain ⟨-, hsub, -, hfitR, -⟩ := DlSchPdu.getSduEncoder_spec h henc
  have hfit : enc.subhrLen + enc.maxSduSize ≤ r.length := by unfold getMacSduRequiredBytes at hfitR; omega
  have hbuf := DlSchPdu.sduBuffer_holds h hfit
  obtain ⟨p1, hw, hp1⟩ := DlSchPdu.writeRaw_holds h enc.subhrLen [] (by simp; omega)
  refine ⟨p1, ?_, by rwa [writeAt_nil] at hp1⟩
  rw [assembleSdusLoop, if_neg (by omega), henc]
  simp only [hbuf, Fallible.ok_bind, hsdu, hw, List.length_nil, if_true, Fallible.pure_eq_ok]

/-- One round of the loop: the bearer writes a non-empty SDU that fits its
buffer, and the SDU and its subheader take at most the octets left. -/
theorem assembleSdusLoop_round {sdu : List UInt8} (h : p.Holds pre r) (hmin : 3 ≤ minSize) (hrem : minSize ≤ rem)
    (henc : p.getSduEncoder lcid (getMacSduPayloadSize rem) = some enc)
    (hsdu : ue.onNewTxSdu st lcid enc.maxSduSize = (st', sdu)) (hne : sdu ≠ []) (hle : sdu.length ≤ enc.maxSduSize) :
    ∃ p' r', assembleSdusLoop ue lcid minSize p st rem =
        assembleSdusLoop ue lcid minSize p' st' (rem - (macOctets (.sdu lcid.value sdu)).length) ∧
      p'.Holds (pre ++ macOctets (.sdu lcid.value sdu)) r' ∧
      r'.length = r.length - (macOctets (.sdu lcid.value sdu)).length ∧
      (macOctets (.sdu lcid.value sdu)).length ≤ rem := by
  obtain ⟨hlcid, hsub, hpos, hfitR, hfitE⟩ := DlSchPdu.getSduEncoder_spec h henc
  have hfit : enc.subhrLen + enc.maxSduSize ≤ r.length := by unfold getMacSduRequiredBytes at hfitR; omega
  have hbuf := DlSchPdu.sduBuffer_holds h hfit
  obtain ⟨p1, hw, hp1⟩ := DlSchPdu.writeRaw_holds h enc.subhrLen sdu (by omega)
  obtain ⟨p2, r2, hE, hp2, hr2⟩ := DlSchPdu.encodeSdu_holds hp1 hsub hfit hne hle
  rw [hlcid] at hE hp2 hr2
  -- the SDU and its subheader fit what the encoder was given, which fits the octets left
  have hused : (macOctets (.sdu lcid.value sdu)).length ≤ rem := by
    have hn := List.length_pos_iff.mpr hne
    have hmono := getMacSduSubheaderSize_le_of_le hn hle
    have hrest := (getMacSduPayloadSize_fits (s := rem) (by omega)).2
    rw [length_macOctets_sdu _ hne]
    unfold getMacSduRequiredBytes at hfitE hrest ⊢
    omega
  have hpos' : (macOctets (.sdu lcid.value sdu)).length ≠ 0 := by
    rw [length_macOctets_sdu _ hne]
    have := three_le_getMacSduRequiredBytes (List.length_pos_iff.mpr hne)
    omega
  refine ⟨p2, r2, ?_, hp2, hr2, hused⟩
  rw [assembleSdusLoop, if_neg (by omega), henc]
  simp only [hbuf, Fallible.ok_bind, hsdu, hw, List.length_eq_zero_iff, hne, if_false, hE, hpos',
    show ¬ rem < (macOctets (.sdu lcid.value sdu)).length by omega]

end Loop

/-! ## The whole loop, with the bearers recording -/

section Recording

variable (ue : DlUeContext σ) (Good : List UInt8 → Prop)

theorem recording_onNewTxSdu {s s' : σ} {lcid : LcidDlSch} {n : Nat} {sdu : List UInt8}
    (h : ue.onNewTxSdu s lcid n = (s', sdu)) (log : List (LcidDlSch × List UInt8)) :
    ue.recording.onNewTxSdu (s, log) lcid n = ((s', if sdu = [] then log else log ++ [(lcid, sdu)]), sdu) := by
  simp [DlUeContext.recording, h]

/-- The loop of `assemble_sdus` writes, after the octets already there, the
SDUs the bearer wrote in order, each with its subheader, and takes from
`rem` exactly the octets it writes. Induction on `rem`, which each round
lowers by the octets of one subPDU. -/
theorem assembleSdusLoop_spec (hrlc : ∀ s lcid n, (ue.onNewTxSdu s lcid n).2.length ≤ n ∧ Good (ue.onNewTxSdu s lcid n).2)
    (lcid : LcidDlSch) {minSize : Nat} (hmin : 3 ≤ minSize) (rem : Nat) :
    ∀ (p : DlSchPdu) (pre r : List UInt8) (st : σ) (log : List (LcidDlSch × List UInt8)), p.Holds pre r →
      ∃ (sdus : List (List UInt8)) (p' : DlSchPdu) (r' : List UInt8) (st' : σ) (rem' : Nat),
        assembleSdusLoop ue.recording lcid minSize p (st, log) rem = .ok (p', (st', log ++ sdus.map (lcid, ·)), rem') ∧
        p'.Holds (pre ++ (sdus.map (.sdu lcid.value)).flatMap macOctets) r' ∧
        ((sdus.map (.sdu lcid.value)).flatMap macOctets).length + rem' = rem ∧
        r'.length = r.length - ((sdus.map (.sdu lcid.value)).flatMap macOctets).length ∧
        ∀ sdu ∈ sdus, sdu ≠ [] ∧ Good sdu := by
  induction rem using Nat.strong_induction_on with
  | _ rem ih =>
  intro p pre r st log h
  by_cases hlt : rem < minSize
  · -- too few octets left for an SDU of this LCID
    refine ⟨[], p, r, st, rem, ?_, by simpa using h, by simp, by simp, by simp⟩
    rw [assembleSdusLoop_of_lt _ _ _ _ hlt]
    simp
  cases henc : p.getSduEncoder lcid (getMacSduPayloadSize rem) with
  | none =>
    refine ⟨[], p, r, st, rem, ?_, by simpa using h, by simp, by simp, by simp⟩
    rw [assembleSdusLoop_of_getSduEncoder_none _ _ _ (by omega) henc]
    simp
  | some enc =>
    rcases hres : ue.onNewTxSdu st lcid enc.maxSduSize with ⟨st₁, sdu⟩
    have hrec := recording_onNewTxSdu ue hres log
    have hle : sdu.length ≤ enc.maxSduSize := by simpa [hres] using (hrlc st lcid enc.maxSduSize).1
    by_cases hne : sdu = []
    · -- the bearer has nothing to send
      subst hne
      rw [if_pos rfl] at hrec
      obtain ⟨p', hrun, hp'⟩ := assembleSdusLoop_of_empty ue.recording lcid h (show minSize ≤ rem by omega) henc hrec
      exact ⟨[], p', r, st₁, rem, by simpa using hrun, by simpa using hp', by simp, by simp, by simp⟩
    · -- one SDU, then the rest of the loop
      rw [if_neg hne] at hrec
      obtain ⟨p₁, r₁, hstep, hp₁, hr₁, hused⟩ :=
        assembleSdusLoop_round ue.recording lcid h hmin (show minSize ≤ rem by omega) henc hrec hne hle
      have hpos : 0 < (macOctets (.sdu lcid.value sdu)).length := by
        rw [length_macOctets_sdu _ hne]
        have := three_le_getMacSduRequiredBytes (List.length_pos_iff.mpr hne)
        omega
      obtain ⟨sdus, p', r', st', rem', hrun, hp', hacc, hr', hgood⟩ :=
        ih (rem - (macOctets (.sdu lcid.value sdu)).length) (by omega) p₁ _ r₁ st₁ (log ++ [(lcid, sdu)]) hp₁
      have hgood₁ : Good sdu := by simpa [hres] using (hrlc st lcid enc.maxSduSize).2
      refine ⟨sdu :: sdus, p', r', st', rem', ?_, ?_, ?_, ?_, ?_⟩
      · rw [hstep, hrun]
        simp
      · simpa using hp'
      · simp only [List.map_cons, List.flatMap_cons, List.length_append]
        omega
      · simp only [List.map_cons, List.flatMap_cons, List.length_append]
        omega
      · intro s hs
        rcases List.mem_cons.mp hs with rfl | hs
        · exact ⟨hne, hgood₁⟩
        · exact hgood s hs

/-- The `MIN_MAC_SDU_SIZE` an `assemble_sdus` call uses is at least three
octets, whether set by this call or by an earlier one. -/
theorem three_le_getD_minSize {minSize : Option Nat} (hmin : ∀ m ∈ minSize, 3 ≤ m) (lcid : LcidDlSch) :
    3 ≤ minSize.getD (minMacSubhdrAndSduSpaceRequired lcid) := by
  cases minSize with
  | none => exact three_le_minMacSubhdrAndSduSpaceRequired lcid
  | some m => exact hmin m rfl

/-- `assemble_sdus` for one logical channel: the loop is given what the
scheduler set aside, cut to the room left in the PDU. -/
theorem assembleSdus_spec (hrlc : ∀ s lcid n, (ue.onNewTxSdu s lcid n).2.length ≤ n ∧ Good (ue.onNewTxSdu s lcid n).2)
    {minSize : Option Nat} (hmin : ∀ m ∈ minSize, 3 ≤ m) (lc : DlMsgLcInfo) {p : DlSchPdu} {pre r : List UInt8}
    (st : σ) (log : List (LcidDlSch × List UInt8)) (h : p.Holds pre r) :
    ∃ (sdus : List (List UInt8)) (p' : DlSchPdu) (r' : List UInt8) (st' : σ),
      assembleSdus ue.recording minSize p (st, log) lc =
        .ok (p', some (minSize.getD (minMacSubhdrAndSduSpaceRequired lc.lcid)), (st', log ++ sdus.map (lc.lcid, ·))) ∧
      p'.Holds (pre ++ (sdus.map (.sdu lc.lcid.value)).flatMap macOctets) r' ∧
      ((sdus.map (.sdu lc.lcid.value)).flatMap macOctets).length + r'.length = r.length ∧
      ((sdus.map (.sdu lc.lcid.value)).flatMap macOctets).length ≤ getMacSduRequiredBytes lc.schedBytes ∧
      ∀ sdu ∈ sdus, sdu ≠ [] ∧ Good sdu := by
  have hmin' := three_le_getD_minSize hmin lc.lcid
  obtain ⟨sdus, p', r', st', rem', hrun, hp', hacc, hr', hgood⟩ :=
    assembleSdusLoop_spec ue Good hrlc lc.lcid hmin' (min (getMacSduRequiredBytes lc.schedBytes) p.nofEmptyBytes)
      p pre r st log h
  rw [h.nofEmptyBytes] at hrun hacc
  refine ⟨sdus, p', r', st', ?_, hp', by omega, by omega, hgood⟩
  rw [assembleSdus, h.nofEmptyBytes, hrun]
  rfl

end Recording

/-! ## Recording changes nothing

Forgetting the record, the recording run is the run of the UE itself: the
record is a ghost beside the bearers' state. -/

section Forget

variable (ue : DlUeContext σ)

theorem assembleSdusLoop_recording (lcid : LcidDlSch) (minSize rem : Nat) :
    ∀ (p : DlSchPdu) (st : σ) (log : List (LcidDlSch × List UInt8)),
      (assembleSdusLoop ue.recording lcid minSize p (st, log) rem).map (fun r => (r.1, r.2.1.1, r.2.2)) =
        assembleSdusLoop ue lcid minSize p st rem := by
  induction rem using Nat.strong_induction_on with
  | _ rem ih =>
  intro p st log
  rw [assembleSdusLoop, assembleSdusLoop]
  by_cases hlt : rem < minSize
  · rw [if_pos hlt, if_pos hlt]
    rfl
  rw [if_neg hlt, if_neg hlt]
  -- the two runs take the same branch at every step: only the bearer's state differs
  cases henc : p.getSduEncoder lcid (getMacSduPayloadSize rem) with
  | none => rfl
  | some enc =>
    dsimp only
    cases hbuf : enc.sduBuffer p with
    | error e => rfl
    | ok ob =>
      rcases ob with ⟨off, n⟩
      rcases hres : ue.onNewTxSdu st lcid n with ⟨st₁, sdu⟩
      simp only [Fallible.ok_bind, recording_onNewTxSdu ue hres log, hres]
      cases hw : p.writeRaw off sdu with
      | error e => rfl
      | ok p₁ =>
        simp only [Fallible.ok_bind]
        by_cases hne : sdu.length = 0
        · rw [if_pos hne, if_pos hne]
          rfl
        rw [if_neg hne, if_neg hne]
        cases hE : enc.encodeSdu p₁ sdu.length with
        | error e => rfl
        | ok x =>
          rcases x with ⟨k, p₂⟩
          simp only [Fallible.ok_bind]
          by_cases hk : k = 0
          · rw [if_pos hk, if_pos hk]
            rfl
          rw [if_neg hk, if_neg hk]
          by_cases hover : rem < k
          · rw [if_pos hover, if_pos hover]
            rfl
          rw [if_neg hover, if_neg hover]
          exact ih _ (by omega) p₂ st₁ _

theorem assembleSdus_recording (minSize : Option Nat) (p : DlSchPdu) (st : σ) (log : List (LcidDlSch × List UInt8))
    (lc : DlMsgLcInfo) :
    (assembleSdus ue.recording minSize p (st, log) lc).map (fun r => (r.1, r.2.1, r.2.2.1)) =
      assembleSdus ue minSize p st lc := by
  rw [assembleSdus, assembleSdus, ← assembleSdusLoop_recording ue]
  cases assembleSdusLoop ue.recording lc.lcid _ p (st, log) _ with
  | error e => rfl
  | ok r => rfl

theorem assembleSubPdus_recording (lcs : List DlMsgLcInfo) :
    ∀ (p : DlSchPdu) (minSize : Option Nat) (st : σ) (log : List (LcidDlSch × List UInt8)),
      (assembleSubPdus ue.recording lcs p minSize (st, log)).map (fun r => (r.1, r.2.1, r.2.2.1)) =
        assembleSubPdus ue lcs p minSize st := by
  induction lcs with
  | nil => intro p minSize st log; rfl
  | cons lc lcs ih =>
    intro p minSize st log
    rw [assembleSubPdus, assembleSubPdus]
    by_cases hsdu : lc.lcid.isSdu
    · rw [if_pos hsdu, if_pos hsdu, ← assembleSdus_recording ue]
      cases assembleSdus ue.recording minSize p (st, log) lc with
      | error e => rfl
      | ok r =>
        rcases r with ⟨p₁, minSize₁, st₁, log₁⟩
        exact ih p₁ minSize₁ st₁ log₁
    · -- the CEs do not call the bearers
      rw [if_neg hsdu, if_neg hsdu, show assembleCe ue.recording p lc = assembleCe ue p lc from rfl]
      cases assembleCe ue p lc with
      | error e => rfl
      | ok p₁ => exact ih p₁ minSize st log

theorem assembleNewtxPdu_recording (minSize : Option Nat) (st : σ) (log : List (LcidDlSch × List UInt8))
    (tbInfo : List DlMsgLcInfo) (buffer : List UInt8) (tbSizeBytes : Nat) :
    (assembleNewtxPdu (some ue.recording) minSize (st, log) tbInfo buffer tbSizeBytes).map
        (fun r => (r.1, r.2.1, r.2.2.1)) =
      assembleNewtxPdu (some ue) minSize st tbInfo buffer tbSizeBytes := by
  simp only [assembleNewtxPdu]
  by_cases hshort : buffer.length < tbSizeBytes
  · rw [if_pos hshort, if_pos hshort]
    cases zeroBufferFirst tbSizeBytes <;> rfl
  rw [if_neg hshort, if_neg hshort, ← assembleSubPdus_recording ue]
  cases assembleSubPdus ue.recording tbInfo (DlSchPdu.create (buffer.take tbSizeBytes)) minSize (st, log) with
  | error e => rfl
  | ok r =>
    rcases r with ⟨p₁, minSize₁, st₁, log₁⟩
    rw [Fallible.ok_bind, show Except.map (fun r => (r.1, r.2.1, r.2.2.1)) (.ok (p₁, minSize₁, st₁, log₁)) =
      (.ok (p₁, minSize₁, st₁) : Except DlSchFault _) from rfl, Fallible.ok_bind]
    split_ifs
    · cases p₁.addPadding (tbSizeBytes - p₁.nofBytes) with
      | error e => rfl
      | ok p₂ =>
        rw [Fallible.ok_bind, Fallible.ok_bind]
        cases p₂.get <;> rfl
    · cases zeroBufferFirst tbSizeBytes <;> rfl
    · cases p₁.get <;> rfl

end Forget

/-! ## The CEs -/

/-- `assemble_ce` writes the CE subPDU of an entry that has one. -/
theorem assembleCe_spec (ue : DlUeContext τ) {lc : DlMsgLcInfo} {s : DlSchSubPdu}
    (hce : ceSubPdu ue.conResId lc = some s) {p : DlSchPdu} {pre r : List UInt8} (h : p.Holds pre r)
    (hroom : scheduledSize lc ≤ r.length) :
    ∃ p', assembleCe ue p lc = .ok p' ∧ p'.Holds (pre ++ macOctets s) (r.drop (macOctets s).length) ∧
      (macOctets s).length = scheduledSize lc := by
  unfold ceSubPdu at hce
  by_cases hcr : lc.lcid = LcidDlSch.ueConResId
  · -- the contention resolution identity
    rw [if_pos hcr, Option.some.injEq] at hce
    subst hce
    have hsize : scheduledSize lc = 7 := by rw [scheduledSize, hcr]; rfl
    obtain ⟨p', hw, hp'⟩ := DlSchPdu.addUeConResId_holds h (by omega) ue.conResId
    have hlen : (macOctets (.ueConResId ue.conResId.toList)).length = 7 := by
      show (0x3e :: ue.conResId.toList).length = 7
      rw [List.length_cons, Vector.length_toList]
      rfl
    refine ⟨p', by rw [assembleCe, if_pos hcr, hw], by rwa [hlen], by rw [hlen, hsize]⟩
  · rw [if_neg hcr] at hce
    by_cases hta : lc.lcid = LcidDlSch.taCmd
    · -- the Timing Advance Command
      rw [if_pos hta] at hce
      have hsize : scheduledSize lc = 2 := by rw [scheduledSize, hta]; rfl
      cases hpl : lc.cePayload with
      | dummy => simp [hpl] at hce
      | taCmd cePayload =>
        simp only [hpl, Option.some.injEq] at hce
        subst hce
        obtain ⟨p', hw, hp'⟩ := DlSchPdu.addTagCmd_holds h (by omega) cePayload
        refine ⟨p', by rw [assembleCe, if_neg hcr, if_pos hta, hpl]; exact hw, hp', by rw [hsize]; rfl⟩
    · simp [hta] at hce

/-! ## The transport block -/

section Entries

variable (ue : DlUeContext σ) (Good : List UInt8 → Prop)

/-- The loop of `assemble_newtx_pdu` writes the blocks of the scheduled
entries in turn. Induction on the entries. -/
theorem assembleSubPdus_spec (hrlc : ∀ s lcid n, (ue.onNewTxSdu s lcid n).2.length ≤ n ∧ Good (ue.onNewTxSdu s lcid n).2)
    (lcs : List DlMsgLcInfo) :
    ∀ (p : DlSchPdu) (pre r : List UInt8) (minSize : Option Nat) (st : σ) (log : List (LcidDlSch × List UInt8)),
      p.Holds pre r → (∀ m ∈ minSize, 3 ≤ m) →
      (∀ lc ∈ lcs, lc.lcid.isSdu = false → (ceSubPdu ue.conResId lc).isSome) →
      (lcs.map scheduledSize).sum ≤ r.length →
      ∃ (blocks : List (DlMsgLcInfo × List (List UInt8))) (p' : DlSchPdu) (r' : List UInt8) (minSize' : Option Nat)
        (st' : σ),
        assembleSubPdus ue.recording lcs p minSize (st, log) = .ok (p', minSize', (st', log ++ blockSdus blocks)) ∧
        blocks.map Prod.fst = lcs ∧
        p'.Holds (pre ++ (blockSubPdus ue.conResId blocks).flatMap macOctets) r' ∧
        ((blockSubPdus ue.conResId blocks).flatMap macOctets).length + r'.length = r.length ∧
        (∀ b ∈ blocks, ∀ sdu ∈ b.2, sdu ≠ [] ∧ Good sdu) ∧ (∀ m ∈ minSize', 3 ≤ m) := by
  induction lcs with
  | nil =>
    intro p pre r minSize st log h hmin _ _
    refine ⟨[], p, r, minSize, st, ?_, rfl, by simpa using h, by simp, by simp, hmin⟩
    simp [assembleSubPdus]
  | cons lc lcs ih =>
    intro p pre r minSize st log h hmin hce hfit
    have hfit' : scheduledSize lc + (lcs.map scheduledSize).sum ≤ r.length := by simpa using hfit
    have hce' : ∀ lc' ∈ lcs, lc'.lcid.isSdu = false → (ceSubPdu ue.conResId lc').isSome :=
      fun lc' h' => hce lc' (List.mem_cons_of_mem _ h')
    cases hsdu : lc.lcid.isSdu with
    | true =>
      obtain ⟨sdus, p₁, r₁, st₁, hrun, hp₁, hacc, hle, hgood⟩ := assembleSdus_spec ue Good hrlc hmin lc st log h
      have hsz : scheduledSize lc = getMacSduRequiredBytes lc.schedBytes := by simp [scheduledSize, hsdu]
      obtain ⟨blocks, p', r', minSize', st', hrest, hmap, hp', hacc', hgood', hmin'⟩ :=
        ih p₁ _ r₁ (some (minSize.getD (minMacSubhdrAndSduSpaceRequired lc.lcid))) st₁ _ hp₁
          (by rintro m ⟨⟩; exact three_le_getD_minSize hmin lc.lcid) hce' (by omega)
      refine ⟨(lc, sdus) :: blocks, p', r', minSize', st', ?_, by simp [hmap], ?_, ?_, ?_, hmin'⟩
      · rw [assembleSubPdus, if_pos hsdu, hrun, Fallible.ok_bind]
        dsimp only
        rw [hrest, blockSdus_cons, if_pos hsdu, List.append_assoc]
      · simpa [hsdu] using hp'
      · rw [blockSubPdus_cons, if_pos hsdu, List.flatMap_append, List.length_append]
        dsimp only
        omega
      · intro b hb
        rcases List.mem_cons.mp hb with rfl | hb
        · exact hgood
        · exact hgood' b hb
    | false =>
      obtain ⟨s, hs⟩ := Option.isSome_iff_exists.mp (hce lc List.mem_cons_self hsdu)
      obtain ⟨p₁, hw, hp₁, hlen⟩ := assembleCe_spec ue.recording hs h (by omega)
      obtain ⟨blocks, p', r', minSize', st', hrest, hmap, hp', hacc', hgood', hmin'⟩ :=
        ih p₁ _ _ minSize st log hp₁ hmin hce' (by simp; omega)
      refine ⟨(lc, []) :: blocks, p', r', minSize', st', ?_, by simp [hmap], ?_, ?_, ?_, hmin'⟩
      · rw [assembleSubPdus, if_neg (by simp [hsdu]), hw, Fallible.ok_bind, Fallible.pure_eq_ok, Fallible.ok_bind]
        simp [hrest, hsdu]
      · simpa [hsdu, hs] using hp'
      · simp only [blockSubPdus_cons, hsdu, Bool.false_eq_true, if_false, hs, Option.toList_some, List.singleton_append,
          List.flatMap_cons, List.length_append] at hacc' ⊢
        rw [List.length_drop] at hacc'
        omega
      · intro b hb
        rcases List.mem_cons.mp hb with rfl | hb
        · simp
        · exact hgood' b hb

/-- `assemble_newtx_pdu` for a UE whose bearers write at most the buffer they
are offered: the octets returned are the subPDUs of the scheduled entries in
order, as the assembler lays them out, then one padding subPDU if room is
left, `tb_size` octets in all. -/
theorem assembleNewtxPdu_octets
    (hrlc : ∀ s lcid n, (ue.onNewTxSdu s lcid n).2.length ≤ n ∧ Good (ue.onNewTxSdu s lcid n).2)
    {minSize : Option Nat} (hmin : ∀ m ∈ minSize, 3 ≤ m) (st : σ) (tbInfo : List DlMsgLcInfo) (buffer : List UInt8)
    (tbSizeBytes : Nat) (hbuf : tbSizeBytes ≤ buffer.length)
    (hce : ∀ lc ∈ tbInfo, lc.lcid.isSdu = false → (ceSubPdu ue.conResId lc).isSome)
    (hfit : (tbInfo.map scheduledSize).sum ≤ tbSizeBytes) :
    ∃ (pdu : List UInt8) (minSize' : Option Nat) (st' : σ) (blocks : List (DlMsgLcInfo × List (List UInt8))),
      assembleNewtxPdu (some ue.recording) minSize (st, []) tbInfo buffer tbSizeBytes =
        .ok (pdu, minSize', (st', blockSdus blocks)) ∧
      blocks.map Prod.fst = tbInfo ∧ (∀ b ∈ blocks, ∀ sdu ∈ b.2, sdu ≠ [] ∧ Good sdu) ∧
      pdu = (blockSubPdus ue.conResId blocks ++
        (paddingFor tbSizeBytes ((blockSubPdus ue.conResId blocks).flatMap macOctets).length).toList.map DlSchSubPdu.padding).flatMap
          macOctets ∧
      pdu.length = tbSizeBytes := by
  have hr : (buffer.take tbSizeBytes).length = tbSizeBytes := by simp; omega
  obtain ⟨blocks, p', r', minSize', st', hrun, hmap, hp', hacc, hgood, -⟩ :=
    assembleSubPdus_spec ue Good hrlc tbInfo (DlSchPdu.create (buffer.take tbSizeBytes)) [] _ minSize st []
      (DlSchPdu.holds_create _) hmin hce (by omega)
  rw [hr, List.nil_append] at *
  set body := (blockSubPdus ue.conResId blocks).flatMap macOctets with hbody
  simp only [assembleNewtxPdu, show ¬ buffer.length < tbSizeBytes by omega, if_false, hrun, Fallible.ok_bind,
    hp'.nofBytes]
  by_cases hroom : body.length < tbSizeBytes
  · -- room is left: one padding subPDU fills it
    obtain ⟨p'', hpad, hp''⟩ := DlSchPdu.addPadding_holds hp' (by omega)
    have hlen : tbSizeBytes - body.length = r'.length := by omega
    have hpadLen : (macOctets (.padding (r'.length - 1))).length = r'.length := by
      simp [macOctets, DlSchSubPdu.encode]
      omega
    refine ⟨body ++ macOctets (.padding (r'.length - 1)), minSize', st', blocks, ?_, hmap, hgood, ?_, ?_⟩
    · rw [if_pos hroom, hlen, hpad, Fallible.ok_bind, hp''.get]
      rfl
    · simp [paddingFor, hroom, List.flatMap_append, ← hbody, hlen]
    · rw [List.length_append, hpadLen]
      omega
  · -- the entries fill the transport block
    have hfull : body.length = tbSizeBytes := by omega
    refine ⟨body, minSize', st', blocks, ?_, hmap, hgood, ?_, hfull⟩
    · rw [if_neg hroom, if_neg (by omega), hp'.get]
      rfl
    · simp [paddingFor, hroom, ← hbody]

end Entries

/-! ## What the transport block reads as -/

/-- A CE subPDU of the assembler is well formed, laid out as TS 38.321 does. -/
theorem ceSubPdu_wellFormed {conResId : UeConResId} {lc : DlMsgLcInfo} {s : DlSchSubPdu}
    (h : ceSubPdu conResId lc = some s) : s.WellFormed ∧ macOctets s = s.encode := by
  unfold ceSubPdu at h
  by_cases hcr : lc.lcid = LcidDlSch.ueConResId
  · rw [if_pos hcr, Option.some.injEq] at h
    subst h
    exact ⟨Vector.length_toList, rfl⟩
  · rw [if_neg hcr] at h
    by_cases hta : lc.lcid = LcidDlSch.taCmd
    · rw [if_pos hta] at h
      cases hpl : lc.cePayload with
      | dummy => simp [hpl] at h
      | taCmd cePayload =>
        simp only [hpl, Option.some.injEq] at h
        subst h
        exact ⟨trivial, rfl⟩
    · simp [hta] at h

/-- The subPDUs of blocks whose SDUs are non-empty and shorter than 2^16
octets are well formed and laid out as TS 38.321 does. -/
theorem blockSubPdus_wellFormed (conResId : UeConResId) {blocks : List (DlMsgLcInfo × List (List UInt8))}
    (hsdu : ∀ b ∈ blocks, ∀ sdu ∈ b.2, sdu ≠ [] ∧ sdu.length < 2 ^ 16) :
    ∀ s ∈ blockSubPdus conResId blocks, s.WellFormed ∧ macOctets s = s.encode := by
  intro s hs
  rw [blockSubPdus, List.mem_flatMap] at hs
  obtain ⟨b, hb, hs⟩ := hs
  by_cases hsd : b.1.lcid.isSdu
  · -- an SDU of a logical channel
    rw [if_pos hsd] at hs
    obtain ⟨sdu, hsdu', rfl⟩ := List.mem_map.mp hs
    have hl : b.1.lcid.value ≤ 32 := by simpa [LcidDlSch.isSdu] using hsd
    obtain ⟨hne, hlt⟩ := hsdu b hb sdu hsdu'
    exact ⟨⟨hl, hlt⟩, macOctets_sdu_eq_encode hl hne hlt⟩
  · rw [if_neg hsd] at hs
    exact ceSubPdu_wellFormed (Option.mem_toList.mp hs)

/-- `assemble_newtx_pdu` frames the transport block. The bearers write SDUs no
longer than the buffer they are offered and shorter than 2^16 octets; the CEs
scheduled are the two the assembler writes; what the scheduler set aside fits
the transport block. Then the PDU has `tb_size` octets, laid out by the
TS 38.321 grammar as the subPDUs of the scheduled entries in order, with each
SDU as its bearer wrote it, then one padding subPDU if room is left, and it is
read back so. The recording run is the run of the UE, with the record of what
the bearers wrote beside it. -/
theorem assembleNewtxPdu_frames_subPdus (ue : DlUeContext σ) (firstLcid : Option LcidDlSch) (st : σ)
    (tbInfo : List DlMsgLcInfo) (buffer : List UInt8) (tbSizeBytes : Nat)
    (hrlc : ∀ s lcid n, (ue.onNewTxSdu s lcid n).2.length ≤ n ∧ (ue.onNewTxSdu s lcid n).2.length < 2 ^ 16)
    (hbuf : tbSizeBytes ≤ buffer.length)
    (hce : ∀ lc ∈ tbInfo, lc.lcid.isSdu = false → (ceSubPdu ue.conResId lc).isSome)
    (hfit : (tbInfo.map scheduledSize).sum ≤ tbSizeBytes) :
    ∃ (pdu : List UInt8) (minSize : Option Nat) (st' : σ) (blocks : List (DlMsgLcInfo × List (List UInt8))),
      assembleNewtxPdu (some ue) (firstLcid.map minMacSubhdrAndSduSpaceRequired) st tbInfo buffer tbSizeBytes =
        .ok (pdu, minSize, st') ∧
      assembleNewtxPdu (some ue.recording) (firstLcid.map minMacSubhdrAndSduSpaceRequired) (st, []) tbInfo buffer
        tbSizeBytes = .ok (pdu, minSize, (st', blockSdus blocks)) ∧
      blocks.map Prod.fst = tbInfo ∧ pdu.length = tbSizeBytes ∧
      pdu = encodeAll (blockSubPdus ue.conResId blocks ++
        (paddingFor tbSizeBytes (encodeAll (blockSubPdus ue.conResId blocks)).length).toList.map
          DlSchSubPdu.padding) ∧
      parseDlSchPdu pdu = some (blockSubPdus ue.conResId blocks ++
        (paddingFor tbSizeBytes (encodeAll (blockSubPdus ue.conResId blocks)).length).toList.map
          DlSchSubPdu.padding) := by
  have hmin : ∀ m ∈ firstLcid.map minMacSubhdrAndSduSpaceRequired, 3 ≤ m := by
    intro m hm
    obtain ⟨lcid, -, rfl⟩ := Option.mem_map.mp hm
    exact three_le_minMacSubhdrAndSduSpaceRequired lcid
  obtain ⟨pdu, minSize, st', blocks, hrun, hmap, hgood, hpdu, hlen⟩ :=
    assembleNewtxPdu_octets ue (fun sdu => sdu.length < 2 ^ 16) hrlc hmin st tbInfo buffer tbSizeBytes hbuf hce hfit
  have hwf := blockSubPdus_wellFormed ue.conResId hgood
  have hbody : (blockSubPdus ue.conResId blocks).flatMap macOctets = encodeAll (blockSubPdus ue.conResId blocks) :=
    List.flatMap_congr fun s hs => (hwf s hs).2
  rw [hbody] at hpdu
  -- the padding subPDU is laid out by `encode` as well
  have hoct : ∀ s ∈ blockSubPdus ue.conResId blocks ++
      (paddingFor tbSizeBytes (encodeAll (blockSubPdus ue.conResId blocks)).length).toList.map DlSchSubPdu.padding,
      macOctets s = s.encode := by
    intro s hs
    rcases List.mem_append.mp hs with hs | hs
    · exact (hwf s hs).2
    · obtain ⟨n, -, rfl⟩ := List.mem_map.mp hs
      rfl
  rw [List.flatMap_congr hoct, ← encodeAll] at hpdu
  refine ⟨pdu, minSize, st', blocks, ?_, hrun, hmap, hlen, hpdu, ?_⟩
  · rw [← assembleNewtxPdu_recording ue, hrun]
    rfl
  · rw [hpdu]
    exact parseDlSchPdu_encodeAll (fun s hs => (hwf s hs).1) _

theorem assembleNewtxPdu_frames_subPdus_conResId_sdu :
    let ue : DlUeContext Unit := ⟨Vector.replicate 6 1, fun s _ n => (s, List.replicate (min n 3) 7)⟩
    let tbInfo : List DlMsgLcInfo := [⟨LcidDlSch.ueConResId, 0, .dummy⟩, ⟨⟨4, by decide⟩, 3, .dummy⟩]
    (∀ s lcid n, (ue.onNewTxSdu s lcid n).2.length ≤ n ∧ (ue.onNewTxSdu s lcid n).2.length < 2 ^ 16) ∧
    20 ≤ (List.replicate 20 (0 : UInt8)).length ∧
    (∀ lc ∈ tbInfo, lc.lcid.isSdu = false → (ceSubPdu ue.conResId lc).isSome) ∧
    (tbInfo.map scheduledSize).sum ≤ 20 ∧
    ∃ (pdu : List UInt8) (minSize : Option Nat) (st' : Unit) (blocks : List (DlMsgLcInfo × List (List UInt8))),
      assembleNewtxPdu (some ue) none () tbInfo (List.replicate 20 0) 20 = .ok (pdu, minSize, st') ∧
      assembleNewtxPdu (some ue.recording) none ((), []) tbInfo (List.replicate 20 0) 20 =
        .ok (pdu, minSize, (st', blockSdus blocks)) ∧
      blocks.map Prod.fst = tbInfo ∧ pdu.length = 20 ∧
      pdu = encodeAll (blockSubPdus ue.conResId blocks ++
        (paddingFor 20 (encodeAll (blockSubPdus ue.conResId blocks)).length).toList.map DlSchSubPdu.padding) ∧
      parseDlSchPdu pdu = some (blockSubPdus ue.conResId blocks ++
        (paddingFor 20 (encodeAll (blockSubPdus ue.conResId blocks)).length).toList.map DlSchSubPdu.padding) := by
  intro ue tbInfo
  have hrlc : ∀ s lcid n, (ue.onNewTxSdu s lcid n).2.length ≤ n ∧ (ue.onNewTxSdu s lcid n).2.length < 2 ^ 16 := by
    intro s lcid n
    simp only [ue, List.length_replicate]
    omega
  have hce : ∀ lc ∈ tbInfo, lc.lcid.isSdu = false → (ceSubPdu ue.conResId lc).isSome := by decide
  have hfit : (tbInfo.map scheduledSize).sum ≤ 20 := by decide
  exact ⟨hrlc, by simp, hce, hfit,
    assembleNewtxPdu_frames_subPdus ue none () tbInfo (List.replicate 20 0) 20 hrlc (by simp) hce hfit⟩

/-- Where a bearer writes an SDU of 2^16 octets or more, the 16-bit L field
keeps its length modulo 2^16: an SDU of 70000 octets is framed with the L
field 0x1170, and the PDU reads back as an SDU of 4464 octets and a run of
empty CCCH SDUs. A CE other than the two the assembler writes stops it. -/
theorem assembleNewtxPdu_wraps_l_field :
    assembleNewtxPdu (some (⟨Vector.replicate 6 0, fun s _ n => (s, List.replicate n 0)⟩ : DlUeContext Unit)) none ()
        [⟨⟨4, by decide⟩, 70000, .dummy⟩] (List.replicate 70003 0) 70003 =
      .ok ([0x44, 0x11, 0x70] ++ List.replicate 70000 0, some 5, ()) ∧
    parseDlSchPdu ([0x44, 0x11, 0x70] ++ List.replicate 70000 0) =
      some (.sdu 4 (List.replicate 4464 0) :: List.replicate 32768 (.sdu 0 [])) ∧
    assembleNewtxPdu (some (⟨Vector.replicate 6 0, fun s _ n => (s, List.replicate n 0)⟩ : DlUeContext Unit)) none ()
        [⟨LcidDlSch.drxCmd, 0, .dummy⟩] (List.replicate 10 0) 10 = .error (.invalidCeLcid 60) := by
  refine ⟨?_, ?_, rfl⟩
  · -- one round of the loop writes the whole SDU, then no room is left
    set ue : DlUeContext Unit := ⟨Vector.replicate 6 0, fun s _ n => (s, List.replicate n 0)⟩
    set lcid : LcidDlSch := ⟨4, by decide⟩
    have h := DlSchPdu.holds_create (List.replicate 70003 (0 : UInt8))
    have henc : (DlSchPdu.create (List.replicate 70003 0)).getSduEncoder lcid (getMacSduPayloadSize 70003) =
        some ⟨lcid, 3, 70000⟩ := by
      rw [DlSchPdu.getSduEncoder]
      simp only [DlSchPdu.create, List.length_replicate]
      rfl
    have hoct : macOctets (.sdu lcid.value (List.replicate 70000 0)) = [0x44, 0x11, 0x70] ++ List.replicate 70000 0 := by
      rw [macOctets_sdu_of_ge (by decide) (by rw [List.length_replicate]; decide), List.length_replicate]
      rfl
    have hlen : (macOctets (.sdu lcid.value (List.replicate 70000 (0 : UInt8)))).length = 70003 := by
      rw [hoct, List.length_append, List.length_replicate]
      rfl
    obtain ⟨p', r', hstep, hp', -, -⟩ := assembleSdusLoop_round ue lcid h (show 3 ≤ 5 by decide)
      (show 5 ≤ 70003 by decide) henc rfl (List.ne_nil_of_length_pos (by rw [List.length_replicate]; decide))
      (List.length_replicate ..).le
    dsimp only at hstep hp'
    rw [hlen] at hstep
    rw [hoct, List.nil_append] at hp'
    have hexit := assembleSdusLoop_of_lt ue lcid p' () (show 70003 - 70003 < 5 by decide)
    have hsdus : assembleSdus ue none (DlSchPdu.create (List.replicate 70003 0)) () ⟨lcid, 70000, .dummy⟩ =
        .ok (p', some 5, ()) := by
      have hspace : min (getMacSduRequiredBytes 70000) 70003 = 70003 := by decide
      rw [assembleSdus, h.nofEmptyBytes, List.length_replicate, hspace]
      exact congrArg (· >>= _) (hstep.trans hexit)
    have hbuf : ¬ (List.replicate 70003 (0 : UInt8)).length < 70003 := by rw [List.length_replicate]; decide
    have htake : (List.replicate 70003 (0 : UInt8)).take 70003 = List.replicate 70003 0 :=
      List.take_of_length_le (by rw [List.length_replicate])
    have hused : p'.nofBytes = 70003 := by
      rw [hp'.nofBytes, List.length_append, List.length_replicate]
      rfl
    rw [assembleNewtxPdu]
    simp only [hbuf, if_false, htake, assembleSubPdus, show lcid.isSdu = true from rfl, if_true, hsdus,
      Fallible.ok_bind, hused, lt_irrefl, gt_iff_lt, hp'.get, Fallible.pure_eq_ok]
  · -- the L field reads 0x1170 = 4464; the 65536 zero octets after that SDU are empty SDUs
    have henc : (DlSchSubPdu.sdu 4 (List.replicate 4464 (0 : UInt8))).encode =
        [0x44, 0x11, 0x70] ++ List.replicate 4464 0 := by
      rw [DlSchSubPdu.encode, if_neg (by rw [List.length_replicate]; decide), List.length_replicate]
      rfl
    rw [show List.replicate 70000 (0 : UInt8) = List.replicate 4464 0 ++ List.replicate (2 * 32768) 0 by
        rw [← List.replicate_add], ← List.append_assoc, ← henc,
      parseDlSchPdu_encode_sdu_append (by decide) (by rw [List.length_replicate]; decide),
      parseDlSchPdu_replicate_zero]
    rfl

end SrsRan.Mac
