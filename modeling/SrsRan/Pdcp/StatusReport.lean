import SrsRan.Pdcp.TxInvariant
import SrsRan.Pdcp.RxInvariant

/-!
The PDCP status report (TS 38.323 6.2.3.1) between the two sides: the
receiver compiles it from its window (`compile_status_report`), the
transmitter reads it and discards what it reports (`handle_status_report`).
The report is a header octet, the FMC (`RX_DELIV`) in 32 bits, and one bit
per COUNT from FMC + 1 below `RX_NEXT`, no more than fit in a control PDU
of 9000 octets; the last octet is padded with zeros.

Read bit by bit, the report is that header, the FMC, the bitmap and the
padding (`compileStatusReport_bits`). The transmitter reads the header and
the FMC, then one bit per round for as many rounds as bits are left, so it
meets every bit of the bitmap and of the padding, bit `j` at COUNT
FMC + 1 + `j` (`discardBitmap_spec`). On a transmitter whose window keeps
`Wf`, each `discard_pdu` takes out exactly its COUNT; so the COUNTs taken
out are those below `RX_DELIV` and those the bitmap marks as received
(`statusReport_agreement`).
-/

namespace SrsRan.Pdcp

open BitString

/-- `pdcp_control_pdu_max_size`. -/
def pdcpControlPduMaxSize : Nat := 9000

/-- `max_bits` of `compile_status_report`: the bitmap fills what a control
PDU leaves after its header octet and the FMC. -/
def statusReportMaxBits : Nat := (pdcpControlPduMaxSize - 5) * 8

/-- A one-bit field holds its bit. -/
theorem msbBits_one_ite (b : Bool) : msbBits 1 (if b then 1 else 0) = [b] := by
  cases b <;> decide

/-! ## The receiver compiles the report -/

namespace PdcpEntityRx

variable {cfg : PdcpRxConfig}

/-- `bitmap_begin`: the COUNT after the FMC, in `uint32_t`. -/
def bitmapBegin (e : PdcpEntityRx cfg) : Nat := (e.st.rxDeliv + 1) % 2 ^ 32

/-- `bitmap_end`: `RX_NEXT`, cut down to `max_bits` after `bitmap_begin`. -/
def bitmapEnd (e : PdcpEntityRx cfg) : Nat :=
  if e.bitmapBegin < e.st.rxNext ∧ e.st.rxNext - e.bitmapBegin > statusReportMaxBits then
    (e.bitmapBegin + statusReportMaxBits) % 2 ^ 32
  else e.st.rxNext

/-- The loop of `compile_status_report` over the bitmap: `k` bits for the
COUNTs from `i` on, each set when its COUNT is in the window. -/
def packBitmap (e : PdcpEntityRx cfg) : Nat → Nat → BitWriter → BitWriter
  | 0, _, w => w
  | k + 1, i, w => e.packBitmap k (i + 1) (w.packBits (if e.rxWindow.hasSn i then 1 else 0) 1)

/-- `compile_status_report`: D/C = control and CPT = status report, both 0,
the reserved bits, the FMC and the bitmap. The widths packed are at most
32, so the assertion of `bit_encoder::pack` never fires. -/
def compileStatusReport (e : PdcpEntityRx cfg) : List UInt8 :=
  let w : BitWriter := ⟨[], 0⟩
  let w := w.packBits 0 1
  let w := w.packBits 0 3
  let w := w.packBits 0 4
  let w := w.packBits e.st.rxDeliv 32
  (e.packBitmap (e.bitmapEnd - e.bitmapBegin) e.bitmapBegin w).bytes

/-- The bits of the bitmap: bit `j` says whether COUNT `i + j` is in the
window. -/
def bitmapBits (e : PdcpEntityRx cfg) (k i : Nat) : List Bool :=
  (List.range k).map fun j => e.rxWindow.hasSn (i + j)

theorem getElem?_bitmapBits (e : PdcpEntityRx cfg) (k i j : Nat) :
    (e.bitmapBits k i)[j]? = if j < k then some (e.rxWindow.hasSn (i + j)) else none := by
  unfold bitmapBits
  split <;> simp [*]

/-- The loop writes the bitmap after what the writer holds. Induction on the
rounds. -/
theorem holds_packBitmap (e : PdcpEntityRx cfg) (k : Nat) :
    ∀ {i : Nat} {w : BitWriter} {bits : List Bool}, w.Holds bits →
      (e.packBitmap k i w).Holds (bits ++ e.bitmapBits k i) := by
  induction k with
  | zero =>
    intro i w bits h
    simpa [bitmapBits, packBitmap] using h
  | succ k ih =>
    intro i w bits h
    have h₁ := ih (i := i + 1) (h.packBits (if e.rxWindow.hasSn i then 1 else 0) 1)
    -- the first round's bit, then the bits of the rounds left
    have hbits : e.bitmapBits (k + 1) i = e.rxWindow.hasSn i :: e.bitmapBits k (i + 1) := by
      simp only [bitmapBits, List.range_succ_eq_map, List.map_cons, List.map_map, Nat.add_zero]
      congr 2
      funext j
      simp only [Function.comp, Nat.succ_eq_add_one, Nat.add_assoc, Nat.add_comm 1 j]
    rw [msbBits_one_ite, List.append_assoc, List.singleton_append] at h₁
    rw [hbits]
    exact h₁

/-- Bit by bit, the report is its header, the FMC, the bitmap of
`bitmap_end - bitmap_begin` bits from `bitmap_begin`, and zero padding. -/
theorem compileStatusReport_bits (e : PdcpEntityRx cfg) :
    ∃ pad, octetBits e.compileStatusReport = msbBits 1 0 ++ msbBits 3 0 ++ msbBits 4 0 ++
      msbBits 32 e.st.rxDeliv ++ (e.bitmapBits (e.bitmapEnd - e.bitmapBegin) e.bitmapBegin ++
        List.replicate pad false) := by
  have h₀ : BitWriter.Holds ⟨[], 0⟩ [] := ⟨rfl, rfl⟩
  have h := holds_packBitmap e (e.bitmapEnd - e.bitmapBegin) (i := e.bitmapBegin)
    ((((h₀.packBits 0 1).packBits 0 3).packBits 0 4).packBits e.st.rxDeliv 32)
  have hbits := h.2
  simp only [List.nil_append, List.append_assoc] at hbits
  exact ⟨_, hbits⟩

/-- What is left of the window's bounds after `bitmap_begin`: the bitmap
ends below 2^32, and holds no more than `max_bits` bits. -/
theorem bitmapEnd_lt (e : PdcpEntityRx cfg) (h : Bounded e) :
    e.bitmapEnd < 2 ^ 32 ∧ e.bitmapEnd - e.bitmapBegin ≤ statusReportMaxBits := by
  have hn := h.rxNext_lt
  unfold bitmapEnd
  split
  · rename_i hcut
    have hlt : e.bitmapBegin + statusReportMaxBits < 2 ^ 32 := by omega
    rw [Nat.mod_eq_of_lt hlt]
    omega
  · rename_i hcut
    omega

end PdcpEntityRx

/-! ## The transmitter reads it -/

namespace PdcpEntityTx

variable {cfg : PdcpTxConfig}

/-- An `unpack` that meets no end of buffer returns true with the value the
loop of `unpack` reads. Induction on the turns. -/
theorem unpackPartial_of_unpackLoop {fuel : Nat} :
    ∀ {r r' : BitReader} {val nBits v : Nat}, r.unpackLoop fuel val nBits = some (v, r') →
      unpackPartial fuel r val nBits = (true, v, r') := by
  induction fuel with
  | zero =>
    intro r r' val nBits v h
    simp only [BitReader.unpackLoop, Option.some.injEq, Prod.mk.injEq] at h
    obtain ⟨rfl, rfl⟩ := h
    rfl
  | succ fuel ih =>
    intro r r' val nBits v h
    simp only [BitReader.unpackLoop] at h
    simp only [unpackPartial]
    split_ifs at h ⊢ with hn
    · simp only [Option.some.injEq, Prod.mk.injEq] at h
      obtain ⟨rfl, rfl⟩ := h
      rfl
    · -- the next octet is in the buffer, as the loop found it
      cases hc : r.buffer[r.it]? with
      | none =>
        rw [hc] at h
        cases h
      | some c =>
        rw [hc] at h
        exact ih h

/-- A field of `n` bits read by `handle_status_report`. -/
theorem unpackField_of_reads {r : BitReader} {n v : Nat} {rest : List Bool}
    (h : r.Reads (msbBits n v ++ rest)) :
    ∃ r', unpackField r n = (true, v % 2 ^ n, r') ∧ r'.Reads rest := by
  obtain ⟨r', hbits, -, h'⟩ := h.unpackBits
  exact ⟨r', unpackPartial_of_unpackLoop hbits, h'⟩

theorem bitsLeft_of_reads {r : BitReader} {bits : List Bool} (h : r.Reads bits) :
    bitsLeft r = bits.length := by
  have := h.nofBits_add
  unfold PdcpEntityTx.bitsLeft
  omega

/-- The COUNTs a bitmap read after FMC `fmc` marks: bit `j` is about COUNT
`fmc + 1 + j`, in `uint32_t`. -/
def BitmapCounts (fmc : Nat) (bits : List Bool) (c : Nat) : Prop :=
  ∃ j, bits[j]? = some true ∧ c = (fmc + 1 + j) % 2 ^ 32

theorem not_bitmapCounts_nil (fmc c : Nat) : ¬BitmapCounts fmc [] c := by
  rintro ⟨j, hj, -⟩
  simp at hj

/-- The first bit is about the COUNT after `fmc`, the others are read after
that COUNT. -/
theorem bitmapCounts_cons (fmc : Nat) (b : Bool) (bits : List Bool) (c : Nat) :
    BitmapCounts fmc (b :: bits) c ↔
      (b = true ∧ c = (fmc + 1) % 2 ^ 32) ∨ BitmapCounts ((fmc + 1) % 2 ^ 32) bits c := by
  constructor
  · rintro ⟨j, hj, rfl⟩
    cases j with
    | zero => exact .inl ⟨by simpa using hj, rfl⟩
    | succ j => exact .inr ⟨j, by simpa using hj, by omega⟩
  · rintro (⟨rfl, rfl⟩ | ⟨j, hj, rfl⟩)
    · exact ⟨0, rfl, rfl⟩
    · exact ⟨j + 1, by simpa using hj, by omega⟩

/-- Zero padding marks no COUNT. -/
theorem bitmapCounts_append_replicate_false (fmc : Nat) (bits : List Bool) (pad c : Nat) :
    BitmapCounts fmc (bits ++ List.replicate pad false) c ↔ BitmapCounts fmc bits c := by
  constructor
  · rintro ⟨j, hj, rfl⟩
    refine ⟨j, ?_, rfl⟩
    rcases Nat.lt_or_ge j bits.length with hlt | hge
    · rwa [List.getElem?_append_left hlt] at hj
    · rw [List.getElem?_append_right hge] at hj
      simp [List.getElem?_replicate] at hj
  · rintro ⟨j, hj, rfl⟩
    have hlt : j < bits.length := (List.getElem?_eq_some_iff.mp hj).1
    exact ⟨j, by rw [List.getElem?_append_left hlt]; exact hj, rfl⟩

/-- The bitmap loop reads every bit left, bit `j` at COUNT `fmc + 1 + j`,
and discards exactly the COUNTs of the set bits. Induction on the bits. -/
theorem discardBitmap_spec (ht : cfg.discardTimer.isSome = true) (bits : List Bool) :
    ∀ {e : PdcpEntityTx cfg} {r : BitReader} (fmc : Nat), Wf e → r.Reads bits →
      ∃ e', e.discardBitmap bits.length r fmc = .ok e' ∧ Wf e' ∧
        SduWindow.Erases (BitmapCounts fmc bits) e.txWindow e'.txWindow := by
  induction bits with
  | nil =>
    intro e r fmc h _
    exact ⟨e, rfl, h, (SduWindow.erases_false _).congr fun c =>
      ⟨False.elim, fun hc => not_bitmapCounts_nil fmc c hc⟩⟩
  | cons b bits ih =>
    intro e r fmc h hr
    have hr' : r.Reads (msbBits 1 (if b then 1 else 0) ++ bits) := by
      rw [msbBits_one_ite]
      exact hr
    obtain ⟨r₁, hfield, hr₁⟩ := unpackField_of_reads hr'
    cases b with
    | true =>
      obtain ⟨e₁, he₁, h₁, -, hr₂⟩ := discardPdu_spec h ht ((fmc + 1) % 2 ^ 32)
      obtain ⟨e', he', h', hr₃⟩ := ih ((fmc + 1) % 2 ^ 32) h₁ hr₁
      refine ⟨e', ?_, h', (hr₂.trans hr₃).congr fun c => ?_⟩
      · simp only [List.length_cons, PdcpEntityTx.discardBitmap, hfield, ↓reduceIte, pow_one,
          Nat.reduceMod, he₁, Fallible.ok_bind, he']
      · simp [bitmapCounts_cons]
    | false =>
      obtain ⟨e', he', h', hr₃⟩ := ih ((fmc + 1) % 2 ^ 32) h hr₁
      refine ⟨e', ?_, h', hr₃.congr fun c => ?_⟩
      · simp only [List.length_cons, PdcpEntityTx.discardBitmap, hfield, Bool.false_eq_true, ↓reduceIte,
          Nat.zero_mod, zero_ne_one, Fallible.pure_eq_ok, Fallible.ok_bind, he']
      · simp [bitmapCounts_cons]

/-- A status report with a clear header and FMC `fmc` discards exactly the
COUNTs from `TX_NEXT_ACK` below the FMC and those its bitmap marks, padding
included. -/
theorem handleStatusReport_spec {e : PdcpEntityTx cfg} (h : Wf e) (ht : cfg.discardTimer.isSome = true)
    {status : List UInt8} {fmc : Nat} {bitmap : List Bool} (hfmc : fmc < 2 ^ 32)
    (hbits : octetBits status = msbBits 1 0 ++ msbBits 3 0 ++ msbBits 4 0 ++ msbBits 32 fmc ++ bitmap) :
    ∃ e', e.handleStatusReport status = .ok e' ∧ Wf e' ∧
      SduWindow.Erases (fun c => (e.st.txNextAck ≤ c ∧ c < fmc) ∨ BitmapCounts fmc bitmap c)
        e.txWindow e'.txWindow := by
  have hr := BitReader.reads_ofBuffer status
  rw [hbits] at hr
  simp only [List.append_assoc] at hr
  obtain ⟨r₁, hdc, hr₁⟩ := unpackField_of_reads hr
  obtain ⟨r₂, hcpt, hr₂⟩ := unpackField_of_reads hr₁
  obtain ⟨r₃, hres, hr₃⟩ := unpackField_of_reads hr₂
  obtain ⟨r₄, hfmc₄, hr₄⟩ := unpackField_of_reads hr₃
  obtain ⟨e₁, he₁, h₁, hr₅⟩ := discardFrom_spec ht (fmc - e.st.txNextAck) e.st.txNextAck h
  obtain ⟨e', he', h', hr₆⟩ := discardBitmap_spec ht bitmap fmc h₁ hr₄
  refine ⟨e', ?_, h', (hr₅.trans hr₆).congr fun c => or_congr_left (by omega)⟩
  simp only [handleStatusReport, hdc, hcpt, hres, hfmc₄, Nat.zero_mod, ne_eq, not_true_eq_false,
    ↓reduceIte, Nat.mod_eq_of_lt hfmc, bitsLeft_of_reads hr₄, he₁, Fallible.ok_bind, he']

end PdcpEntityTx

/-! ## The two sides agree -/

namespace PdcpEntityRx

variable {cfg : PdcpRxConfig}

/-- The COUNTs a status report of `e` lets the transmitter drop: those below
`RX_DELIV`, and those after it, below `RX_NEXT` and within `max_bits`, that
the window holds. -/
def ReportedReceived (e : PdcpEntityRx cfg) (c : Nat) : Prop :=
  c < e.st.rxDeliv ∨
    (e.st.rxDeliv < c ∧ c < min e.st.rxNext (e.st.rxDeliv + 1 + statusReportMaxBits) ∧
      e.rxWindow.hasSn c = true)

instance (e : PdcpEntityRx cfg) (c : Nat) : Decidable (e.ReportedReceived c) := by
  unfold ReportedReceived
  infer_instance

/-- The bitmap the receiver packs marks exactly the COUNTs from
`bitmap_begin` below `bitmap_end` that its window holds: below `bitmap_end`
no COUNT wraps. -/
theorem bitmapCounts_bitmapBits {e : PdcpEntityRx cfg} (hb : Bounded e) (c : Nat) :
    PdcpEntityTx.BitmapCounts e.st.rxDeliv (e.bitmapBits (e.bitmapEnd - e.bitmapBegin) e.bitmapBegin) c ↔
      e.bitmapBegin ≤ c ∧ c < e.bitmapEnd ∧ e.rxWindow.hasSn c = true := by
  have hend := (e.bitmapEnd_lt hb).1
  have hbegin : e.bitmapBegin = (e.st.rxDeliv + 1) % 2 ^ 32 := rfl
  constructor
  · rintro ⟨j, hj, rfl⟩
    rw [getElem?_bitmapBits] at hj
    split_ifs at hj with hjl
    have hc : (e.st.rxDeliv + 1 + j) % 2 ^ 32 = e.bitmapBegin + j := by omega
    rw [hc]
    exact ⟨by omega, by omega, Option.some.inj hj⟩
  · rintro ⟨hlo, hhi, hs⟩
    refine ⟨c - e.bitmapBegin, ?_, by omega⟩
    rw [getElem?_bitmapBits, if_pos (by omega), Nat.add_sub_cancel' hlo, hs]

/-- For a COUNT from `TX_NEXT_ACK` on, what the two loops of the transmitter
discard is what the report names: the bitmap's range is the claim's whether
`bitmap_end` was cut or not, and when `RX_DELIV` is the last `uint32_t` the
bitmap starts over at 0, below `RX_DELIV`. -/
theorem discarded_iff_reportedReceived {e : PdcpEntityRx cfg} (hb : Bounded e) {ack c : Nat}
    (hack : ack ≤ c) (hc : c < 2 ^ 32) :
    ((ack ≤ c ∧ c < e.st.rxDeliv) ∨ (e.bitmapBegin ≤ c ∧ c < e.bitmapEnd ∧ e.rxWindow.hasSn c = true)) ↔
      e.ReportedReceived c := by
  have hd := hb.rxDeliv_lt
  have hn := hb.rxNext_lt
  have hbegin : e.bitmapBegin = (e.st.rxDeliv + 1) % 2 ^ 32 := rfl
  have hmax : statusReportMaxBits = 71960 := rfl
  unfold ReportedReceived bitmapEnd
  cases e.rxWindow.hasSn c with
  | false =>
    simp only [Bool.false_eq_true, and_false, or_false]
    omega
  | true =>
    simp only [and_true]
    split_ifs <;> omega

end PdcpEntityRx

open PdcpEntityRx PdcpEntityTx in
/-- The report a reachable receiver compiles reads, bit by bit, as its
header, `RX_DELIV` as the FMC, one bit per COUNT from FMC + 1 on and zero
padding; fed to a reachable transmitter with a discard timer, it takes out
of the TX window exactly the COUNTs below `RX_DELIV` and those after it,
below `RX_NEXT` and within `max_bits`, that the RX window holds. -/
theorem statusReport_agreement {rcfg : PdcpRxConfig} {tcfg : PdcpTxConfig} {rx : PdcpEntityRx rcfg}
    {tx : PdcpEntityTx tcfg} (hrx : PdcpEntityRx.Reachable rcfg rx) (htx : PdcpEntityTx.Reachable tcfg tx)
    (ht : tcfg.discardTimer.isSome = true) :
    (∃ pad, octetBits rx.compileStatusReport = msbBits 1 0 ++ msbBits 3 0 ++ msbBits 4 0 ++
      msbBits 32 rx.st.rxDeliv ++ (rx.bitmapBits (rx.bitmapEnd - rx.bitmapBegin) rx.bitmapBegin ++
        List.replicate pad false)) ∧
    ∃ tx', tx.handleStatusReport rx.compileStatusReport = .ok tx' ∧
      SduWindow.Erases rx.ReportedReceived tx.txWindow tx'.txWindow := by
  have hb := PdcpEntityRx.Reachable.bounded hrx
  have hw := PdcpEntityTx.Reachable.wf htx
  obtain ⟨pad, hbits⟩ := rx.compileStatusReport_bits
  obtain ⟨tx', htx', -, hr⟩ := handleStatusReport_spec hw ht hb.rxDeliv_lt hbits
  refine ⟨⟨pad, hbits⟩, tx', htx', hr.congr_of_all fun c v hv => ?_⟩
  -- a COUNT the TX window holds lies in `[TX_NEXT_ACK, TX_NEXT)`
  have hc := hw.window_range c v hv
  have hlt := hw.txNext_lt
  beta_reduce
  rw [bitmapCounts_append_replicate_false, bitmapCounts_bitmapBits hb]
  exact discarded_iff_reportedReceived hb hc.1 (by omega)

/-- A transmitter that sent three SDUs, COUNTs 0 to 2, and a receiver that got
the PDUs of COUNTs 0 and 2 alone: the report has FMC 1 and a bitmap that marks
COUNT 2, and the agreement holds between the two. -/
theorem statusReport_agreement_after_runs :
    let rcfg : PdcpRxConfig := ⟨.drb, .am, .size12bits, .infinity, pdcpDefaultMaxCount, false⟩
    let tcfg : PdcpTxConfig := ⟨.drb, .am, .size12bits, some (.ms 100), false, 64, pdcpDefaultMaxCount, false⟩
    ∃ (rx : PdcpEntityRx rcfg) (tx : PdcpEntityTx tcfg),
      Transition.run PdcpEntityRx.step (PdcpEntityRx.create rcfg) [.pdu [0x80, 0x00, 0xAA], .pdu [0x80, 0x02, 0xCC]] =
        .ok rx ∧
      Transition.run PdcpEntityTx.step (PdcpEntityTx.create tcfg) [.sdu [0x0A], .sdu [0x0B], .sdu [0x0C]] = .ok tx ∧
      rx.st.rxDeliv = 1 ∧ rx.st.rxNext = 3 ∧
      (∃ pad, octetBits rx.compileStatusReport = msbBits 1 0 ++ msbBits 3 0 ++ msbBits 4 0 ++
        msbBits 32 rx.st.rxDeliv ++ (rx.bitmapBits (rx.bitmapEnd - rx.bitmapBegin) rx.bitmapBegin ++
          List.replicate pad false)) ∧
      ∃ tx', tx.handleStatusReport rx.compileStatusReport = .ok tx' ∧
        SduWindow.Erases rx.ReportedReceived tx.txWindow tx'.txWindow := by
  intro rcfg tcfg
  obtain ⟨rx, hrx, hst⟩ := Fallible.exists_ok_of_toOption_map
    (show (Transition.run PdcpEntityRx.step (PdcpEntityRx.create rcfg)
        [.pdu [0x80, 0x00, 0xAA], .pdu [0x80, 0x02, 0xCC]]).toOption.map
          (fun rx : PdcpEntityRx rcfg => (rx.st.rxDeliv, rx.st.rxNext)) = some (1, 3) by decide +kernel)
  obtain ⟨tx, htx, -⟩ := Fallible.exists_ok_of_toOption_map (f := fun _ => ()) (b := ())
    (show (Transition.run PdcpEntityTx.step (PdcpEntityTx.create tcfg)
        [.sdu [0x0A], .sdu [0x0B], .sdu [0x0C]]).toOption.map (fun _ => ()) = some () by decide +kernel)
  simp only [Prod.mk.injEq] at hst
  exact ⟨rx, tx, hrx, htx, hst.1, hst.2,
    statusReport_agreement (Transition.Reachable.init.run hrx) (Transition.Reachable.init.run htx) rfl⟩

end SrsRan.Pdcp
