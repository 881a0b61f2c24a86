import SrsRan.Lib.Octet
import SrsRan.Support.SduWindow

/-!
What the PDCP transmitting and receiving entities share
(`pdcp_config.h`, `pdcp_sn.h`, `pdcp_entity_tx_rx_base.h`): SN sizes, the
window size, the split of a `uint32_t` COUNT into HFN and SN, and the
COUNT estimated from a bare SN and the lower edge of a window (TS 38.323
5.2.2.1), which the receiver takes for RCVD_COUNT and the transmitter for
NOTIFICATION_COUNT.

`HFN(lower) - 1` is computed in `uint32_t`: at HFN 0 it is `2^32 - 1`, and
the estimate lands `2^32 - 2^sn_size` above the SN instead of below the
window.
-/

namespace SrsRan.Pdcp

open Octet

/-- `pdcp_sn_size`, less `invalid`. -/
inductive PdcpSnSize
  | size12bits
  | size18bits
  deriving DecidableEq, Repr

def pdcpSnSizeToUint : PdcpSnSize → Nat
  | .size12bits => 12
  | .size18bits => 18

/-- `pdcp_rb_type`. -/
inductive PdcpRbType
  | srb
  | drb
  deriving DecidableEq, Repr

/-- `pdcp_rlc_mode`. -/
inductive PdcpRlcMode
  | um
  | am
  deriving DecidableEq, Repr

/-- `pdcp_max_count`: two `uint32_t` thresholds. -/
structure PdcpMaxCount where
  notify : Nat
  hard : Nat
  notify_lt : notify < 2 ^ 32
  hard_lt : hard < 2 ^ 32

/-- The default of `pdcp_custom_config_base`, which the receiving side
inherits: `pdcp_tx_default_max_count_notify` and
`pdcp_tx_default_max_count_hard`. -/
def pdcpDefaultMaxCount : PdcpMaxCount := ⟨0xc0000000, 2 ^ 32 - 1 - 1, by decide, by decide⟩

/-- `pdcp_sn_cardinality`. -/
def pdcpSnCardinality (sz : PdcpSnSize) : Nat := 2 ^ pdcpSnSizeToUint sz

/-- `pdcp_window_size`: half the SN space. -/
def pdcpWindowSize (sz : PdcpSnSize) : Nat := 2 ^ (pdcpSnSizeToUint sz - 1)

/-- `pdcp_data_pdu_header_size`. -/
def pdcpDataPduHeaderSize : PdcpSnSize → Nat
  | .size12bits => 2
  | .size18bits => 3

instance (sz : PdcpSnSize) : NeZero (pdcpWindowSize sz) := ⟨by simp [pdcpWindowSize]⟩

/-- `pdcp_compute_sn`. -/
def pdcpComputeSn (count : Nat) (sz : PdcpSnSize) : Nat :=
  count &&& (0xffffffff >>> (32 - pdcpSnSizeToUint sz))

/-- `pdcp_compute_hfn`. -/
def pdcpComputeHfn (count : Nat) (sz : PdcpSnSize) : Nat := count >>> pdcpSnSizeToUint sz

/-- `pdcp_compute_count`, in `uint32_t`. -/
def pdcpComputeCount (hfn sn : Nat) (sz : PdcpSnSize) : Nat :=
  ((hfn <<< pdcpSnSizeToUint sz) ||| sn) % 2 ^ 32

/-- The COUNT of a received SN next to the window's lower edge `lower`,
with the HFN taken one above, one below or equal to that of `lower`; the
HFN arithmetic is in `uint32_t`. -/
def countEstimation (sz : PdcpSnSize) (lower sn : Nat) : Nat :=
  let ws := pdcpWindowSize sz
  let hfn :=
    if (sn : Int) < (pdcpComputeSn lower sz : Int) - ws then (pdcpComputeHfn lower sz + 1) % 2 ^ 32
    else if sn ≥ pdcpComputeSn lower sz + ws then (pdcpComputeHfn lower sz + (2 ^ 32 - 1)) % 2 ^ 32
    else pdcpComputeHfn lower sz
  pdcpComputeCount hfn sn sz

/-! ## COUNT arithmetic -/

@[simp] theorem pdcpWindowSize_size12bits : pdcpWindowSize .size12bits = 2048 := rfl

@[simp] theorem pdcpWindowSize_size18bits : pdcpWindowSize .size18bits = 131072 := rfl

theorem pdcpSnCardinality_eq (sz : PdcpSnSize) : pdcpSnCardinality sz = 2 * pdcpWindowSize sz := by
  cases sz <;> rfl

theorem pdcpComputeSn_eq (count : Nat) (sz : PdcpSnSize) :
    pdcpComputeSn count sz = count % pdcpSnCardinality sz := by
  have hmask : 0xffffffff >>> (32 - pdcpSnSizeToUint sz) = 2 ^ pdcpSnSizeToUint sz - 1 := by
    cases sz <;> rfl
  rw [pdcpComputeSn, hmask, and_low, pdcpSnCardinality]

theorem pdcpComputeHfn_eq (count : Nat) (sz : PdcpSnSize) :
    pdcpComputeHfn count sz = count / pdcpSnCardinality sz := by
  rw [pdcpComputeHfn, Nat.shiftRight_eq_div_pow, pdcpSnCardinality]

/-- For an SN of the SN space, the COUNT is `hfn * 2^sn_size + sn` modulo
`2^32`. -/
theorem pdcpComputeCount_eq {sn : Nat} {sz : PdcpSnSize} (hsn : sn < pdcpSnCardinality sz)
    (hfn : Nat) : pdcpComputeCount hfn sn sz = (hfn * pdcpSnCardinality sz + sn) % 2 ^ 32 := by
  rw [pdcpComputeCount, shiftLeft_or_eq_add _ _ _ hsn, pdcpSnCardinality]

theorem pdcpComputeSn_lt (count : Nat) (sz : PdcpSnSize) :
    pdcpComputeSn count sz < pdcpSnCardinality sz := by
  rw [pdcpComputeSn_eq]
  exact Nat.mod_lt _ (Nat.two_pow_pos _)

/-- An SN within `Window_Size` of the lower edge's keeps its HFN. -/
theorem countEstimation_of_within {sz : PdcpSnSize} {lower sn : Nat}
    (hsn : sn < pdcpSnCardinality sz)
    (hlo : (pdcpComputeSn lower sz : Int) - pdcpWindowSize sz ≤ sn)
    (hhi : sn < pdcpComputeSn lower sz + pdcpWindowSize sz) :
    countEstimation sz lower sn = (pdcpComputeHfn lower sz * pdcpSnCardinality sz + sn) % 2 ^ 32 := by
  simp only [countEstimation, if_neg (Int.not_lt.mpr hlo), if_neg (Nat.not_le.mpr hhi),
    pdcpComputeCount_eq hsn]

/-- In the first HFN, an SN at least `Window_Size` above the lower edge's
gets HFN `2^32 - 1`: its COUNT is `2^32 - 2^sn_size + sn`, far above the
window instead of below it. -/
theorem countEstimation_of_hfn_zero {sz : PdcpSnSize} {lower sn : Nat}
    (hlower : lower < pdcpSnCardinality sz) (hsn : sn < pdcpSnCardinality sz)
    (hfar : pdcpComputeSn lower sz + pdcpWindowSize sz ≤ sn) :
    countEstimation sz lower sn = 2 ^ 32 - pdcpSnCardinality sz + sn := by
  have hhfn : pdcpComputeHfn lower sz = 0 := by
    rw [pdcpComputeHfn_eq, Nat.div_eq_of_lt hlower]
  have hcard : pdcpSnCardinality sz ≤ 2 ^ 18 := by
    cases sz <;> decide
  have hnot : ¬((sn : Int) < (pdcpComputeSn lower sz : Int) - pdcpWindowSize sz) := by omega
  simp only [countEstimation, if_neg hnot, if_pos hfar, hhfn, pdcpComputeCount_eq hsn]
  rw [Nat.zero_add, Nat.mod_eq_of_lt (by decide : 2 ^ 32 - 1 < 2 ^ 32)]
  have hmul : (2 ^ 32 - 1) * pdcpSnCardinality sz + sn =
      (pdcpSnCardinality sz - 1) * 2 ^ 32 + (2 ^ 32 - pdcpSnCardinality sz + sn) := by
    have hpos : 1 ≤ pdcpSnCardinality sz := Nat.one_le_two_pow
    zify [hpos, show pdcpSnCardinality sz ≤ 2 ^ 32 by omega]
    ring
  rw [hmul, Nat.mul_add_mod_of_lt (by omega)]

end SrsRan.Pdcp
