import SrsRan.Rlc.RxAm
import SrsRan.Rlc.NackCoverage
import SrsRan.Rlc.SegmentCoverage

/-!
The status report against what the receiver holds. `refresh_status_report`
NACKs the bytes of a partly received SDU from `last_so`, the end of its
last segment, to the end of the SDU; `last_so` is a `uint32_t`, and the
`so_start` of the NACK a `uint16_t`. A segment that ends past offset 65535
makes `so_start` wrap to a small offset, and the NACK then covers octets
the receiver holds.
-/

namespace SrsRan.Rlc

namespace RlcRxAmEntity

/-- With 12-bit SNs and t-Reassembly running: a middle segment of SN 0 with
1000 octets at SO 65000 (`B0 00 FD E8`, then the octets), a full SDU of
SN 1 (`80 01 77`), then the expiry of t-Reassembly, which moves
`RX_Highest_Status` to 2 and refreshes the status report. It NACKs octets
0 to 64999 of SN 0, and SN 0 from `so_start = 66000 - 65536 = 464` to the
end: octet 65500, which the receiver holds, is reported missing. -/
theorem refreshStatusReport_nacks_received_octet :
    let cfg : RlcRxAmConfig := ⟨.size12bits, 35, none, by simp⟩
    ∃ e : RlcRxAmEntity cfg, Reachable cfg e ∧
      (∃ info, CircularMap.get? e.rxWindow 0 = some info ∧ 65500 ∈ segmentsCover info.segments) ∧
      e.statusCached.ackSn = 2 ∧ (0, 65500) ∈ e.statusCached.missing := by
  intro cfg
  have hrun : ((Transition.run step (create cfg)
      [.pdu ([0xB0, 0x00, 0xFD, 0xE8] ++ List.replicate 1000 0x55), .pdu [0x80, 0x01, 0x77],
        .reassemblyTimerExpiry]).toOption.map fun e =>
        (e.statusCached, (CircularMap.get? e.rxWindow 0).map RlcRxAmSduInfo.segments)) =
      some (⟨.size12bits, [⟨0, true, 0, 64999, false, 0⟩, ⟨0, true, 464, 0xffff, false, 0⟩], 15, 0, 2⟩,
        some [⟨.middleSegment, 65000, List.replicate 1000 0x55⟩]) := by
    decide +kernel
  cases h : Transition.run step (create cfg)
      [.pdu ([0xB0, 0x00, 0xFD, 0xE8] ++ List.replicate 1000 0x55), .pdu [0x80, 0x01, 0x77],
        .reassemblyTimerExpiry] with
  | error err =>
    rw [h] at hrun
    cases hrun
  | ok e =>
    rw [h] at hrun
    obtain ⟨hstatus, hsegments⟩ := Prod.mk.inj (Option.some.inj hrun)
    obtain ⟨info, hinfo, hseg⟩ := Option.map_eq_some_iff.mp hsegments
    refine ⟨e, Transition.Reachable.init.run h, ⟨info, hinfo, ?_⟩, by rw [hstatus], ?_⟩
    · rw [hseg]
      refine ⟨_, List.mem_singleton_self _, ?_⟩
      simp only [RlcRxAmSduSegment.Holds, List.length_replicate]
      decide
    · rw [hstatus]
      exact ⟨⟨0, true, 464, 0xffff, false, 0⟩, by simp, 0, rfl, by decide⟩

end RlcRxAmEntity

end SrsRan.Rlc
