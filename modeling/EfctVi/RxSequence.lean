import EfctVi.RxRefcount

namespace EfctVi

/-- rx_rollover compares the 32-bit sbseq with `(next >> 32) + 1` in 64 bits. At the wrap of the
sequence number, the superbuf that follows in sequence is taken for a nodesc gap: the pending
`prev` is released with no event for it, and the first slot of the new superbuf is skipped. -/
theorem rx_rollover_drops_at_sbseq_wrap {nicOk : RxTrace → Nat → Prop} {c : RxHeaderCodes}
    {q : Nat} {t : RxTrace} {g : SbGrant} {r : RxTrace × List (Nat × Nat)}
    (hq : q < efViMaxEfctRxqs) (reach : RxReach (freshGrant q) nicOk c q t)
    (hend : (t.vi.rxqPtr q).end ≠ 0) (hwrap : (t.vi.rxqPtr q).next >>> 32 = 2 ^ 32 - 1)
    (hg : freshGrant q t g) (hseq : g.sbseq = ((t.vi.rxqPtr q).next >>> 32 + 1) % 2 ^ 32)
    (hr : traceRollover q t (some g) = some r) :
    (t.vi.rxqPtr q).prev ∈ unresolvedSlots (t.vi.rxqPtr q) ∧
      (t.vi.rxqPtr q).prev ∉ unresolvedSlots (r.1.vi.rxqPtr q) ∧ r.1.outstanding = t.outstanding ∧
      sbRefcnt q r.1.vi (pktIdToLocalSuperbufIx (t.vi.rxqPtr q).prev) + 1 =
        sbRefcnt q t.vi (pktIdToLocalSuperbufIx (t.vi.rxqPtr q).prev) ∧
      rxqPtrToPktId (r.1.vi.rxqPtr q).next = grantBase q g + 1 := by
  have h := refInv_reach hq reach
  obtain ⟨⟨hsb, hN0, hN⟩, hfree⟩ := hg
  have hb := grantBase_bounds hq hsb
  simp only [traceRollover, Option.map_eq_some'] at hr
  obtain ⟨⟨s', frees⟩, hroll, rfl⟩ := hr
  have hgap : (t.vi.rxqPtr q).end ≠ 0 ∧ g.sbseq ≠ (t.vi.rxqPtr q).next >>> 32 + 1 :=
    ⟨hend, by rw [hseq, hwrap]; decide⟩
  have hmem : (t.vi.rxqPtr q).prev ∈ unresolvedSlots (t.vi.rxqPtr q) := by
    simp [unresolvedSlots, hend]
  obtain ⟨hxq, hxh⟩ := h.law.pending_held _ (List.mem_append_left _ hmem)
  have hne := h.law.ne_of_not_held hfree _ (List.mem_append_left _ hmem)
  obtain ⟨h1, -, -, h4, h5⟩ := rxRollover_fields hq hsb hN hroll
  rw [if_pos (.inr hgap.2)] at h1 h4
  obtain ⟨hrc, -⟩ := rxRollover_spec hq hsb (fun _ => hxq) hroll
  simp only [RxTrace.free_vi, RxTrace.free_outstanding]
  refine ⟨hmem, fun hin => hne ?_, trivial, ?_, h1⟩
  · rw [unresolvedSlots, if_neg (by omega), h4, h1, h5, List.mem_cons, List.mem_range'_1] at hin
    rcases hin with hin | hin
    · rw [hin]
      exact (slot_fields (q := q) hsb le_rfl (by omega)).2
    · exact (slot_fields (q := q) hsb (by omega) (by omega)).2
  · obtain ⟨hlt, heq, hbound, hpos⟩ := h.law.held_ok _ hxh
    rw [hrc _ hlt, if_neg hne, if_pos hgap, if_pos rfl, wrapSub]
    omega

theorem rx_rollover_drops_at_sbseq_wrap_first_superbufs :
    ∃ (t : RxTrace) (g : SbGrant) (r : RxTrace × List (Nat × Nat)),
      (0 : Nat) < efViMaxEfctRxqs ∧
      RxReach (freshGrant 0) (fun _ _ => True) ⟨0, 0, 0, 0, 0, 0, 0, 0, 0⟩ 0 t ∧
      (t.vi.rxqPtr 0).end ≠ 0 ∧ (t.vi.rxqPtr 0).next >>> 32 = 2 ^ 32 - 1 ∧ freshGrant 0 t g ∧
      g.sbseq = ((t.vi.rxqPtr 0).next >>> 32 + 1) % 2 ^ 32 ∧ traceRollover 0 t (some g) = some r ∧
      (t.vi.rxqPtr 0).prev ∈ unresolvedSlots (t.vi.rxqPtr 0) ∧
      (t.vi.rxqPtr 0).prev ∉ unresolvedSlots (r.1.vi.rxqPtr 0) ∧ r.1.outstanding = t.outstanding ∧
      sbRefcnt 0 r.1.vi (pktIdToLocalSuperbufIx (t.vi.rxqPtr 0).prev) + 1 =
        sbRefcnt 0 t.vi (pktIdToLocalSuperbufIx (t.vi.rxqPtr 0).prev) ∧
      rxqPtrToPktId (r.1.vi.rxqPtr 0).next = grantBase 0 g + 1 := by
  obtain ⟨t, reach, hend, hwrap, hfree, hN⟩ : ∃ t, RxReach (freshGrant 0) (fun _ _ => True)
      ⟨0, 0, 0, 0, 0, 0, 0, 0, 0⟩ 0 t ∧ (t.vi.rxqPtr 0).end ≠ 0 ∧
      (t.vi.rxqPtr 0).next >>> 32 = 2 ^ 32 - 1 ∧ t.held 1 = false ∧
      (t.vi.q 0).liveSuperbufPkts = 1 :=
    ⟨_, .step (.start ⟨fun _ => ⟨0, 0, 0⟩, fun _ => ⟨0, 0, 1, 0, ⟨false, false⟩⟩,
        fun _ => ⟨0, 0, 0, 0, 0⟩, fun _ => -1,
        fun _ => ⟨0, 0, 0, 0, 0, 0, 0, 0, false, false, 0, 0, 0, 0, by decide, by decide⟩,
        defaultRxDiscardMask⟩ 0)
      (.poll (some ⟨0, false, 2 ^ 32 - 1, by decide⟩) true 0 fun g hg _ => by
        cases hg; exact ⟨⟨by decide, by decide, by decide⟩, rfl⟩),
      by simp [tracePollRx, efctViStartRxq, efctRxqNeedRollover, traceRollover, rxRollover_eq,
        traceAfterRollover, efctRxqNeedConfig, traceHeaders, pollRxBudget, traceLoop, pktIdPktBits,
        RxTrace.free]⟩
  have hg : freshGrant 0 t ⟨1, false, 0, by decide⟩ := ⟨⟨by decide, by omega, by omega⟩, hfree⟩
  obtain ⟨r, hr⟩ : ∃ r, traceRollover 0 t (some ⟨1, false, 0, by decide⟩) = some r :=
    ⟨_, by simp only [traceRollover, rxRollover_eq]; rfl⟩
  exact ⟨t, _, r, by decide, reach, hend, hwrap, hg, by rw [hwrap]; decide, hr,
    rx_rollover_drops_at_sbseq_wrap (by decide) reach hend hwrap hg (by rw [hwrap]; decide) hr⟩

end EfctVi
