import EfctVi.RxStep

namespace EfctVi

/-- The pkt_id of the first slot of the superbuf a grant names on queue `q`. -/
def grantBase (q : Nat) (g : SbGrant) : Nat :=
  (q * ciEfctMaxSuperbufs + g.sb) <<< pktIdPktBits

/-- A grant of `ops->next` that fits the pkt_id fields: a local index below
CI_EFCT_MAX_SUPERBUFS, handed out while the live superbuf_pkts lies in `(0, 2^16)`. -/
def boundedGrant (q : Nat) (t : RxTrace) (g : SbGrant) : Prop :=
  g.sb < ciEfctMaxSuperbufs ∧ 0 < (t.vi.q q).liveSuperbufPkts ∧ (t.vi.q q).liveSuperbufPkts < 2 ^ 16

def GrantsOk (grants : List (SbGrant × Nat)) : Prop :=
  ∀ p ∈ grants, p.1.sb < ciEfctMaxSuperbufs ∧ 0 < p.2 ∧ p.2 < 2 ^ 16

/-- Where the pointer stands in the superbuf of grant `(g, N)`; `rest` holds the earlier
grants. -/
structure PtrShape (q : Nat) (ptr : RxqPtr) (g : SbGrant) (N : Nat)
    (rest : List (SbGrant × Nat)) : Prop where
  end_eq : ptr.end = grantBase q g + N
  base_le : grantBase q g ≤ rxqPtrToPktId ptr.next
  le_end : rxqPtrToPktId ptr.next ≤ ptr.end
  sbseq_eq : ptr.next >>> 32 = g.sbseq
  sentinel_eq : rxqPtrToSentinel ptr.next = g.sentinel.toNat
  prev_eq : grantBase q g < rxqPtrToPktId ptr.next → ptr.prev = rxqPtrToPktId ptr.next - 1
  prev_at_base : rxqPtrToPktId ptr.next = grantBase q g →
    ∃ g' N' rest', rest = (g', N') :: rest' ∧ ptr.prev = grantBase q g' + N' - 1

structure PtrInv (q : Nat) (t : RxTrace) : Prop where
  grants_ok : GrantsOk t.grants
  shape : (t.vi.rxqPtr q).end ≠ 0 →
    ∃ g N rest, t.grants = (g, N) :: rest ∧ PtrShape q (t.vi.rxqPtr q) g N rest

theorem grantBase_bounds {q : Nat} {g : SbGrant} (hq : q < 8) (hsb : g.sb < 2048) :
    grantBase q g + 2 ^ 16 ≤ 2 ^ 30 ∧ grantBase q g % 2 ^ 16 = 0 := by
  simp only [grantBase, ciEfctMaxSuperbufs, pktIdPktBits]
  omega

theorem GrantsOk.head {grants rest : List (SbGrant × Nat)} {g : SbGrant} {N : Nat}
    (h : GrantsOk grants) (hg : grants = (g, N) :: rest) : g.sb < 2048 ∧ 0 < N ∧ N < 2 ^ 16 :=
  h (g, N) (by simp [hg])

theorem PtrInv.end_lt {q : Nat} {t : RxTrace} (hq : q < 8) (h : PtrInv q t) :
    (t.vi.rxqPtr q).end < 2 ^ 31 := by
  by_cases h0 : (t.vi.rxqPtr q).end = 0
  · omega
  · obtain ⟨g, N, rest, hgr, hs⟩ := h.shape h0
    obtain ⟨hsb, -, hN⟩ := h.grants_ok.head hgr
    have hb := grantBase_bounds hq hsb
    have := hs.end_eq
    omega

/-- The invariant reads only the pointer of `q` and the grants. -/
theorem PtrInv.frame {q : Nat} {t t' : RxTrace} (h : PtrInv q t)
    (hp : t'.vi.rxqPtr q = t.vi.rxqPtr q) (hg : t'.grants = t.grants) : PtrInv q t' :=
  ⟨hg ▸ h.grants_ok, by rw [hp, hg]; exact h.shape⟩

/-- The 64-bit `next` word: the sequence number over the sentinel over the slot `p`. -/
theorem nextWord_fields (sbseq : Nat) {p : Nat} (s : Bool) (hp : p < 2 ^ 31) :
    rxqPtrToPktId (sbseq <<< 32 ||| (s.toNat * 2 ^ 31 + p)) = p ∧
      (sbseq <<< 32 ||| (s.toNat * 2 ^ 31 + p)) >>> 32 = sbseq ∧
      rxqPtrToSentinel (sbseq <<< 32 ||| (s.toNat * 2 ^ 31 + p)) = s.toNat := by
  have hs : s.toNat < 2 := by cases s <;> decide
  simp only [shiftLeft_or_eq_add' (show s.toNat * 2 ^ 31 + p < 2 ^ 32 by omega),
    rxqPtrToPktId_eq, rxqPtrToSentinel_eq, Nat.shiftRight_eq_div_pow]
  omega

/-- Stepping `next` by `i` slots stays clear of the sentinel and sequence bits while the slot
stays below `2^31`. -/
theorem nextWord_add {next i : Nat} (hn : next >>> 32 < 2 ^ 32)
    (hp : rxqPtrToPktId next + i < 2 ^ 31) :
    (next + i) % 2 ^ 64 = next + i ∧ rxqPtrToPktId (next + i) = rxqPtrToPktId next + i ∧
      (next + i) >>> 31 = next >>> 31 := by
  simp only [rxqPtrToPktId_eq, Nat.shiftRight_eq_div_pow] at *
  omega

/-- One pass of the loop that emits an event moves the pointer one slot on. -/
theorem PtrShape.advance {q N : Nat} {ptr : RxqPtr} {g : SbGrant} {rest : List (SbGrant × Nat)}
    (hs : PtrShape q ptr g N rest) (hlt : rxqPtrToPktId ptr.next < ptr.end)
    (hend : ptr.end < 2 ^ 31) :
    PtrShape q { ptr with prev := rxqPtrToPktId ptr.next, next := (ptr.next + 1) % 2 ^ 64 }
      g N rest := by
  obtain ⟨he, hb, -, hseq, hsent, -, -⟩ := hs
  obtain ⟨hmod, hpk, hhi⟩ := nextWord_add (i := 1) (by rw [hseq]; exact g.sbseq_lt) (by omega)
  have hbits : (ptr.next + 1) >>> 32 = ptr.next >>> 32 ∧
      rxqPtrToSentinel (ptr.next + 1) = rxqPtrToSentinel ptr.next := by
    simp only [rxqPtrToSentinel_eq, Nat.shiftRight_eq_div_pow] at hhi ⊢
    omega
  refine ⟨he, ?_, ?_, ?_, ?_, fun _ => ?_, fun h => absurd h ?_⟩ <;>
    simp only [hmod, hpk, hbits.1, hbits.2] <;> omega

/-- The pointer rx_rollover leaves, field by field: `end` past the `N` slots of the new
superbuf, and its sequence number and sentinel over the first slot, or over the second one at
startup and after a nodesc gap, when `prev` moves onto the first. -/
theorem rxRollover_fields {s s' : RxState} {q : Nat} {g : SbGrant} {frees : List (Nat × Nat)}
    (hq : q < 8) (hsb : g.sb < 2048) (hN : (s.q q).liveSuperbufPkts < 2 ^ 16)
    (h : rxRollover s q (some g) = some (s', frees)) :
    let skip := (s.rxqPtr q).end = 0 ∨ g.sbseq ≠ (s.rxqPtr q).next >>> 32 + 1
    rxqPtrToPktId (s'.rxqPtr q).next = grantBase q g + (if skip then 1 else 0) ∧
      (s'.rxqPtr q).next >>> 32 = g.sbseq ∧
      rxqPtrToSentinel (s'.rxqPtr q).next = g.sentinel.toNat ∧
      (s'.rxqPtr q).prev = (if skip then grantBase q g else (s.rxqPtr q).prev) ∧
      (s'.rxqPtr q).end = grantBase q g + (s.q q).liveSuperbufPkts := by
  have hb := grantBase_bounds hq hsb
  have hs : g.sentinel.toNat < 2 := by cases g.sentinel <;> decide
  have hpk : ((q * ciEfctMaxSuperbufs + g.sb) <<< pktIdPktBits) % 2 ^ 32 = grantBase q g :=
    Nat.mod_eq_of_lt (show grantBase q g < 2 ^ 32 by omega)
  have hlow : grantBase q g ||| g.sentinel.toNat <<< 31 = g.sentinel.toNat * 2 ^ 31 + grantBase q g :=
    shiftLeft_or_eq_add (by omega)
  have hlow1 : (g.sentinel.toNat * 2 ^ 31 + grantBase q g + 1) % 2 ^ 32 =
      g.sentinel.toNat * 2 ^ 31 + (grantBase q g + 1) := by omega
  have hp := rxRollover_ptr h
  simp only [hpk, hlow, hlow1] at hp
  by_cases hskip : (s.rxqPtr q).end = 0 ∨ g.sbseq ≠ (s.rxqPtr q).next >>> 32 + 1
  · simp only [hskip, ↓reduceIte] at hp ⊢
    obtain ⟨h1, h2, h3⟩ := nextWord_fields g.sbseq g.sentinel
      (show grantBase q g + 1 < 2 ^ 31 by omega)
    rw [hp]
    exact ⟨h1, h2, h3, rfl, by dsimp only; omega⟩
  · simp only [hskip, ↓reduceIte] at hp ⊢
    obtain ⟨h1, h2, h3⟩ := nextWord_fields g.sbseq g.sentinel
      (show grantBase q g < 2 ^ 31 by omega)
    rw [hp]
    exact ⟨by simpa using h1, h2, h3, rfl, by dsimp only; omega⟩

theorem ptrInv_rollover {q : Nat} {t : RxTrace} {g : SbGrant} {r : RxTrace × List (Nat × Nat)}
    (hq : q < 8) (ht : PtrInv q t) (hneed : efctRxqNeedRollover (t.vi.rxqPtr q))
    (hg : boundedGrant q t g) (hr : traceRollover q t (some g) = some r) :
    PtrInv q r.1 ∧ rxqPtrToPktId (r.1.vi.rxqPtr q).next ≤ (r.1.vi.rxqPtr q).end := by
  obtain ⟨hroll, hgr⟩ := traceRollover_some hr
  obtain ⟨hsb, hN0, hN⟩ := hg
  have hb := grantBase_bounds hq hsb
  obtain ⟨h1, h2, h3, h4, h5⟩ := rxRollover_fields hq hsb hN hroll
  have hgrants : GrantsOk r.1.grants := by
    rw [hgr]
    intro p hp'
    rcases List.mem_cons.mp hp' with rfl | hp'
    · exact ⟨hsb, hN0, hN⟩
    · exact ht.grants_ok p hp'
  by_cases hskip : (t.vi.rxqPtr q).end = 0 ∨ g.sbseq ≠ (t.vi.rxqPtr q).next >>> 32 + 1
  · rw [if_pos hskip] at h1 h4
    exact ⟨⟨hgrants, fun _ => ⟨g, _, t.grants, hgr, h5, by omega, by omega, h2, h3,
      fun _ => by omega, fun h => absurd h (by omega)⟩⟩, by omega⟩
  · rw [if_neg hskip] at h1 h4
    obtain ⟨g0, N0, rest0, hgr0, hs0⟩ := ht.shape fun h0 => hskip (.inl h0)
    have hN0' := (ht.grants_ok.head hgr0).2.1
    have he0 := hs0.end_eq
    have hpn : rxqPtrToPktId (t.vi.rxqPtr q).next = (t.vi.rxqPtr q).end :=
      le_antisymm hs0.le_end (by simpa [efctRxqNeedRollover] using hneed)
    have hprev := hs0.prev_eq (by omega)
    exact ⟨⟨hgrants, fun _ => ⟨g, _, t.grants, hgr, h5, by omega, by omega, h2, h3,
      fun h => absurd h (by omega), fun _ => ⟨g0, N0, rest0, hgr0, by omega⟩⟩⟩, by omega⟩

/-- A pass that emits an event moves `prev` onto `next`, and `next` one slot on. -/
theorem pollRxAdvance_ptr {q : Nat} {t : RxTrace} (header : RxHeader) (hq : q < 8) (h : PtrInv q t)
    (hlt : rxqPtrToPktId (t.vi.rxqPtr q).next < (t.vi.rxqPtr q).end) :
    (pollRxAdvance q t.vi header).rxqPtr q =
        ⟨(t.vi.rxqPtr q).next + 1, rxqPtrToPktId (t.vi.rxqPtr q).next, (t.vi.rxqPtr q).end⟩ ∧
      rxqPtrToPktId ((t.vi.rxqPtr q).next + 1) = rxqPtrToPktId (t.vi.rxqPtr q).next + 1 := by
  obtain ⟨g, N, rest, hgr, hs⟩ := h.shape (by omega)
  have hend := h.end_lt hq
  obtain ⟨hmod, hpk, -⟩ := nextWord_add (i := 1) (by rw [hs.sbseq_eq]; exact g.sbseq_lt)
    (show rxqPtrToPktId (t.vi.rxqPtr q).next + 1 < 2 ^ 31 by omega)
  exact ⟨by rw [pollRxAdvance_rxqPtr, hmod], hpk⟩

theorem ptrInv_emit {q : Nat} {t : RxTrace} (header : RxHeader) (hq : q < 8) (ht : PtrInv q t)
    (hlt : rxqPtrToPktId (t.vi.rxqPtr q).next < (t.vi.rxqPtr q).end) :
    PtrInv q (t.deliver (pollRxAdvance q t.vi header) (t.vi.rxqPtr q).prev header) := by
  obtain ⟨g, N, rest, hgr, hs⟩ := ht.shape (by omega)
  exact ⟨ht.grants_ok, fun _ => ⟨g, N, rest, hgr, by simpa using hs.advance hlt (ht.end_lt hq)⟩⟩

theorem ptrInv_pass {c : RxHeaderCodes} {q : Nat} {t : RxTrace} {header : RxHeader} (hq : q < 8)
    (ht : PtrInv q t) (hlt : rxqPtrToPktId (t.vi.rxqPtr q).next < (t.vi.rxqPtr q).end) :
    PtrInv q (tracePass c q t header) := by
  unfold tracePass
  split
  · rename_i vi frees hs
    have hv : vi = (pollRxRolloverHeader q t.vi).1 := by rw [(pollRxStep_stop hs).2]
    refine ⟨by simpa using ht.grants_ok, fun h0 => absurd ?_ h0⟩
    simp [hv]
  · rename_i vi ev hs
    obtain ⟨-, rfl⟩ := pollRxStep_emit hs
    exact ptrInv_emit header hq ht hlt

theorem ptrInv_step {nicOk : RxTrace → Nat → Prop} {c : RxHeaderCodes} {q : Nat} {t t' : RxTrace}
    (hq : q < 8) (ht : PtrInv q t) (h : RxStep (boundedGrant q) nicOk c q t t') : PtrInv q t' := by
  cases h with
  | poll grant refreshOk evsLen hg =>
    exact tracePollRx_preserves (PtrInv q) (boundedGrant q)
      (fun _ _ _ ht hn hg hr => ptrInv_rollover hq ht hn hg hr) (fun _ ht => ht.frame rfl rfl)
      (fun _ _ ht hlt _ => ptrInv_pass hq ht hlt) (fun _ ht => ht.end_lt hq) grant refreshOk evsLen ht hg
  | release x _ =>
    exact ht.frame (by rw [traceRelease_vi, efctViRxpktRelease_rxqPtr]) (traceRelease_grants q t x)
  | nicWrite => exact ht.frame rfl rfl
  | publish => exact ht.frame rfl rfl
  | setDiscards => exact ht.frame rfl rfl

theorem ptrInv_reach {nicOk : RxTrace → Nat → Prop} {c : RxHeaderCodes} {q : Nat} {t : RxTrace}
    (hq : q < 8) (h : RxReach (boundedGrant q) nicOk c q t) : PtrInv q t := by
  induction h with
  | start s qid =>
    exact ⟨fun p hp => absurd hp (List.not_mem_nil p), fun h0 => absurd (by simp [efctViStartRxq]) h0⟩
  | step _ hs ih => exact ptrInv_step hq ih hs

theorem rxq_ptr_tracks_superbuf {nicOk : RxTrace → Nat → Prop} {c : RxHeaderCodes} {q : Nat}
    {t : RxTrace} (hq : q < efViMaxEfctRxqs) (reach : RxReach (boundedGrant q) nicOk c q t)
    (hend : (t.vi.rxqPtr q).end ≠ 0) :
    ∃ g N rest, t.grants = (g, N) :: rest ∧ PtrShape q (t.vi.rxqPtr q) g N rest ∧
      ∀ evsLen, ∀ i < pollRxBudget (t.vi.rxqPtr q) evsLen,
        rxqPtrToPktId ((t.vi.rxqPtr q).next + i) = rxqPtrToPktId (t.vi.rxqPtr q).next + i ∧
        rxqPtrToPktId (t.vi.rxqPtr q).next + i < grantBase q g + N ∧
        ((t.vi.rxqPtr q).next + i) >>> 31 = (t.vi.rxqPtr q).next >>> 31 := by
  have hinv := ptrInv_reach hq reach
  have hlt := hinv.end_lt hq
  obtain ⟨g, N, rest, hgr, hs⟩ := hinv.shape hend
  refine ⟨g, N, rest, hgr, hs, fun evsLen i hi => ?_⟩
  have hb := pollRxBudget_le evsLen hs.le_end hlt
  have he := hs.end_eq
  obtain ⟨-, h1, h2⟩ := nextWord_add (i := i) (by rw [hs.sbseq_eq]; exact g.sbseq_lt) (by omega)
  exact ⟨h1, by omega, h2⟩

theorem rxq_ptr_tracks_superbuf_first_grant :
    ∃ t : RxTrace, (0 : Nat) < efViMaxEfctRxqs ∧
      RxReach (boundedGrant 0) (fun _ _ => True) ⟨0, 0, 0, 0, 0, 0, 0, 0, 0⟩ 0 t ∧
      (t.vi.rxqPtr 0).end ≠ 0 ∧
      ∃ g N rest, t.grants = (g, N) :: rest ∧ PtrShape 0 (t.vi.rxqPtr 0) g N rest ∧
        ∀ evsLen, ∀ i < pollRxBudget (t.vi.rxqPtr 0) evsLen,
          rxqPtrToPktId ((t.vi.rxqPtr 0).next + i) = rxqPtrToPktId (t.vi.rxqPtr 0).next + i ∧
          rxqPtrToPktId (t.vi.rxqPtr 0).next + i < grantBase 0 g + N ∧
          ((t.vi.rxqPtr 0).next + i) >>> 31 = (t.vi.rxqPtr 0).next >>> 31 := by
  obtain ⟨t, reach, hend⟩ : ∃ t, RxReach (boundedGrant 0) (fun _ _ => True)
      ⟨0, 0, 0, 0, 0, 0, 0, 0, 0⟩ 0 t ∧ (t.vi.rxqPtr 0).end ≠ 0 :=
    ⟨_, .step (.start ⟨fun _ => ⟨0, 0, 0⟩, fun _ => ⟨0, 0, 1, 0, ⟨false, false⟩⟩,
        fun _ => ⟨0, 0, 0, 0, 0⟩, fun _ => -1,
        fun _ => ⟨0, 0, 0, 0, 0, 0, 0, 0, false, false, 0, 0, 0, 0, by decide, by decide⟩,
        defaultRxDiscardMask⟩ 0)
      (.poll (some ⟨0, false, 0, by decide⟩) true 0 fun g hg _ => by
        cases hg; exact ⟨by decide, by decide, by decide⟩),
      by simp [tracePollRx, efctViStartRxq, efctRxqNeedRollover, traceRollover, rxRollover_eq,
        traceAfterRollover, efctRxqNeedConfig, traceHeaders, pollRxBudget, traceLoop, pktIdPktBits]⟩
  exact ⟨t, by decide, reach, hend, rxq_ptr_tracks_superbuf (by decide) reach hend⟩

end EfctVi
