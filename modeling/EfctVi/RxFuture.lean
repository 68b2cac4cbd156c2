import EfctVi.RxRefcount
import EfctVi.EventqPoll

namespace EfctVi

/-- The constants the future path uses without defining: EFCT_RX_SUPERBUF_BYTES,
EFCT_PKT_STRIDE, EFCT_RX_HEADER_NEXT_FRAME_LOC_1 and CI_EFCT_DEFAULT_POISON. -/
structure EfctRxDefs where
  superbufBytes : Nat
  pktStride : Nat
  nextFrameLoc1 : Nat
  defaultPoison : Nat
  deriving DecidableEq, Repr

/-- efct_vi_rxpkt_get, as a byte offset. -/
def efctViRxpktGet (e : EfctRxDefs) (pktId : Nat) : Nat :=
  efctRxHeader e.superbufBytes e.pktStride pktId + e.nextFrameLoc1

/-- Modelled from the spec: __builtin_ctzll is the compiler's, outside src/; this is its value
on the non-zero words the peek's loop gives it. -/
def builtinCtzll (x : Nat) : Nat :=
  builtinFfsll x - 1

/-- The loop of efct_vi_rx_future_peek over the set bits of `qs`, lowest first; `load` answers its
volatile loads, and a ghost list records the queues it asserts on. -/
def futurePeekLoop (e : EfctRxDefs) (load : Nat → Nat) (s : RxState) :
    Nat → Nat → Option (Nat × Nat) × List Nat
  | 0, _ => (none, [])
  | fuel + 1, qs =>
    if qs = 0 then (none, [])
    else
      let qid := builtinCtzll qs
      let rxqPtr := s.rxqPtr qid
      if efctRxqNeedRollover rxqPtr || efctRxqNeedConfig (s.q qid) then
        futurePeekLoop e load s fuel (qs &&& (qs - 1))
      else
        let pktId := rxqPtr.prev
        let start := efctRxHeader e.superbufBytes e.pktStride pktId + e.nextFrameLoc1
        if load (start - 2) ≠ e.defaultPoison then (some (start, qid), [qid])
        else
          let r := futurePeekLoop e load s fuel (qs &&& (qs - 1))
          (r.1, qid :: r.2)

/-- efct_vi_rx_future_peek; the 64-bit `*active_qs` has at most 64 set bits. -/
def efctViRxFuturePeek (e : EfctRxDefs) (load : Nat → Nat) (vi : ViState) :
    Option (Nat × Nat) × List Nat :=
  futurePeekLoop e load vi.rx 64 (vi.activeQs % 2 ^ 64)

/-- efct_vi_rx_future_poll: efct_poll_rx on the queue the peek recorded. -/
def efctViRxFuturePoll (c : RxHeaderCodes) (futureQid : Nat) (grant : Option SbGrant)
    (refreshOk : Bool) (evsLen : Int) (s : RxState) : RxState × List EfEvent × List (Nat × Nat) :=
  efctPollRx c futureQid grant refreshOk evsLen s

/-- The pkt_id an RX event reports. -/
def EfEvent.rxPktId : EfEvent → Option Nat
  | .rxRef _ pktId .. | .rxRefDiscard _ pktId .. => some pktId
  | _ => none

section Peek

variable {e : EfctRxDefs} {load : Nat → Nat} {s : RxState}

/-- The peek examines only queues with no rollover and no configuration change pending. -/
theorem futurePeekLoop_examined : ∀ {fuel qs q : Nat}, q ∈ (futurePeekLoop e load s fuel qs).2 →
    efctRxqNeedRollover (s.rxqPtr q) = false ∧ efctRxqNeedConfig (s.q q) = false
  | 0, _, _, h => by simp [futurePeekLoop] at h
  | fuel + 1, qs, q, h => by
    simp only [futurePeekLoop] at h
    split_ifs at h with h0 hskip
    · simp at h
    · exact futurePeekLoop_examined h
    · obtain rfl := List.mem_singleton.mp h
      simpa using hskip
    · rcases List.mem_cons.mp h with rfl | h
      · simpa using hskip
      · exact futurePeekLoop_examined h

/-- The frame the peek returns lies where efct_vi_rxpkt_get puts the frame of `prev` on a queue
it examined. -/
theorem futurePeekLoop_frame : ∀ {fuel qs p q : Nat},
    (futurePeekLoop e load s fuel qs).1 = some (p, q) →
      q ∈ (futurePeekLoop e load s fuel qs).2 ∧ p = efctViRxpktGet e (s.rxqPtr q).prev
  | 0, _, _, _, h => by simp [futurePeekLoop] at h
  | fuel + 1, qs, p, q, h => by
    simp only [futurePeekLoop] at h ⊢
    split_ifs at h ⊢
    · exact futurePeekLoop_frame h
    · simp only [Option.some.injEq, Prod.mk.injEq] at h
      obtain ⟨rfl, rfl⟩ := h
      exact ⟨List.mem_singleton_self _, rfl⟩
    · exact (futurePeekLoop_frame h).imp (List.mem_cons_of_mem _) id

end Peek

section Poll

variable {c : RxHeaderCodes} {q : Nat} {s : RxState}

theorem efctPollRx_of_ready {g : Option SbGrant} {o : Bool} {m : Int}
    (hr : efctRxqNeedRollover (s.rxqPtr q) = false) (hc : efctRxqNeedConfig (s.q q) = false) :
    efctPollRx c q g o m s = efctPollRxHeaders c q m s [] := by
  simp [efctPollRx, hr, pollRxAfterRollover_quiet, hc]

theorem pollRxStep_emit_rxPktId {s' : RxState} {header : RxHeader} {ev : EfEvent}
    (h : pollRxStep c q s header = .emit s' ev) : ev.rxPktId = some (s.rxqPtr q).prev := by
  unfold pollRxStep at h
  split at h <;> cases h <;> rfl

/-- The first event of efct_poll_rx's loop reports `prev`. -/
theorem pollRxLoop_head_rxPktId {n : Nat} :
    ∀ ev ∈ (pollRxLoop c q n s).2.1.head?, ev.rxPktId = some (s.rxqPtr q).prev := by
  cases n with
  | zero => simp [pollRxLoop]
  | succ n =>
    simp only [pollRxLoop]
    split
    · simp
    · split
      · simp
      · rename_i h
        simpa using pollRxStep_emit_rxPktId h

end Poll

/-- After efct_vi_rx_future_peek returns the frame `p` of queue `q`, efct_vi_rx_future_poll reads
the headers of `q` directly, and its first event reports the `prev` whose frame is `p`. -/
theorem future_poll_reports_peeked_frame (e : EfctRxDefs) (load : Nat → Nat) (vi : ViState)
    {p q : Nat} (hpeek : (efctViRxFuturePeek e load vi).1 = some (p, q)) (c : RxHeaderCodes)
    (grant : Option SbGrant) (refreshOk : Bool) (evsLen : Int) :
    efctViRxFuturePoll c q grant refreshOk evsLen vi.rx = efctPollRxHeaders c q evsLen vi.rx [] ∧
      efctViRxpktGet e (vi.rx.rxqPtr q).prev = p ∧
      ∀ ev ∈ (efctViRxFuturePoll c q grant refreshOk evsLen vi.rx).2.1.head?,
        ev.rxPktId = some (vi.rx.rxqPtr q).prev := by
  obtain ⟨hq, hp⟩ := futurePeekLoop_frame hpeek
  obtain ⟨hr, hc⟩ := futurePeekLoop_examined hq
  have hpoll : efctViRxFuturePoll c q grant refreshOk evsLen vi.rx =
      efctPollRxHeaders c q evsLen vi.rx [] := efctPollRx_of_ready hr hc
  refine ⟨hpoll, hp.symm, ?_⟩
  rw [hpoll]
  exact pollRxLoop_head_rxPktId

/-- The peek on the one-packet queue 0 of oneRxqVi, whose frame word is not the poison. -/
theorem future_poll_reports_peeked_frame_first_slot :
    (efctViRxFuturePeek ⟨1048576, 2048, 64, 1⟩ (fun _ => 0) (oneRxqVi 1)).1 = some (64, 0) ∧
      efctViRxFuturePoll ⟨0, 0, 0, 0, 0, 0, 0, 0, 0⟩ 0 none true 1 (oneRxqVi 1).rx =
        efctPollRxHeaders ⟨0, 0, 0, 0, 0, 0, 0, 0, 0⟩ 0 1 (oneRxqVi 1).rx [] ∧
      efctViRxpktGet ⟨1048576, 2048, 64, 1⟩ ((oneRxqVi 1).rx.rxqPtr 0).prev = 64 ∧
      ∀ ev ∈ (efctViRxFuturePoll ⟨0, 0, 0, 0, 0, 0, 0, 0, 0⟩ 0 none true 1
          (oneRxqVi 1).rx).2.1.head?,
        ev.rxPktId = some ((oneRxqVi 1).rx.rxqPtr 0).prev :=
  have hpeek : (efctViRxFuturePeek ⟨1048576, 2048, 64, 1⟩ (fun _ => 0) (oneRxqVi 1)).1 =
      some (64, 0) := by decide
  ⟨hpeek, future_poll_reports_peeked_frame _ _ _ hpeek _ _ _ _⟩

theorem RxReach.mono {P P' : RxTrace → SbGrant → Prop} (hP : ∀ t g, P t g → P' t g)
    {nicOk : RxTrace → Nat → Prop} {c : RxHeaderCodes} {q : Nat} {t : RxTrace}
    (h : RxReach P nicOk c q t) : RxReach P' nicOk c q t := by
  induction h with
  | start s qid => exact .start s qid
  | step _ hs ih =>
    refine .step ih ?_
    cases hs with
    | poll grant refreshOk evsLen hg =>
      exact .poll grant refreshOk evsLen fun g h1 h2 => hP _ _ (hg g h1 h2)
    | release x hx => exact .release x hx
    | nicWrite p header hp => exact .nicWrite p header hp
    | publish pkts gen ts => exact .publish pkts gen ts
    | setDiscards f => exact .setDiscards f

/-- On every run of one queue, the EF_VI_ASSERT(pkt_id < rxq_ptr->end) of efct_vi_rx_future_peek
fails only right after a rollover onto a superbuf whose index is not above that of `prev`. -/
theorem future_peek_assert_fails_only_after_rollover {nicOk : RxTrace → Nat → Prop}
    {c : RxHeaderCodes} {q : Nat} {t : RxTrace} (hq : q < efViMaxEfctRxqs)
    (reach : RxReach (boundedGrant q) nicOk c q t) (e : EfctRxDefs) (load : Nat → Nat)
    {vi : ViState} (hvi : vi.rx = t.vi) (hex : q ∈ (efctViRxFuturePeek e load vi).2)
    (hfail : ¬(t.vi.rxqPtr q).prev < (t.vi.rxqPtr q).end) :
    ∃ g N g' N' rest, t.grants = (g, N) :: (g', N') :: rest ∧
      rxqPtrToPktId (t.vi.rxqPtr q).next = grantBase q g ∧
      (t.vi.rxqPtr q).prev = grantBase q g' + N' - 1 ∧ g.sb ≤ g'.sb := by
  have hr := (futurePeekLoop_examined hex).1
  rw [hvi] at hr
  have hlt : rxqPtrToPktId (t.vi.rxqPtr q).next < (t.vi.rxqPtr q).end := by
    simpa [efctRxqNeedRollover] using hr
  have hinv := ptrInv_reach hq reach
  obtain ⟨g, N, rest, hgr, hs⟩ := hinv.shape (by omega)
  have hbase : rxqPtrToPktId (t.vi.rxqPtr q).next = grantBase q g := by
    by_contra hne
    exact hfail (by rw [hs.prev_eq (lt_of_le_of_ne hs.base_le (Ne.symm hne))]; omega)
  obtain ⟨g', N', rest', rfl, hprev⟩ := hs.prev_at_base hbase
  refine ⟨g, N, g', N', rest', hgr, hbase, hprev, ?_⟩
  have hN' := (hinv.grants_ok (g', N') (by simp [hgr])).2.2
  have he := hs.end_eq
  rw [he, hprev] at hfail
  simp only [grantBase, ciEfctMaxSuperbufs, pktIdPktBits, Nat.shiftLeft_eq] at hfail
  omega

/-- The failing run: queue 0 takes superbuf 1 with one packet and is polled with no room for
events; in sequence it then takes superbuf 0, and the peek examines it with `prev` = 65536 past
`end` = 1. Both grants are fresh, as in the refcount runs. -/
theorem future_peek_assert_fails_descending :
    ∃ t : RxTrace, RxReach (freshGrant 0) (fun _ _ => True) ⟨0, 0, 0, 0, 0, 0, 0, 0, 0⟩ 0 t ∧
      0 ∈ (efctViRxFuturePeek ⟨1048576, 2048, 64, 1⟩ (fun _ => 1)
        ⟨t.vi, (oneRxqVi 0).tx, 1, 1⟩).2 ∧
      ¬(t.vi.rxqPtr 0).prev < (t.vi.rxqPtr 0).end ∧
      ∃ g N g' N' rest, t.grants = (g, N) :: (g', N') :: rest ∧
        rxqPtrToPktId (t.vi.rxqPtr 0).next = grantBase 0 g ∧
        (t.vi.rxqPtr 0).prev = grantBase 0 g' + N' - 1 ∧ g.sb ≤ g'.sb := by
  obtain ⟨t, reach, hptr, hq⟩ : ∃ t, RxReach (freshGrant 0) (fun _ _ => True)
      ⟨0, 0, 0, 0, 0, 0, 0, 0, 0⟩ 0 t ∧ t.vi.rxqPtr 0 = ⟨4294967296, 65536, 1⟩ ∧
      t.vi.q 0 = ⟨0, 0, 1, 0, ⟨false, false⟩⟩ :=
    ⟨_, .step (.step (.start ⟨fun _ => ⟨0, 0, 0⟩, fun _ => ⟨0, 0, 1, 0, ⟨false, false⟩⟩,
        fun _ => ⟨0, 0, 0, 0, 0⟩, fun _ => -1,
        fun _ => ⟨0, 0, 0, 0, 0, 0, 0, 0, false, false, 0, 0, 0, 0, by decide, by decide⟩,
        defaultRxDiscardMask⟩ 0)
      (.poll (some ⟨1, false, 0, by decide⟩) true 0 fun g hg _ => by
        cases hg; exact ⟨⟨by decide, by decide, by decide⟩, rfl⟩))
      (.poll (some ⟨0, false, 1, by decide⟩) true 0 fun g hg _ => by
        cases hg; exact ⟨⟨by decide, by decide, by decide⟩, rfl⟩), by rfl, by rfl⟩
  have hex : 0 ∈ (efctViRxFuturePeek ⟨1048576, 2048, 64, 1⟩ (fun _ => 1)
      ⟨t.vi, (oneRxqVi 0).tx, 1, 1⟩).2 := by
    simp [efctViRxFuturePeek, futurePeekLoop, builtinCtzll, builtinFfsll, ffsFrom, hptr, hq,
      efctRxqNeedRollover, efctRxqNeedConfig]
  have hfail : ¬(t.vi.rxqPtr 0).prev < (t.vi.rxqPtr 0).end := by simp [hptr]
  exact ⟨t, reach, hex, hfail, future_peek_assert_fails_only_after_rollover (by decide)
    (reach.mono fun _ _ h => h.1) _ _ rfl hex hfail⟩

end EfctVi
