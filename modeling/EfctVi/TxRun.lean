import EfctVi.TxRing

namespace EfctVi

section Api

variable {d : EfctTxDefs} {space : Int} {vi vi' : TxVi} {dmaId : Nat}

theorem efctEfViTransmit_ringView {buf : List UInt8} {tx : EfctTxState}
    (h : efctEfViTransmit d space vi buf dmaId = some (vi', tx)) :
    (buf.length : Int) ≤ space ∧ vi'.ringView = vi.ringView.record buf.length := by
  simp only [efctEfViTransmit] at h
  split at h
  · cases h
  · rename_i hc
    cases h
    exact ⟨by simpa [efctTxCheck] using hc, rfl⟩

theorem efctEfViTransmitv_ringView {iov : List (List UInt8)} {tx : EfctTxState}
    (h : efctEfViTransmitv d space vi iov dmaId = some (vi', tx)) :
    ((iov.map List.length).sum : Int) ≤ space ∧
      vi'.ringView = vi.ringView.record (iov.map List.length).sum := by
  obtain ⟨hc, hr⟩ := efctEfViTransmitv_some h
  cases hr
  exact ⟨by simpa [efctTxCheck] using hc, rfl⟩

/-- efct_ef_vi_transmitv_ctpio records its packet exactly when efct_tx_check admits it. -/
theorem efctEfViTransmitvCtpio_ringView (len : Nat) (iov : List (List UInt8)) (threshold : Nat) :
    (efctEfViTransmitvCtpio d space vi len iov threshold).1.ringView = vi.ringView ∨
      ((len : Int) ≤ space ∧
        (efctEfViTransmitvCtpio d space vi len iov threshold).1.ringView = vi.ringView.record len) := by
  unfold efctEfViTransmitvCtpio
  by_cases hc : efctTxCheck space len = true
  · simp only [hc, Bool.not_true, if_false]
    exact .inr ⟨by simpa [efctTxCheck] using hc, rfl⟩
  · simp only [Bool.not_eq_true] at hc
    simp only [hc, Bool.not_false, if_true]
    exact .inl rfl

/-- efct_ef_vi_transmit_ctpio_fallback either sends the packet again, as efct_ef_vi_transmit
does, or only replaces its posted id. -/
theorem efctEfViTransmitCtpioFallback_ringView {buf : List UInt8} {r : TxVi × Option EfctTxState}
    (h : efctEfViTransmitCtpioFallback d space vi buf dmaId = some r) :
    r.1.ringView = vi.ringView ∨
      ((buf.length : Int) ≤ space ∧ r.1.ringView = vi.ringView.record buf.length) := by
  unfold efctEfViTransmitCtpioFallback at h
  split at h
  · obtain ⟨⟨vi', tx⟩, hp, rfl⟩ := Option.map_eq_some'.mp h
    have := efctEfViTransmit_ringView hp
    exact .inr this
  · cases h
    exact .inl rfl

theorem efctEfViTransmitvCtpioFallback_ringView {iov : List (List UInt8)}
    {r : TxVi × Option EfctTxState}
    (h : efctEfViTransmitvCtpioFallback d space vi iov dmaId = some r) :
    r.1.ringView = vi.ringView ∨ (((iov.map List.length).sum : Int) ≤ space ∧
      r.1.ringView = vi.ringView.record (iov.map List.length).sum) := by
  unfold efctEfViTransmitvCtpioFallback at h
  split at h
  · obtain ⟨⟨vi', tx⟩, hp, rfl⟩ := Option.map_eq_some'.mp h
    have := efctEfViTransmitv_ringView hp
    exact .inr this
  · cases h
    exact .inl rfl

end Api

section Poll

variable {e : EfctEvDefs} {s : TxPollState} {ev : EfctEvent}

theorem efctTxHandleEvent_ringView :
    (efctTxHandleEvent e s ev).1.vi.ringView =
      (txRetire (2 ^ e.txEventSequenceWidth - 1) ((ev.txSequence + 1) &&& 2 ^ e.txEventSequenceWidth - 1)
        (2 ^ e.txEventSequenceWidth) s.vi).ringView := by
  unfold efctTxHandleEvent
  split <;> rfl

/-- Control events other than ERROR leave the TX queue alone. -/
theorem efctTxHandleControlEvent_vi (h : ev.ctrlSubtype ≠ e.ctrlEvError) :
    (efctTxHandleControlEvent e s ev).1.vi = s.vi := by
  unfold efctTxHandleControlEvent
  rw [if_neg h]
  split_ifs <;> rfl

/-- An event that is not a TX error: not an ERROR control event, unless its type is the TX
type, which efct_poll_tx tests first. -/
def NotTxError (e : EfctEvDefs) (ev : EfctEvent) : Prop :=
  ev.type ≠ e.eventTypeTx → ev.type = e.eventTypeControl → ev.ctrlSubtype ≠ e.ctrlEvError

/-- A poll that meets no TX error changes the descriptor ring at most by the completion of the
one TX event it ends on. -/
theorem pollTxLoop_ringView (evsLen : Int) (fuel n : Nat) (s : TxPollState)
    (hok : ∀ ev ∈ (pollTxLoop e evsLen fuel n s).consumed, NotTxError e ev) :
    (pollTxLoop e evsLen fuel n s).state.vi.ringView = s.vi.ringView ∨
      ∃ ev ∈ (pollTxLoop e evsLen fuel n s).consumed, ev.type = e.eventTypeTx ∧
        (pollTxLoop e evsLen fuel n s).state.vi.ringView =
          (txRetire (2 ^ e.txEventSequenceWidth - 1)
            ((ev.txSequence + 1) &&& 2 ^ e.txEventSequenceWidth - 1)
            (2 ^ e.txEventSequenceWidth) s.vi).ringView := by
  induction fuel generalizing n s with
  | zero => exact .inl rfl
  | succ fuel ih =>
    simp only [pollTxLoop] at hok ⊢
    by_cases hn : evsLen ≤ n
    · rw [if_pos hn]
      exact .inl rfl
    simp only [if_neg hn] at hok ⊢
    cases hget : efctTxGetEvent s.evq s.evq.evqPtr with
    | none => exact .inl rfl
    | some ev =>
      simp only [hget] at hok
      dsimp only at hok ⊢
      split_ifs at hok ⊢ with htx hctl
      · exact .inr ⟨ev, List.mem_singleton_self ev, htx, efctTxHandleEvent_ringView⟩
      · have hvi := efctTxHandleControlEvent_vi (e := e)
          (s := { s with evq := { s.evq with evqPtr := (s.evq.evqPtr + 8) % 2 ^ 32 } })
          (hok ev (List.mem_cons_self _ _) htx hctl)
        rcases ih _ _ fun ev' h' => hok ev' (List.mem_cons_of_mem _ h') with h1 | ⟨ev', hm, ht, h1⟩
        · exact .inl (by rw [h1, hvi])
        · exact .inr ⟨ev', List.mem_cons_of_mem _ hm, ht, by rw [h1, hvi]⟩
      · rcases ih _ _ fun ev' h' => hok ev' (List.mem_cons_of_mem _ h') with h1 | ⟨ev', hm, ht, h1⟩
        · exact .inl h1
        · exact .inr ⟨ev', List.mem_cons_of_mem _ hm, ht, h1⟩

end Poll

section Run

/-- A consumed event that is no TX error, and whose completion, for a TX event, names the
outstanding packet `j` places past `previous`, with `j` below the sequence's range. -/
def TxEventOk (e : EfctEvDefs) (vi : TxVi) (ev : EfctEvent) : Prop :=
  NotTxError e ev ∧ (ev.type = e.eventTypeTx →
    ∃ j, j < wrapSub 32 vi.added vi.previous ∧ j < 2 ^ e.txEventSequenceWidth ∧
      (vi.previous + j) % 2 ^ e.txEventSequenceWidth = ev.txSequence % 2 ^ e.txEventSequenceWidth)

/-- One call of the TX API, with ef_vi_transmit_space_bytes answering at most the free part of
the FIFO, every length fitting PACKET_LENGTH, and polls consuming only events as TxEventOk
says. -/
inductive TxStep (d : EfctTxDefs) (e : EfctEvDefs) : TxPollState → TxPollState → Prop
  | transmit (s : TxPollState) (space : Int) (buf : List UInt8) (dmaId : Nat)
      (hspace : space ≤ (s.vi.ctFifoBytes : Int) - wrapSub 32 s.vi.ctAdded s.vi.ctRemoved)
      (hlen : buf.length < 2 ^ d.packetLengthWidth) :
      TxStep d e s
        { s with vi := ((efctEfViTransmit d space s.vi buf dmaId).map Prod.fst).getD s.vi }
  | transmitv (s : TxPollState) (space : Int) (iov : List (List UInt8)) (dmaId : Nat)
      (hspace : space ≤ (s.vi.ctFifoBytes : Int) - wrapSub 32 s.vi.ctAdded s.vi.ctRemoved)
      (hlen : (iov.map List.length).sum < 2 ^ d.packetLengthWidth) :
      TxStep d e s
        { s with vi := ((efctEfViTransmitv d space s.vi iov dmaId).map Prod.fst).getD s.vi }
  | transmitvCtpio (s : TxPollState) (space : Int) (iov : List (List UInt8)) (threshold : Nat)
      (hspace : space ≤ (s.vi.ctFifoBytes : Int) - wrapSub 32 s.vi.ctAdded s.vi.ctRemoved)
      (hlen : (iov.map List.length).sum < 2 ^ d.packetLengthWidth) :
      TxStep d e s
        { s with vi := (efctEfViTransmitvCtpio d space s.vi (iov.map List.length).sum iov
          threshold).1 }
  | transmitCtpioFallback (s : TxPollState) (space : Int) (buf : List UInt8) (dmaId : Nat)
      (hspace : space ≤ (s.vi.ctFifoBytes : Int) - wrapSub 32 s.vi.ctAdded s.vi.ctRemoved)
      (hlen : buf.length < 2 ^ d.packetLengthWidth) :
      TxStep d e s { s with
        vi := ((efctEfViTransmitCtpioFallback d space s.vi buf dmaId).map Prod.fst).getD s.vi }
  | transmitvCtpioFallback (s : TxPollState) (space : Int) (iov : List (List UInt8)) (dmaId : Nat)
      (hspace : space ≤ (s.vi.ctFifoBytes : Int) - wrapSub 32 s.vi.ctAdded s.vi.ctRemoved)
      (hlen : (iov.map List.length).sum < 2 ^ d.packetLengthWidth) :
      TxStep d e s { s with
        vi := ((efctEfViTransmitvCtpioFallback d space s.vi iov dmaId).map Prod.fst).getD s.vi }
  | pollTx (s : TxPollState) (evsLen : Int)
      (hev : ∀ ev ∈ (efctPollTx e s evsLen).consumed, TxEventOk e s.vi ev) :
      TxStep d e s (efctPollTx e s evsLen).state

inductive TxReach (d : EfctTxDefs) (e : EfctEvDefs) (s0 : TxPollState) : TxPollState → Prop
  | start : TxReach d e s0 s0
  | step {s s' : TxPollState} : TxReach d e s0 s → TxStep d e s s' → TxReach d e s0 s'

variable {d : EfctTxDefs} {e : EfctEvDefs} {m : Nat}

/-- A send that the accounting admits: either nothing is recorded, or an admitted packet. -/
theorem TxInv.send {v v' : TxRingView} {lens : List Nat} {space : Int} {L : Nat}
    (h : TxInv m v lens) (hw : d.packetLengthWidth ≤ 15) (hlen : L < 2 ^ d.packetLengthWidth)
    (hspace : space ≤ (v.ctFifoBytes : Int) - wrapSub 32 v.ctAdded v.ctRemoved)
    (hv : v' = v ∨ ((L : Int) ≤ space ∧ v' = v.record L)) : ∃ lens', TxInv m v' lens' := by
  rcases hv with rfl | ⟨hadm, rfl⟩
  · exact ⟨lens, h⟩
  · exact ⟨_, h.record (lt_of_lt_of_le hlen (Nat.pow_le_pow_right (by decide) hw)) hadm hspace⟩

theorem option_getD_ringView {α : Type} {r : Option (TxVi × α)} {vi : TxVi} {P : TxVi → Prop}
    (hnone : P vi) (hsome : ∀ p, r = some p → P p.1) : P ((r.map Prod.fst).getD vi) := by
  cases r with
  | none => exact hnone
  | some p => exact hsome p rfl

/-- Every step of the TX API keeps the accounting of the descriptor ring. -/
theorem TxInv.step {s s' : TxPollState} {lens : List Nat} (h : TxInv m s.vi.ringView lens)
    (hw : d.packetLengthWidth ≤ 15) (hW : e.txEventSequenceWidth ≤ 32) (hs : TxStep d e s s') :
    ∃ lens', TxInv m s'.vi.ringView lens' := by
  cases hs with
  | transmit space buf dmaId hspace hlen =>
    refine option_getD_ringView (P := fun vi => ∃ lens', TxInv m vi.ringView lens') ⟨lens, h⟩ ?_
    rintro ⟨vi', tx⟩ hr
    exact h.send hw hlen hspace (.inr (efctEfViTransmit_ringView hr))
  | transmitv space iov dmaId hspace hlen =>
    refine option_getD_ringView (P := fun vi => ∃ lens', TxInv m vi.ringView lens') ⟨lens, h⟩ ?_
    rintro ⟨vi', tx⟩ hr
    exact h.send hw hlen hspace (.inr (efctEfViTransmitv_ringView hr))
  | transmitvCtpio space iov threshold hspace hlen =>
    exact h.send hw hlen hspace (efctEfViTransmitvCtpio_ringView _ iov threshold)
  | transmitCtpioFallback space buf dmaId hspace hlen =>
    refine option_getD_ringView (P := fun vi => ∃ lens', TxInv m vi.ringView lens') ⟨lens, h⟩ ?_
    exact fun p hr => h.send hw hlen hspace (efctEfViTransmitCtpioFallback_ringView hr)
  | transmitvCtpioFallback space iov dmaId hspace hlen =>
    refine option_getD_ringView (P := fun vi => ∃ lens', TxInv m vi.ringView lens') ⟨lens, h⟩ ?_
    exact fun p hr => h.send hw hlen hspace (efctEfViTransmitvCtpioFallback_ringView hr)
  | pollTx evsLen hev =>
    unfold efctPollTx at hev ⊢
    rcases pollTxLoop_ringView evsLen _ 0 s fun ev hm => (hev ev hm).1 with hv | ⟨ev, hm, htx, hv⟩
    · exact ⟨lens, hv ▸ h⟩
    · obtain ⟨j, hj, hjW, hseq⟩ := (hev ev hm).2 htx
      have hcount := h.count
      rw [hv, txRetire_named hW h.previous_lt hjW hseq,
        txRetireOne_iterate_ringView h.previous_lt h.ctRemoved_lt]
      have : (j + 1) % 2 ^ e.txEventSequenceWidth ≤ lens.length :=
        (Nat.mod_le _ _).trans (by rw [← hcount]; exact hj)
      exact ⟨_, h.retire this⟩

/-- The accounting of the TX descriptor ring over every run from the all-zero TX state: ct_added
stays 64-byte aligned, at most `mask + 1` packets are outstanding, and ct_added - ct_removed is
the sum of desc[j & mask].len over the outstanding j in [previous, added). -/
theorem tx_ring_accounting {s0 s : TxPollState} (hw : d.packetLengthWidth ≤ 15)
    (hW : e.txEventSequenceWidth ≤ 32) (hmask : s0.vi.mask + 1 = 2 ^ m) (hm : m ≤ 32)
    (hfifo : FifoFromNic s0.vi) (hring : txRingSizeOk s0.vi)
    (hzero : s0.vi.added = 0 ∧ s0.vi.previous = 0 ∧ s0.vi.ctAdded = 0 ∧ s0.vi.ctRemoved = 0)
    (reach : TxReach d e s0 s) :
    s.vi.ctAdded % 64 = 0 ∧ wrapSub 32 s.vi.added s.vi.previous ≤ s.vi.mask + 1 ∧
      wrapSub 32 s.vi.ctAdded s.vi.ctRemoved =
        s.vi.ringView.descSum (wrapSub 32 s.vi.added s.vi.previous) := by
  have hinv : ∃ lens, TxInv m s.vi.ringView lens := by
    induction reach with
    | start =>
      obtain ⟨ha, hp, hca, hcr⟩ := hzero
      refine ⟨[], ⟨hmask, hm, hfifo.bounds.1, hfifo.bounds.2, hring, ?_, ?_, ?_, ?_, ?_, ?_, ?_, ?_,
        ?_, ?_, ?_⟩⟩ <;> simp [TxVi.ringView, ha, hp, hca, hcr, wrapSub]
    | step _ hs ih =>
      obtain ⟨lens, h⟩ := ih
      exact h.step hw hW hs
  obtain ⟨lens, h⟩ := hinv
  exact ⟨h.align, h.count ▸ h.count_le, h.inflight⟩

/-- On a ring of two descriptors with tx_fifo_bytes = 192, two zero-length packets fill the
ring, and efct_tx_check turns a third one down. -/
theorem tx_ring_accounting_ring_fills :
    let s0 : TxPollState := ⟨⟨1, 120, 0, 0, fun _ => 0, fun _ => 0, 0, 0, 0, 0, 0, false⟩,
      ⟨0, fun _ => ⟨0, 0, 0, 0, 0, 0, 0, 0, 0, 0, 0, 0⟩, 0, 0, 0, 0, 0, 0, 0⟩⟩
    ∃ s, TxReach ⟨0, 14, 14, 22, 23, 1, 24, 255, 0xffffffff⟩ ⟨0, 1, 0, 1, 2, 3, 8, 1, 2, 16, 3, 4⟩
        s0 s ∧
      wrapSub 32 s.vi.added s.vi.previous = s.vi.mask + 1 ∧ s.vi.ctAdded % 64 = 0 ∧
      wrapSub 32 s.vi.ctAdded s.vi.ctRemoved =
        s.vi.ringView.descSum (wrapSub 32 s.vi.added s.vi.previous) := by
  intro s0
  obtain ⟨s, reach, hcount⟩ : ∃ s, TxReach ⟨0, 14, 14, 22, 23, 1, 24, 255, 0xffffffff⟩
      ⟨0, 1, 0, 1, 2, 3, 8, 1, 2, 16, 3, 4⟩ s0 s ∧
      wrapSub 32 s.vi.added s.vi.previous = s.vi.mask + 1 :=
    ⟨_, .step (.step (.step .start (.transmit _ 120 [] 1 (by decide) (by decide)))
      (.transmit _ 56 [] 2 (by decide) (by decide))) (.transmit _ (-8) [] 3 (by decide) (by decide)),
      by decide⟩
  obtain ⟨halign, -, hsum⟩ := tx_ring_accounting (m := 1) (by decide) (by decide) (by decide)
    (by decide) ⟨192, by decide, by decide, by decide, by decide⟩ (by unfold txRingSizeOk; decide)
    (by decide) reach
  exact ⟨s, reach, hcount, halign, hsum⟩

end Run

end EfctVi
