import EfctVi.TxRun
import EfctVi.TxFallback

namespace EfctVi

/-- An admitted send appends its request id to those of the outstanding packets; a send that
efct_tx_check turns down leaves them. -/
def idsAfterSend (ids : List Nat) (len : Nat) (space : Int) (dmaId : Nat) : List Nat :=
  if (len : Int) ≤ space then ids ++ [dmaId] else ids

/-- The calls of TxStep with their effect on the outstanding request ids, oldest first: an
admitted send appends its id, a fallback renames the newest, and a poll drops the completed. -/
inductive TxIdStep (d : EfctTxDefs) (e : EfctEvDefs) :
    TxPollState → List Nat → TxPollState → List Nat → Prop
  | transmit (s : TxPollState) (ids : List Nat) (space : Int) (buf : List UInt8) (dmaId : Nat)
      (hspace : space ≤ (s.vi.ctFifoBytes : Int) - wrapSub 32 s.vi.ctAdded s.vi.ctRemoved)
      (hlen : buf.length < 2 ^ d.packetLengthWidth) :
      TxIdStep d e s ids
        { s with vi := ((efctEfViTransmit d space s.vi buf dmaId).map Prod.fst).getD s.vi }
        (idsAfterSend ids buf.length space dmaId)
  | transmitv (s : TxPollState) (ids : List Nat) (space : Int) (iov : List (List UInt8))
      (dmaId : Nat)
      (hspace : space ≤ (s.vi.ctFifoBytes : Int) - wrapSub 32 s.vi.ctAdded s.vi.ctRemoved)
      (hlen : (iov.map List.length).sum < 2 ^ d.packetLengthWidth) :
      TxIdStep d e s ids
        { s with vi := ((efctEfViTransmitv d space s.vi iov dmaId).map Prod.fst).getD s.vi }
        (idsAfterSend ids (iov.map List.length).sum space dmaId)
  | transmitvCtpio (s : TxPollState) (ids : List Nat) (space : Int) (iov : List (List UInt8))
      (threshold : Nat)
      (hspace : space ≤ (s.vi.ctFifoBytes : Int) - wrapSub 32 s.vi.ctAdded s.vi.ctRemoved)
      (hlen : (iov.map List.length).sum < 2 ^ d.packetLengthWidth) :
      TxIdStep d e s ids
        { s with vi := (efctEfViTransmitvCtpio d space s.vi (iov.map List.length).sum iov
          threshold).1 }
        (idsAfterSend ids (iov.map List.length).sum space
          (if txWarmActive d s.vi then d.requestIdMask else efctTxPostedId))
  | transmitCtpioFallback (s : TxPollState) (ids : List Nat) (space : Int) (buf : List UInt8)
      (dmaId : Nat)
      (hspace : space ≤ (s.vi.ctFifoBytes : Int) - wrapSub 32 s.vi.ctAdded s.vi.ctRemoved)
      (hlen : buf.length < 2 ^ d.packetLengthWidth) :
      TxIdStep d e s ids { s with
        vi := ((efctEfViTransmitCtpioFallback d space s.vi buf dmaId).map Prod.fst).getD s.vi }
        (if s.vi.lastCtpioFailed then idsAfterSend ids buf.length space dmaId
          else ids.set (ids.length - 1) dmaId)
  | transmitvCtpioFallback (s : TxPollState) (ids : List Nat) (space : Int)
      (iov : List (List UInt8)) (dmaId : Nat)
      (hspace : space ≤ (s.vi.ctFifoBytes : Int) - wrapSub 32 s.vi.ctAdded s.vi.ctRemoved)
      (hlen : (iov.map List.length).sum < 2 ^ d.packetLengthWidth) :
      TxIdStep d e s ids { s with
        vi := ((efctEfViTransmitvCtpioFallback d space s.vi iov dmaId).map Prod.fst).getD s.vi }
        (if s.vi.lastCtpioFailed then idsAfterSend ids (iov.map List.length).sum space dmaId
          else ids.set (ids.length - 1) dmaId)
  | pollTx (s : TxPollState) (ids : List Nat) (evsLen : Int)
      (hev : ∀ ev ∈ (efctPollTx e s evsLen).consumed, TxEventOk e s.vi ev) :
      TxIdStep d e s ids (efctPollTx e s evsLen).state
        (ids.drop (wrapSub 32 (efctPollTx e s evsLen).state.vi.previous s.vi.previous))

inductive TxIdReach (d : EfctTxDefs) (e : EfctEvDefs) (s0 : TxPollState) (ids0 : List Nat) :
    TxPollState → List Nat → Prop
  | start : TxIdReach d e s0 ids0 s0 ids0
  | step {s s' : TxPollState} {ids ids' : List Nat} :
      TxIdReach d e s0 ids0 s ids → TxIdStep d e s ids s' ids' → TxIdReach d e s0 ids0 s' ids'

section Runs

variable {d : EfctTxDefs} {e : EfctEvDefs} {s0 s s' : TxPollState}

theorem TxIdStep.txStep {ids ids' : List Nat} (hs : TxIdStep d e s ids s' ids') :
    TxStep d e s s' := by
  cases hs with
  | transmit space buf dmaId hspace hlen => exact .transmit s space buf dmaId hspace hlen
  | transmitv space iov dmaId hspace hlen => exact .transmitv s space iov dmaId hspace hlen
  | transmitvCtpio space iov threshold hspace hlen =>
    exact .transmitvCtpio s space iov threshold hspace hlen
  | transmitCtpioFallback space buf dmaId hspace hlen =>
    exact .transmitCtpioFallback s space buf dmaId hspace hlen
  | transmitvCtpioFallback space iov dmaId hspace hlen =>
    exact .transmitvCtpioFallback s space iov dmaId hspace hlen
  | pollTx evsLen hev => exact .pollTx s evsLen hev

/-- Every call of the TX API has its effect on the outstanding request ids. -/
theorem TxStep.idStep (hs : TxStep d e s s') (ids : List Nat) :
    ∃ ids', TxIdStep d e s ids s' ids' := by
  cases hs with
  | transmit space buf dmaId hspace hlen => exact ⟨_, .transmit s ids space buf dmaId hspace hlen⟩
  | transmitv space iov dmaId hspace hlen =>
    exact ⟨_, .transmitv s ids space iov dmaId hspace hlen⟩
  | transmitvCtpio space iov threshold hspace hlen =>
    exact ⟨_, .transmitvCtpio s ids space iov threshold hspace hlen⟩
  | transmitCtpioFallback space buf dmaId hspace hlen =>
    exact ⟨_, .transmitCtpioFallback s ids space buf dmaId hspace hlen⟩
  | transmitvCtpioFallback space iov dmaId hspace hlen =>
    exact ⟨_, .transmitvCtpioFallback s ids space iov dmaId hspace hlen⟩
  | pollTx evsLen hev => exact ⟨_, .pollTx s ids evsLen hev⟩

/-- The runs that follow the request ids are exactly the TX runs. -/
theorem txIdReach_iff {ids0 : List Nat} :
    TxReach d e s0 s ↔ ∃ ids, TxIdReach d e s0 ids0 s ids := by
  constructor
  · intro reach
    induction reach with
    | start => exact ⟨ids0, .start⟩
    | step _ hs ih =>
      obtain ⟨ids, run⟩ := ih
      obtain ⟨ids', hs'⟩ := hs.idStep ids
      exact ⟨ids', run.step hs'⟩
  · rintro ⟨ids, run⟩
    induction run with
    | start => exact .start
    | step _ hs ih => exact ih.step hs.txStep

end Runs

/-- The request ids of the outstanding packets, oldest first: one per packet of TxInv's
accounting, each in its slot of q->ids. -/
structure TxIdInv (m : Nat) (vi : TxVi) (lens ids : List Nat) : Prop where
  ring : TxInv m vi.ringView lens
  length : ids.length = lens.length
  slot : ∀ i (hi : i < ids.length), vi.ids ((vi.previous + i) % 2 ^ 32 &&& vi.mask) = ids[i]

section Inv

variable {m : Nat} {vi vi' : TxVi} {lens ids : List Nat}

theorem TxIdInv.slot_mod (h : TxIdInv m vi lens ids) (x : Nat) :
    x % 2 ^ 32 &&& vi.mask = x % 2 ^ m :=
  h.ring.slot x

/-- Packets less than a ring apart have different slots. -/
theorem TxIdInv.slot_ne (h : TxIdInv m vi lens ids) {i j : Nat} (hij : i < j)
    (hgap : j - i < 2 ^ m) :
    (vi.previous + i) % 2 ^ 32 &&& vi.mask ≠ (vi.previous + j) % 2 ^ 32 &&& vi.mask := by
  rw [h.slot_mod, h.slot_mod]
  exact mod_ne_of_lt (by omega) (by omega)

theorem TxIdInv.length_le (h : TxIdInv m vi lens ids) : ids.length ≤ 2 ^ m := by
  have := h.ring.count_le
  have := h.ring.mask
  rw [h.length]
  simp only [TxVi.ringView] at *
  omega

/-- Before a send that efct_tx_check admits, fewer than a ring of packets are outstanding. -/
theorem TxIdInv.length_lt (h : TxIdInv m vi lens ids) {L : Nat} {space : Int}
    (hadm : (L : Int) ≤ space)
    (hspace : space ≤ (vi.ctFifoBytes : Int) - wrapSub 32 vi.ctAdded vi.ctRemoved) :
    ids.length < 2 ^ m := by
  have := h.ring.bytes
  simp only [TxVi.ringView] at this
  rw [h.length]
  exact h.ring.admitted_length (by simp only [TxVi.ringView]; omega)

/-- Counting `b` back from `x + b` on a 32-bit counter gives `x`. -/
theorem wrapSub_mod_add (x b : Nat) : wrapSub 32 ((x + b) % 2 ^ 32) b = x % 2 ^ 32 := by
  simp only [wrapSub]
  omega

/-- `added` is one past the newest packet: efct_tx_complete writes slot `added & mask` next. -/
theorem TxIdInv.added_eq (h : TxIdInv m vi lens ids) :
    vi.added = (vi.previous + ids.length) % 2 ^ 32 := by
  have hc := h.ring.count
  have ha := h.ring.added_lt
  have hp := h.ring.previous_lt
  simp only [TxVi.ringView, wrapSub] at hc ha hp
  rw [h.length]
  omega

theorem TxIdInv.of_eq (h : TxIdInv m vi lens ids) (hv : vi'.ringView = vi.ringView)
    (hids : vi'.ids = vi.ids) : TxIdInv m vi' lens ids := by
  have hmask : vi'.mask = vi.mask := congrArg TxRingView.mask hv
  have hprev : vi'.previous = vi.previous := congrArg TxRingView.previous hv
  exact ⟨hv ▸ h.ring, h.length, by rw [hids, hmask, hprev]; exact h.slot⟩

/-- Recording an admitted packet appends its id. -/
theorem TxIdInv.push (h : TxIdInv m vi lens ids) {L : Nat} {space : Int} {dmaId : Nat}
    (hL : L < 2 ^ 15) (hadm : (L : Int) ≤ space)
    (hspace : space ≤ (vi.ctFifoBytes : Int) - wrapSub 32 vi.ctAdded vi.ctRemoved)
    (hv : vi'.ringView = vi.ringView.record L)
    (hids : vi'.ids = Function.update vi.ids (vi.added &&& vi.mask) dmaId) :
    TxIdInv m vi' (lens ++ [ciRoundUp (L + 8) 64]) (ids ++ [dmaId]) := by
  have hmask : vi'.mask = vi.mask := congrArg TxRingView.mask hv
  have hprev : vi'.previous = vi.previous := congrArg TxRingView.previous hv
  have hn := h.length_lt hadm hspace
  refine ⟨hv ▸ h.ring.record hL hadm hspace, by simp [h.length], fun i hi => ?_⟩
  rw [hids, hmask, hprev, h.added_eq]
  simp only [List.length_append, List.length_singleton] at hi
  rcases Nat.lt_or_ge i ids.length with hi' | hi'
  · rw [Function.update_noteq (h.slot_ne hi' (by omega)), h.slot i hi',
      List.getElem_append_left hi']
  · obtain rfl : i = ids.length := by omega
    simp

/-- Completing the `k` oldest packets drops their ids. -/
theorem TxIdInv.retire (h : TxIdInv m vi lens ids) {k : Nat} (hk : k ≤ lens.length)
    (hv : vi'.ringView = vi.ringView.retire k) (hids : vi'.ids = vi.ids) :
    TxIdInv m vi' (lens.drop k) (ids.drop k) := by
  have hmask : vi'.mask = vi.mask := congrArg TxRingView.mask hv
  have hprev : vi'.previous = (vi.previous + k) % 2 ^ 32 := congrArg TxRingView.previous hv
  refine ⟨hv ▸ h.ring.retire hk, by simp [h.length], fun i hi => ?_⟩
  simp only [List.length_drop] at hi
  rw [hids, hmask, hprev, List.getElem_drop, ← h.slot (k + i) (by omega)]
  congr 2
  omega

/-- efct_ef_vi_ctpio_fallback's slot `added - 1` is the newest packet's: its id is replaced, and
with no packet outstanding no id is. -/
theorem TxIdInv.relabel (h : TxIdInv m vi lens ids) (dmaId : Nat) :
    TxIdInv m (efctEfViCtpioFallback vi dmaId) lens (ids.set (ids.length - 1) dmaId) := by
  refine ⟨h.ring, by simp [h.length], fun i hi => ?_⟩
  simp only [List.length_set] at hi
  have hlast : wrapSub 32 vi.added 1 = (vi.previous + (ids.length - 1)) % 2 ^ 32 := by
    rw [h.added_eq, show vi.previous + ids.length = vi.previous + (ids.length - 1) + 1 by omega]
    exact wrapSub_mod_add _ 1
  simp only [efctEfViCtpioFallback, hlast, List.getElem_set]
  split_ifs with hi'
  · subst hi'
    exact Function.update_same _ _ _
  · rw [Function.update_noteq (h.slot_ne (by omega) (by have := h.length_le; omega)), h.slot i hi]

/-- A send guarded by efct_tx_check that records through efct_tx_complete: `none` exactly when
it is turned down. -/
theorem TxIdInv.send {α : Type} (h : TxIdInv m vi lens ids) {r : Option (TxVi × α)} {L : Nat}
    {space : Int} {dmaId : Nat} (hL : L < 2 ^ 15)
    (hspace : space ≤ (vi.ctFifoBytes : Int) - wrapSub 32 vi.ctAdded vi.ctRemoved)
    (hnone : r = none ↔ ¬(L : Int) ≤ space)
    (hsome : ∀ p, r = some p → p.1.ringView = vi.ringView.record L ∧
      p.1.ids = Function.update vi.ids (vi.added &&& vi.mask) dmaId) :
    ∃ lens', TxIdInv m ((r.map Prod.fst).getD vi) lens' (idsAfterSend ids L space dmaId) := by
  cases r with
  | none => exact ⟨lens, by simpa [idsAfterSend, hnone.mp rfl] using h⟩
  | some p =>
    have hadm : (L : Int) ≤ space := by simpa using hnone.not.mp (Option.some_ne_none p)
    obtain ⟨hv, hids⟩ := hsome p rfl
    exact ⟨_, by simpa [idsAfterSend, hadm] using h.push hL hadm hspace hv hids⟩

end Inv

section Api

variable {d : EfctTxDefs} {space : Int} {vi : TxVi} {dmaId : Nat}

theorem efctEfViTransmit_eq_none {buf : List UInt8} :
    efctEfViTransmit d space vi buf dmaId = none ↔ ¬(buf.length : Int) ≤ space := by
  unfold efctEfViTransmit
  by_cases hc : (buf.length : Int) ≤ space <;> simp [efctTxCheck, hc]

theorem efctEfViTransmitv_eq_none {iov : List (List UInt8)} :
    efctEfViTransmitv d space vi iov dmaId = none ↔ ¬((iov.map List.length).sum : Int) ≤ space := by
  unfold efctEfViTransmitv
  by_cases hc : ((iov.map List.length).sum : Int) ≤ space <;> simp [efctTxCheck, hc]

theorem efctEfViTransmit_recorded {buf : List UInt8} {p : TxVi × EfctTxState}
    (h : efctEfViTransmit d space vi buf dmaId = some p) :
    p.1.ringView = vi.ringView.record buf.length ∧
      p.1.ids = Function.update vi.ids (vi.added &&& vi.mask) dmaId := by
  obtain ⟨tx, rfl⟩ := efctEfViTransmit_vi h
  exact ⟨rfl, rfl⟩

theorem efctEfViTransmitv_recorded {iov : List (List UInt8)} {p : TxVi × EfctTxState}
    (h : efctEfViTransmitv d space vi iov dmaId = some p) :
    p.1.ringView = vi.ringView.record (iov.map List.length).sum ∧
      p.1.ids = Function.update vi.ids (vi.added &&& vi.mask) dmaId := by
  rw [(efctEfViTransmitv_some h).2]
  exact ⟨rfl, rfl⟩

end Api

section Step

variable {d : EfctTxDefs} {e : EfctEvDefs} {m : Nat} {s s' : TxPollState}
  {lens ids ids' : List Nat}

/-- A CTPIO fallback: after a failed attempt it sends as `send` does, otherwise it renames the
newest packet. -/
theorem TxIdInv.fallback (h : TxIdInv m s.vi lens ids) {space : Int} {L dmaId : Nat}
    (hL : L < 2 ^ 15)
    (hspace : space ≤ (s.vi.ctFifoBytes : Int) - wrapSub 32 s.vi.ctAdded s.vi.ctRemoved)
    {send : Option (TxVi × EfctTxState)} (hnone : send = none ↔ ¬(L : Int) ≤ space)
    (hsome : ∀ p, send = some p → p.1.ringView = s.vi.ringView.record L ∧
      p.1.ids = Function.update s.vi.ids (s.vi.added &&& s.vi.mask) dmaId) :
    ∃ lens', TxIdInv m (((if s.vi.lastCtpioFailed then
        send.map fun r => ({ r.1 with lastCtpioFailed := false }, some r.2)
        else some (efctEfViCtpioFallback s.vi dmaId, none)).map Prod.fst).getD s.vi) lens'
      (if s.vi.lastCtpioFailed then idsAfterSend ids L space dmaId
        else ids.set (ids.length - 1) dmaId) := by
  split
  · refine h.send hL hspace ?_ fun p hp => ?_
    · simpa using hnone
    · obtain ⟨r, hr, rfl⟩ := Option.map_eq_some'.mp hp
      exact hsome r hr
  · exact ⟨lens, h.relabel dmaId⟩

/-- Every call of the TX API keeps the request ids of the outstanding packets in their slots. -/
theorem TxIdInv.step (h : TxIdInv m s.vi lens ids) (hw : d.packetLengthWidth ≤ 15)
    (hW : e.txEventSequenceWidth ≤ 32) (hs : TxIdStep d e s ids s' ids') :
    ∃ lens', TxIdInv m s'.vi lens' ids' := by
  have h15 : 2 ^ d.packetLengthWidth ≤ 2 ^ 15 := Nat.pow_le_pow_right (by decide) hw
  cases hs with
  | transmit space buf dmaId hspace hlen =>
    exact h.send (by omega) hspace efctEfViTransmit_eq_none fun p hp => efctEfViTransmit_recorded hp
  | transmitv space iov dmaId hspace hlen =>
    exact h.send (by omega) hspace efctEfViTransmitv_eq_none
      fun p hp => efctEfViTransmitv_recorded hp
  | transmitvCtpio space iov threshold hspace hlen =>
    unfold efctEfViTransmitvCtpio
    by_cases hc : ((iov.map List.length).sum : Int) ≤ space
    · have hadm : efctTxCheck space (iov.map List.length).sum = true := by simpa [efctTxCheck] using hc
      simp only [hadm, Bool.not_true, Bool.false_eq_true, ↓reduceIte, idsAfterSend, hc]
      exact ⟨_, h.push (by omega) hc hspace rfl rfl⟩
    · have hadm : efctTxCheck space (iov.map List.length).sum = false := by
        simpa [efctTxCheck] using hc
      simp only [hadm, Bool.not_false, ↓reduceIte, idsAfterSend, hc]
      exact ⟨lens, h.of_eq rfl rfl⟩
  | transmitCtpioFallback space buf dmaId hspace hlen =>
    exact h.fallback (by omega) hspace efctEfViTransmit_eq_none
      fun p hp => efctEfViTransmit_recorded hp
  | transmitvCtpioFallback space iov dmaId hspace hlen =>
    exact h.fallback (by omega) hspace efctEfViTransmitv_eq_none
      fun p hp => efctEfViTransmitv_recorded hp
  | pollTx evsLen hev =>
    have hids := (efctPollTx_frame (e := e) (s := s) evsLen).1.ids
    unfold efctPollTx at hev hids ⊢
    rcases pollTxLoop_ringView evsLen _ 0 s fun ev hm => (hev ev hm).1 with hv | ⟨ev, hm, htx, hv⟩
    · have hp : (pollTxLoop e evsLen ((s.evq.evqMask + 1) / 8 + 1) 0 s).state.vi.previous =
          s.vi.previous := congrArg TxRingView.previous hv
      rw [hp, show wrapSub 32 s.vi.previous s.vi.previous = 0 by simp only [wrapSub]; omega,
        List.drop_zero]
      exact ⟨lens, h.of_eq hv hids⟩
    · obtain ⟨j, hj, hjW, hseq⟩ := (hev ev hm).2 htx
      rw [txRetire_named hW h.ring.previous_lt hjW hseq,
        txRetireOne_iterate_ringView h.ring.previous_lt h.ring.ctRemoved_lt] at hv
      have hk : (j + 1) % 2 ^ e.txEventSequenceWidth ≤ lens.length :=
        (Nat.mod_le _ _).trans (by rw [← h.ring.count]; exact hj)
      have hp : (pollTxLoop e evsLen ((s.evq.evqMask + 1) / 8 + 1) 0 s).state.vi.previous =
          (s.vi.previous + (j + 1) % 2 ^ e.txEventSequenceWidth) % 2 ^ 32 :=
        congrArg TxRingView.previous hv
      have hc32 : lens.length < 2 ^ 32 := by
        rw [← h.ring.count]
        exact Nat.mod_lt _ (Nat.two_pow_pos 32)
      rw [hp, Nat.add_comm s.vi.previous, wrapSub_mod_add, Nat.mod_eq_of_lt (hk.trans_lt hc32)]
      exact ⟨_, h.retire hk hv hids⟩

/-- A poll that meets no TX error ends on the TX event it consumes, if any: its state and one of
its outputs are efct_tx_handle_event's on that event, from the TX queue the poll started with. -/
theorem pollTxLoop_txEvent {evsLen : Int} {fuel n : Nat} {s : TxPollState} {ev : EfctEvent}
    (hok : ∀ ev ∈ (pollTxLoop e evsLen fuel n s).consumed, NotTxError e ev)
    (hm : ev ∈ (pollTxLoop e evsLen fuel n s).consumed) (htx : ev.type = e.eventTypeTx) :
    ∃ s1 : TxPollState, s1.vi = s.vi ∧
      (pollTxLoop e evsLen fuel n s).state = (efctTxHandleEvent e s1 ev).1 ∧
      (efctTxHandleEvent e s1 ev).2 ∈ (pollTxLoop e evsLen fuel n s).evs := by
  induction fuel generalizing n s with
  | zero => simp [pollTxLoop] at hm
  | succ fuel ih =>
    simp only [pollTxLoop] at hok hm ⊢
    by_cases hn : evsLen ≤ n
    · simp [if_pos hn] at hm
    simp only [if_neg hn] at hok hm ⊢
    cases hget : efctTxGetEvent s.evq s.evq.evqPtr with
    | none => simp [hget] at hm
    | some ev' =>
      simp only [hget] at hok hm
      dsimp only at hok hm ⊢
      split_ifs at hok hm ⊢ with h1 h2
      · obtain rfl := List.mem_singleton.mp hm
        exact ⟨{ s with evq := { s.evq with evqPtr := (s.evq.evqPtr + 8) % 2 ^ 32 } }, rfl, rfl,
          List.mem_singleton_self _⟩
      · rcases List.mem_cons.mp hm with rfl | hm'
        · exact absurd htx h1
        obtain ⟨s1, hs1, hst, hout⟩ := ih (fun ev h => hok ev (List.mem_cons_of_mem _ h)) hm'
        exact ⟨s1, hs1.trans (efctTxHandleControlEvent_vi (hok ev' (List.mem_cons_self _ _) h1 h2)),
          hst, List.mem_append_right _ hout⟩
      · rcases List.mem_cons.mp hm with rfl | hm'
        · exact absurd htx h1
        obtain ⟨s1, hs1, hst, hout⟩ := ih (fun ev h => hok ev (List.mem_cons_of_mem _ h)) hm'
        exact ⟨s1, hs1, hst, List.mem_append_right _ hout⟩

/-- A completion with a timestamp that names the `j`-th outstanding packet, with `j + 1` below the
range of the sequence, retires the `j + 1` oldest packets and reports the `j`-th one's id. -/
theorem TxIdInv.timestamp_rqId (h : TxIdInv m s.vi lens ids) (hW : e.txEventSequenceWidth ≤ 32)
    {ev : EfctEvent} (hts : ev.txTimestampStatus ≠ 0) {j : Nat} (hj : j < ids.length)
    (hjW : j + 1 < 2 ^ e.txEventSequenceWidth)
    (hseq : (s.vi.previous + j) % 2 ^ e.txEventSequenceWidth =
      ev.txSequence % 2 ^ e.txEventSequenceWidth) :
    (efctTxHandleEvent e s ev).1.vi.previous = (s.vi.previous + (j + 1)) % 2 ^ 32 ∧
      ∃ tsSec tsNsec, (efctTxHandleEvent e s ev).2 =
        .txWithTimestamp tsSec tsNsec ids[j] e.eventFlagCtpio ev.txLabel := by
  have hr := txRetire_named hW h.ring.previous_lt (by omega) hseq
  rw [Nat.mod_eq_of_lt hjW] at hr
  have hv := txRetireOne_iterate_ringView h.ring.previous_lt h.ring.ctRemoved_lt (j + 1)
  have hprev : (txRetireOne^[j + 1] s.vi).previous = (s.vi.previous + (j + 1)) % 2 ^ 32 :=
    congrArg TxRingView.previous hv
  have hmask : (txRetireOne^[j + 1] s.vi).mask = s.vi.mask := congrArg TxRingView.mask hv
  have hids : (txRetireOne^[j + 1] s.vi).ids = s.vi.ids := hr ▸ txRetire_frame.1.ids
  have hlast : wrapSub 32 ((s.vi.previous + (j + 1)) % 2 ^ 32) 1 = (s.vi.previous + j) % 2 ^ 32 := by
    rw [← Nat.add_assoc]
    exact wrapSub_mod_add _ 1
  unfold efctTxHandleEvent
  simp only [if_pos hts, hr]
  exact ⟨hprev, _, _, by rw [hids, hmask, hprev, hlast, h.slot j hj]⟩

end Step

/-- The request ids of an empty ring, from the all-zero TX state. -/
theorem TxIdInv.zero {m : Nat} {vi : TxVi} (hmask : vi.mask + 1 = 2 ^ m) (hm : m ≤ 32)
    (hfifo : FifoFromNic vi) (hring : txRingSizeOk vi)
    (hzero : vi.added = 0 ∧ vi.previous = 0 ∧ vi.ctAdded = 0 ∧ vi.ctRemoved = 0) :
    TxIdInv m vi [] [] := by
  obtain ⟨ha, hp, hca, hcr⟩ := hzero
  refine ⟨⟨hmask, hm, hfifo.bounds.1, hfifo.bounds.2, hring, ?_, ?_, ?_, ?_, ?_, ?_, ?_, ?_, ?_, ?_,
    ?_⟩, rfl,
    fun i hi => absurd hi (Nat.not_lt_zero i)⟩ <;> simp [TxVi.ringView, ha, hp, hca, hcr, wrapSub]

/-- Along every run of the TX API from the all-zero TX state, q->ids holds the request ids of the
outstanding packets in the order the calls handed them out, the oldest in slot `previous`; a
timestamped completion naming the `j`-th one retires `j + 1` packets and reports its id. -/
theorem tx_request_ids_fifo {d : EfctTxDefs} {e : EfctEvDefs} {m : Nat} {s0 s : TxPollState}
    {ids : List Nat} (hw : d.packetLengthWidth ≤ 15) (hW : e.txEventSequenceWidth ≤ 32)
    (hmask : s0.vi.mask + 1 = 2 ^ m) (hm : m ≤ 32) (hfifo : FifoFromNic s0.vi)
    (hring : txRingSizeOk s0.vi)
    (hzero : s0.vi.added = 0 ∧ s0.vi.previous = 0 ∧ s0.vi.ctAdded = 0 ∧ s0.vi.ctRemoved = 0)
    (run : TxIdReach d e s0 [] s ids) :
    wrapSub 32 s.vi.added s.vi.previous = ids.length ∧
      (∀ i (hi : i < ids.length), s.vi.ids ((s.vi.previous + i) % 2 ^ 32 &&& s.vi.mask) = ids[i]) ∧
      ∀ (evsLen : Int) (ev : EfctEvent) (j : Nat) (hj : j < ids.length),
        (∀ ev ∈ (efctPollTx e s evsLen).consumed, NotTxError e ev) →
        ev ∈ (efctPollTx e s evsLen).consumed → ev.type = e.eventTypeTx →
        ev.txTimestampStatus ≠ 0 → j + 1 < 2 ^ e.txEventSequenceWidth →
        (s.vi.previous + j) % 2 ^ e.txEventSequenceWidth =
          ev.txSequence % 2 ^ e.txEventSequenceWidth →
        (efctPollTx e s evsLen).state.vi.previous = (s.vi.previous + (j + 1)) % 2 ^ 32 ∧
          ∃ tsSec tsNsec, EfEvent.txWithTimestamp tsSec tsNsec ids[j] e.eventFlagCtpio ev.txLabel ∈
            (efctPollTx e s evsLen).evs := by
  have hinv : ∃ lens, TxIdInv m s.vi lens ids := by
    induction run with
    | start => exact ⟨[], .zero hmask hm hfifo hring hzero⟩
    | step _ hs ih =>
      obtain ⟨lens, h⟩ := ih
      exact h.step hw hW hs
  obtain ⟨lens, h⟩ := hinv
  refine ⟨h.ring.count.trans h.length.symm, h.slot,
    fun evsLen ev j hj hok hm htx hts hjW hseq => ?_⟩
  obtain ⟨s1, hs1, hst, hout⟩ := pollTxLoop_txEvent hok hm htx
  obtain ⟨hprev, tsSec, tsNsec, hev⟩ :=
    (show TxIdInv m s1.vi lens ids from hs1 ▸ h).timestamp_rqId hW hts hj hjW (hs1 ▸ hseq)
  exact ⟨by rw [efctPollTx, hst, hprev, hs1], tsSec, tsNsec, hev ▸ hout⟩

/-- On a ring of two descriptors with tx_fifo_bytes = 192, a zero-length transmit under request
id 5 is the one outstanding packet, and slot 0 holds its id. -/
theorem tx_request_ids_fifo_one_send :
    let d : EfctTxDefs := ⟨0, 14, 14, 22, 23, 1, 24, 255, 0xffffffff⟩
    let e : EfctEvDefs := ⟨0, 1, 0, 1, 2, 3, 8, 1, 2, 16, 3, 4⟩
    let s0 : TxPollState := ⟨⟨1, 120, 0, 0, fun _ => 0, fun _ => 0, 0, 0, 0, 0, 0, false⟩,
      ⟨0, fun _ => ⟨0, 0, 0, 0, 0, 0, 0, 0, 0, 0, 0, 0⟩, 0, 0, 0, 0, 0, 0, 0⟩⟩
    ∃ s, TxIdReach d e s0 [] s [5] ∧ wrapSub 32 s.vi.added s.vi.previous = [5].length ∧
      (∀ i (hi : i < [5].length), s.vi.ids ((s.vi.previous + i) % 2 ^ 32 &&& s.vi.mask) = [5][i]) ∧
      ∀ (evsLen : Int) (ev : EfctEvent) (j : Nat) (hj : j < [5].length),
        (∀ ev ∈ (efctPollTx e s evsLen).consumed, NotTxError e ev) →
        ev ∈ (efctPollTx e s evsLen).consumed → ev.type = e.eventTypeTx →
        ev.txTimestampStatus ≠ 0 → j + 1 < 2 ^ e.txEventSequenceWidth →
        (s.vi.previous + j) % 2 ^ e.txEventSequenceWidth =
          ev.txSequence % 2 ^ e.txEventSequenceWidth →
        (efctPollTx e s evsLen).state.vi.previous = (s.vi.previous + (j + 1)) % 2 ^ 32 ∧
          ∃ tsSec tsNsec, EfEvent.txWithTimestamp tsSec tsNsec [5][j] e.eventFlagCtpio ev.txLabel ∈
            (efctPollTx e s evsLen).evs := by
  intro d e s0
  obtain ⟨s, run⟩ : ∃ s, TxIdReach d e s0 [] s [5] :=
    ⟨_, .step .start (.transmit _ [] 120 [] 5 (by decide) (by decide))⟩
  exact ⟨s, run, tx_request_ids_fifo (m := 1) (by decide) (by decide) (by decide) (by decide)
    ⟨192, by decide, by decide, by decide, by decide⟩ (by unfold txRingSizeOk; decide) (by decide)
    run⟩

end EfctVi
