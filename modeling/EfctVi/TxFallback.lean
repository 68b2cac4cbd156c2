import EfctVi.TxEvents

namespace EfctVi

/-- `vi'` has the TX ring entries of `vi`: its mask, the counters added and ct_added, the
descriptors' len and the ids. -/
structure SameEntries (vi vi' : TxVi) : Prop where
  mask : vi'.mask = vi.mask
  added : vi'.added = vi.added
  ctAdded : vi'.ctAdded = vi.ctAdded
  descLen : vi'.descLen = vi.descLen
  ids : vi'.ids = vi.ids

theorem SameEntries.refl (vi : TxVi) : SameEntries vi vi :=
  ⟨rfl, rfl, rfl, rfl, rfl⟩

theorem SameEntries.trans {vi vi' vi'' : TxVi} (h : SameEntries vi vi')
    (h' : SameEntries vi' vi'') : SameEntries vi vi'' :=
  ⟨h'.mask.trans h.mask, h'.added.trans h.added, h'.ctAdded.trans h.ctAdded,
    h'.descLen.trans h.descLen, h'.ids.trans h.ids⟩

section Poll

variable {e : EfctEvDefs} {s : TxPollState} {event : EfctEvent}

/-- What efct_poll_tx can change of a VI: it never adds or rewrites a ring entry, and leaves
last_ctpio_failed alone. -/
def PollFrame (vi vi' : TxVi) : Prop :=
  SameEntries vi vi' ∧ vi'.lastCtpioFailed = vi.lastCtpioFailed

theorem PollFrame.trans {vi vi' vi'' : TxVi} (h : PollFrame vi vi') (h' : PollFrame vi' vi'') :
    PollFrame vi vi'' :=
  ⟨h.1.trans h'.1, h'.2.trans h.2⟩

theorem txRetire_frame {m t : Nat} : ∀ {fuel : Nat} {vi : TxVi}, PollFrame vi (txRetire m t fuel vi)
  | 0, vi => ⟨.refl vi, rfl⟩
  | fuel + 1, vi => by
    simp only [txRetire]
    split
    · exact ⟨.refl vi, rfl⟩
    · exact PollFrame.trans (⟨⟨rfl, rfl, rfl, rfl, rfl⟩, rfl⟩ : PollFrame vi (txRetireOne vi))
        txRetire_frame

theorem efctTxHandleEvent_frame : PollFrame s.vi (efctTxHandleEvent e s event).1.vi := by
  unfold efctTxHandleEvent
  split <;> exact txRetire_frame.trans ⟨⟨rfl, rfl, rfl, rfl, rfl⟩, rfl⟩

theorem efctTxHandleControlEvent_pollFrame :
    PollFrame s.vi (efctTxHandleControlEvent e s event).1.vi := by
  unfold efctTxHandleControlEvent
  split_ifs <;> exact ⟨⟨rfl, rfl, rfl, rfl, rfl⟩, rfl⟩

theorem pollTxLoop_frame {evsLen : Int} : ∀ {fuel n : Nat} {s : TxPollState},
    PollFrame s.vi (pollTxLoop e evsLen fuel n s).state.vi
  | 0, _, s => ⟨.refl s.vi, rfl⟩
  | fuel + 1, n, s => by
    simp only [pollTxLoop]
    split_ifs
    · exact ⟨.refl s.vi, rfl⟩
    split
    · exact ⟨.refl s.vi, rfl⟩
    rename_i ev _
    let s1 : TxPollState := { s with evq := { s.evq with evqPtr := (s.evq.evqPtr + 8) % 2 ^ 32 } }
    split_ifs
    · exact @efctTxHandleEvent_frame e s1 ev
    · exact (@efctTxHandleControlEvent_pollFrame e s1 ev).trans pollTxLoop_frame
    · exact pollTxLoop_frame (s := s1)

theorem efctPollTx_frame (evsLen : Int) : PollFrame s.vi (efctPollTx e s evsLen).state.vi :=
  pollTxLoop_frame

end Poll

/-- The ring entries of `vi` are those of `vi0` with one packet of `L` bytes recorded under
`id` in slot `added & mask`, as efct_tx_complete records it. -/
structure Recorded (vi0 vi : TxVi) (L id : Nat) : Prop where
  mask : vi.mask = vi0.mask
  added : vi.added = (vi0.added + 1) % 2 ^ 32
  ctAdded : vi.ctAdded =
    (vi0.ctAdded + ciRoundUp (L + efctTxHeaderBytes) efctTxAlignment) % 2 ^ 32
  descLen : vi.descLen = Function.update vi0.descLen (vi0.added &&& vi0.mask)
    (ciRoundUp (L + efctTxHeaderBytes) efctTxAlignment % 2 ^ 16)
  ids : vi.ids = Function.update vi0.ids (vi0.added &&& vi0.mask) id

section Record

variable {vi0 vi vi' : TxVi} {L id : Nat}

theorem efctTxComplete_recorded {tx : EfctTxState} (h : SameEntries vi0 vi) :
    Recorded vi0 (efctTxComplete vi tx id L).1 L id := by
  obtain ⟨hm, ha, hc, hd, hi⟩ := h
  exact ⟨hm, by simp [efctTxComplete, ha], by simp [efctTxComplete, hc],
    by simp [efctTxComplete, hd, ha, hm], by simp [efctTxComplete, hi, ha, hm]⟩

theorem Recorded.frame (h : Recorded vi0 vi L id) (h' : SameEntries vi vi') :
    Recorded vi0 vi' L id :=
  ⟨h'.mask.trans h.mask, h'.added.trans h.added, h'.ctAdded.trans h.ctAdded,
    h'.descLen.trans h.descLen, h'.ids.trans h.ids⟩

/-- efct_ef_vi_ctpio_fallback finds the slot of the packet just recorded, `added - 1`. -/
theorem Recorded.fallback (hadd : vi0.added < 2 ^ 32) (h : Recorded vi0 vi L id) (dmaId : Nat) :
    Recorded vi0 (efctEfViCtpioFallback vi dmaId) L dmaId := by
  have hslot : wrapSub 32 vi.added 1 = vi0.added := by
    rw [h.added, wrapSub]
    omega
  refine ⟨h.mask, h.added, h.ctAdded, h.descLen, ?_⟩
  simp only [efctEfViCtpioFallback, hslot, h.mask, h.ids, Function.update_idem]

end Record

/-- The calls that may follow an efct_ef_vi_transmitv_ctpio: efct_poll_tx, and CTPIO fallbacks with
`dmaId` up to the first that returns 0; the index is the length a fallback sent again, if any. -/
inductive FallbackRun (d : EfctTxDefs) (e : EfctEvDefs) (dmaId : Nat) :
    TxPollState → TxPollState → Option Nat → Prop
  | poll {s s' : TxPollState} {sent : Option Nat} (evsLen : Int) :
      FallbackRun d e dmaId (efctPollTx e s evsLen).state s' sent →
      FallbackRun d e dmaId s s' sent
  | again {s s' : TxPollState} {sent : Option Nat} (space : Int) (buf : List UInt8)
      (h : efctEfViTransmitCtpioFallback d space s.vi buf dmaId = none) :
      FallbackRun d e dmaId s s' sent → FallbackRun d e dmaId s s' sent
  | againv {s s' : TxPollState} {sent : Option Nat} (space : Int) (iov : List (List UInt8))
      (h : efctEfViTransmitvCtpioFallback d space s.vi iov dmaId = none) :
      FallbackRun d e dmaId s s' sent → FallbackRun d e dmaId s s' sent
  | done {s : TxPollState} {r : TxVi × Option EfctTxState} (space : Int) (buf : List UInt8)
      (hlen : buf.length < 2 ^ d.packetLengthWidth)
      (h : efctEfViTransmitCtpioFallback d space s.vi buf dmaId = some r) :
      FallbackRun d e dmaId s { s with vi := r.1 } (r.2.map fun _ => buf.length)
  | donev {s : TxPollState} {r : TxVi × Option EfctTxState} (space : Int)
      (iov : List (List UInt8)) (hlen : (iov.map List.length).sum < 2 ^ d.packetLengthWidth)
      (h : efctEfViTransmitvCtpioFallback d space s.vi iov dmaId = some r) :
      FallbackRun d e dmaId s { s with vi := r.1 } (r.2.map fun _ => (iov.map List.length).sum)

/-- Where the protocol stands between the CTPIO call and the fallback call that returns 0:
either the CTPIO attempt failed admission and the ring is as it was, or its packet is recorded
under the posted id. -/
def CtpioPending (vi0 : TxVi) (len : Nat) (vi : TxVi) : Prop :=
  (vi.lastCtpioFailed = true ∧ SameEntries vi0 vi) ∨
    (vi.lastCtpioFailed = false ∧ Recorded vi0 vi len efctTxPostedId)

section Run

variable {d : EfctTxDefs} {e : EfctEvDefs} {vi0 vi : TxVi} {len dmaId : Nat}

theorem CtpioPending.poll (h : CtpioPending vi0 len vi) {vi' : TxVi} (hf : PollFrame vi vi') :
    CtpioPending vi0 len vi' := by
  rcases h with ⟨hl, hs⟩ | ⟨hl, hr⟩
  exacts [.inl ⟨hf.2.trans hl, hs.trans hf.1⟩, .inr ⟨hf.2.trans hl, hr.frame hf.1⟩]

theorem efctEfViTransmit_vi {space : Int} {buf : List UInt8} {r : TxVi × EfctTxState}
    (h : efctEfViTransmit d space vi buf dmaId = some r) :
    ∃ tx, r = efctTxComplete vi tx dmaId buf.length := by
  simp only [efctEfViTransmit] at h
  split at h
  · cases h
  · exact ⟨_, (Option.some.inj h).symm⟩

/-- The fallback call that returns 0 completes the protocol, in the shape both CTPIO fallbacks
share over the send they make after a failed CTPIO attempt: the packet is recorded under `dmaId`,
with the length `L` sent again if the attempt had failed. -/
theorem CtpioPending.fallback_some (hadd : vi0.added < 2 ^ 32) (h : CtpioPending vi0 len vi)
    {send : Option (TxVi × EfctTxState)} {L : Nat}
    (hsend : ∀ r, send = some r → ∃ tx, r = efctTxComplete vi tx dmaId L)
    {r : TxVi × Option EfctTxState}
    (hr : (if vi.lastCtpioFailed then
      send.map fun r => ({ r.1 with lastCtpioFailed := false }, some r.2)
      else some (efctEfViCtpioFallback vi dmaId, none)) = some r) :
    Recorded vi0 r.1 ((r.2.map fun _ => L).getD len) dmaId ∧ r.1.lastCtpioFailed = false := by
  split at hr
  · rename_i hl
    obtain ⟨⟨vi', tx⟩, hp, rfl⟩ := Option.map_eq_some'.mp hr
    obtain ⟨tx', htx⟩ := hsend _ hp
    cases htx
    have hs : SameEntries vi0 vi := by
      rcases h with ⟨-, hs⟩ | ⟨hl', -⟩
      exacts [hs, absurd hl (by simp [hl'])]
    have hrec : Recorded vi0 (efctTxComplete vi tx' dmaId L).1 L dmaId :=
      efctTxComplete_recorded hs
    exact ⟨hrec.frame ⟨rfl, rfl, rfl, rfl, rfl⟩, rfl⟩
  · rename_i hl
    cases hr
    have hrec : Recorded vi0 vi len efctTxPostedId := by
      rcases h with ⟨hl', -⟩ | ⟨-, hrec⟩
      exacts [absurd hl' hl, hrec]
    exact ⟨hrec.fallback hadd dmaId, by simpa using hl⟩

theorem FallbackRun.recorded (hadd : vi0.added < 2 ^ 32) {s s' : TxPollState}
    {sent : Option Nat} (run : FallbackRun d e dmaId s s' sent) (hp : CtpioPending vi0 len s.vi) :
    Recorded vi0 s'.vi (sent.getD len) dmaId ∧ s'.vi.lastCtpioFailed = false ∧
      ∀ L ∈ sent, L < 2 ^ d.packetLengthWidth := by
  induction run with
  | poll evsLen _ ih => exact ih (hp.poll (efctPollTx_frame evsLen))
  | again _ _ _ _ ih => exact ih hp
  | againv _ _ _ _ ih => exact ih hp
  | done space buf hlen h =>
    obtain ⟨h1, h2⟩ := hp.fallback_some hadd (fun r hr => efctEfViTransmit_vi hr) h
    exact ⟨h1, h2, fun L hL => by obtain ⟨_, -, rfl⟩ := Option.mem_map.mp hL; exact hlen⟩
  | donev space iov hlen h =>
    obtain ⟨h1, h2⟩ := hp.fallback_some hadd
      (fun r hr => ⟨_, (efctEfViTransmitv_some hr).2⟩) h
    exact ⟨h1, h2, fun L hL => by obtain ⟨_, -, rfl⟩ := Option.mem_map.mp hL; exact hlen⟩

/-- efct_ef_vi_transmitv_ctpio with warm mode off starts the protocol; when it fails admission
it leaves the ring entries as they were. -/
theorem efctEfViTransmitvCtpio_pending {space : Int} {iov : List (List UInt8)} {threshold : Nat}
    (hwarm : txWarmActive d vi0 = false) :
    CtpioPending vi0 len (efctEfViTransmitvCtpio d space vi0 len iov threshold).1 ∧
      ((efctEfViTransmitvCtpio d space vi0 len iov threshold).2 = none →
        SameEntries vi0 (efctEfViTransmitvCtpio d space vi0 len iov threshold).1) := by
  unfold efctEfViTransmitvCtpio
  by_cases hc : efctTxCheck space len = true
  · have hw : txWarmActive d { vi0 with lastCtpioFailed := false } = false := hwarm
    simp only [hc, Bool.not_true, if_false, hw, Bool.false_eq_true, ↓reduceIte]
    exact ⟨.inr ⟨rfl, efctTxComplete_recorded ⟨rfl, rfl, rfl, rfl, rfl⟩⟩, nofun⟩
  · simp only [Bool.not_eq_true] at hc
    simp only [hc, Bool.not_false, if_true]
    exact ⟨.inl ⟨rfl, ⟨rfl, rfl, rfl, rfl, rfl⟩⟩, fun _ => ⟨rfl, rfl, rfl, rfl, rfl⟩⟩

end Run

/-- An efct_ef_vi_transmitv_ctpio with warm mode off, then the fallback protocol with `dmaId`, adds
one ring entry, holding `dmaId` and the descriptor len of the streamed length, and no other. -/
theorem ctpio_fallback_records_once {d : EfctTxDefs} {e : EfctEvDefs} {space : Int}
    {vi0 : TxVi} {evq : EvqState} {len threshold dmaId : Nat} {iov : List (List UInt8)}
    {s' : TxPollState} {sent : Option Nat} (hwarm : txWarmActive d vi0 = false)
    (hadd : vi0.added < 2 ^ 32) (hw : d.packetLengthWidth ≤ 15)
    (hlen : len < 2 ^ d.packetLengthWidth)
    (run : FallbackRun d e dmaId ⟨(efctEfViTransmitvCtpio d space vi0 len iov threshold).1, evq⟩
      s' sent) :
    ((efctEfViTransmitvCtpio d space vi0 len iov threshold).2 = none →
        SameEntries vi0 (efctEfViTransmitvCtpio d space vi0 len iov threshold).1) ∧
      s'.vi.added = (vi0.added + 1) % 2 ^ 32 ∧
      s'.vi.ctAdded =
        (vi0.ctAdded + ciRoundUp (sent.getD len + efctTxHeaderBytes) efctTxAlignment) % 2 ^ 32 ∧
      s'.vi.descLen = Function.update vi0.descLen (vi0.added &&& vi0.mask)
        (ciRoundUp (sent.getD len + efctTxHeaderBytes) efctTxAlignment) ∧
      s'.vi.ids = Function.update vi0.ids (vi0.added &&& vi0.mask) dmaId := by
  obtain ⟨hpend, hfail⟩ :
      CtpioPending vi0 len (efctEfViTransmitvCtpio d space vi0 len iov threshold).1 ∧ _ :=
    efctEfViTransmitvCtpio_pending hwarm
  obtain ⟨hrec, -, hL⟩ := run.recorded hadd hpend
  have hsent : sent.getD len < 2 ^ 15 := by
    have h15 : 2 ^ d.packetLengthWidth ≤ 2 ^ 15 := Nat.pow_le_pow_right (by decide) hw
    cases sent with
    | none => exact lt_of_lt_of_le hlen h15
    | some L => exact lt_of_lt_of_le (hL L rfl) h15
  have hbound : ciRoundUp (sent.getD len + efctTxHeaderBytes) efctTxAlignment < 2 ^ 16 := by
    simp only [ciRoundUp, efctTxHeaderBytes, efctTxAlignment]
    omega
  refine ⟨hfail, hrec.added, hrec.ctAdded, ?_, hrec.ids⟩
  rw [hrec.descLen, Nat.mod_eq_of_lt hbound]

/-- A CTPIO attempt that fails admission, a retry that gets -EAGAIN, a poll, and the retry that
streams the one-byte packet under dma id 7. -/
theorem ctpio_fallback_records_once_retried :
    ∃ s' sent, FallbackRun ⟨0, 14, 14, 22, 23, 1, 24, 255, 0xffffffff⟩
        ⟨0, 0, 0, 0, 0, 0, 0, 0, 0, 0, 0, 0⟩ 7
        ⟨(efctEfViTransmitvCtpio ⟨0, 14, 14, 22, 23, 1, 24, 255, 0xffffffff⟩ 0
          ⟨1, 128, 0, 0, fun _ => 0, fun _ => 0, 0, 0, 0, 0, 0, false⟩ 1 [[0]] 0).1,
          ⟨0, fun _ => ⟨0, 0, 0, 0, 0, 0, 0, 0, 0, 0, 0, 0⟩, 0, 0, 0, 0, 0, 0, 0⟩⟩ s' sent ∧
      txWarmActive ⟨0, 14, 14, 22, 23, 1, 24, 255, 0xffffffff⟩
        ⟨1, 128, 0, 0, fun _ => 0, fun _ => 0, 0, 0, 0, 0, 0, false⟩ = false ∧
      0 < 2 ^ 32 ∧ 14 ≤ 15 ∧ 1 < 2 ^ 14 ∧
      ((efctEfViTransmitvCtpio ⟨0, 14, 14, 22, 23, 1, 24, 255, 0xffffffff⟩ 0
          ⟨1, 128, 0, 0, fun _ => 0, fun _ => 0, 0, 0, 0, 0, 0, false⟩ 1 [[0]] 0).2 = none →
        SameEntries ⟨1, 128, 0, 0, fun _ => 0, fun _ => 0, 0, 0, 0, 0, 0, false⟩
          (efctEfViTransmitvCtpio ⟨0, 14, 14, 22, 23, 1, 24, 255, 0xffffffff⟩ 0
            ⟨1, 128, 0, 0, fun _ => 0, fun _ => 0, 0, 0, 0, 0, 0, false⟩ 1 [[0]] 0).1) ∧
      s'.vi.added = (0 + 1) % 2 ^ 32 ∧
      s'.vi.ctAdded = (0 + ciRoundUp (sent.getD 1 + efctTxHeaderBytes) efctTxAlignment) % 2 ^ 32 ∧
      s'.vi.descLen = Function.update (fun _ => 0) (0 &&& 1)
        (ciRoundUp (sent.getD 1 + efctTxHeaderBytes) efctTxAlignment) ∧
      s'.vi.ids = Function.update (fun _ => 0) (0 &&& 1) 7 := by
  obtain ⟨s', sent, run⟩ : ∃ s' sent, FallbackRun ⟨0, 14, 14, 22, 23, 1, 24, 255, 0xffffffff⟩
      ⟨0, 0, 0, 0, 0, 0, 0, 0, 0, 0, 0, 0⟩ 7
      ⟨(efctEfViTransmitvCtpio ⟨0, 14, 14, 22, 23, 1, 24, 255, 0xffffffff⟩ 0
        ⟨1, 128, 0, 0, fun _ => 0, fun _ => 0, 0, 0, 0, 0, 0, false⟩ 1 [[0]] 0).1,
        ⟨0, fun _ => ⟨0, 0, 0, 0, 0, 0, 0, 0, 0, 0, 0, 0⟩, 0, 0, 0, 0, 0, 0, 0⟩⟩ s' sent :=
    ⟨_, _, .again 0 [0] rfl (.poll 0 (.done 64 [0] (by decide) rfl))⟩
  exact ⟨s', sent, run, by decide, by decide, by decide, by decide,
    ctpio_fallback_records_once (by decide) (by decide) (by decide) (by decide) run⟩

end EfctVi
