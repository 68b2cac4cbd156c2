import EfctVi.TxRun

namespace EfctVi

section Major

variable {e : EfctEvDefs} {s : TxPollState} {event : EfctEvent}

/-- A TIME_SYNC event stores the 32-bit `time_high >> 16`; no other control event writes
sync_timestamp_major. -/
theorem efctTxHandleControlEvent_major (h : s.evq.syncTimestampMajor < 2 ^ 32) :
    (efctTxHandleControlEvent e s event).1.evq.syncTimestampMajor < 2 ^ 32 := by
  simp only [efctTxHandleControlEvent, apply_ite Prod.fst, apply_ite TxPollState.evq,
    apply_ite EvqState.syncTimestampMajor, efctTxHandleErrorEvent, ite_self]
  split_ifs <;> first | exact h | exact Nat.mod_lt _ (Nat.two_pow_pos 32)

theorem pollTxLoop_major {evsLen : Int} : ∀ {fuel n : Nat} {s : TxPollState},
    s.evq.syncTimestampMajor < 2 ^ 32 →
      (pollTxLoop e evsLen fuel n s).state.evq.syncTimestampMajor < 2 ^ 32
  | 0, _, _, h => h
  | fuel + 1, n, s, h => by
    simp only [pollTxLoop]
    split_ifs
    · exact h
    split
    · exact h
    split_ifs
    · rwa [efctTxHandleEvent_evq]
    · exact pollTxLoop_major (efctTxHandleControlEvent_major h)
    · exact pollTxLoop_major h

theorem TxStep.major {d : EfctTxDefs} {s s' : TxPollState} (hs : TxStep d e s s')
    (h : s.evq.syncTimestampMajor < 2 ^ 32) : s'.evq.syncTimestampMajor < 2 ^ 32 := by
  cases hs with
  | pollTx evsLen => exact pollTxLoop_major h
  | _ => exact h

theorem TxReach.major {d : EfctTxDefs} {s0 s : TxPollState} (reach : TxReach d e s0 s)
    (h0 : s0.evq.syncTimestampMajor < 2 ^ 32) : s.evq.syncTimestampMajor < 2 ^ 32 := by
  induction reach with
  | start => exact h0
  | step _ hs ih => exact hs.major ih

end Major

/-- The seconds unwrapping of efct_tx_handle_event, for a packet stamped at second `T` of the
256 from the sync's second `major`: the low byte of `T` is one past that of `major` only at
`T = major + 1`. -/
theorem tsSec_unwrap {major T : Nat} (hmaj : major < 2 ^ 32) (hT : major ≤ T)
    (hT' : T < major + 256) :
    (if T % 256 = ((major &&& 0xFF) + 1) % 256 then (major + 1) % 2 ^ 32 else major) =
        T % 2 ^ 32 ↔ T ≤ major + 1 := by
  rw [show (0xFF : Nat) = 2 ^ 8 - 1 from rfl, Nat.and_pow_two_sub_one_eq_mod]
  have hnext : T % 256 = (major % 256 + 1) % 256 ↔ T = major + 1 := by omega
  split_ifs with h
  · simp [hnext.mp h]
  · have := mt hnext.mpr h
    omega

/-- A timestamped completion reports the last TIME_SYNC's seconds corrected by its partial seconds,
right exactly for a packet stamped in the sync's second or the next. -/
theorem txTimestamp_seconds_unwrap {d : EfctTxDefs} {e : EfctEvDefs} {s0 s : TxPollState}
    {event : EfctEvent} {T : Nat} (h0 : s0.evq.syncTimestampMajor < 2 ^ 32)
    (reach : TxReach d e s0 s) (hts : event.txTimestampStatus ≠ 0)
    (hsec : (event.txPartialTstamp >>> 32) % 2 ^ 32 = T % 256)
    (hT : s.evq.syncTimestampMajor ≤ T) (hT' : T < s.evq.syncTimestampMajor + 256) :
    ∃ tsSec tsNsec rqId, (efctTxHandleEvent e s event).2 =
        .txWithTimestamp tsSec tsNsec rqId e.eventFlagCtpio event.txLabel ∧
      (tsSec = T % 2 ^ 32 ↔ T ≤ s.evq.syncTimestampMajor + 1) := by
  refine ⟨_, _, _, by simp only [efctTxHandleEvent, if_pos hts]; rfl, ?_⟩
  rw [hsec]
  exact tsSec_unwrap (reach.major h0) hT hT'

/-- A completion stamped in the second after a sync at second 0 is reported at second 1. -/
theorem txTimestamp_seconds_unwrap_next_second :
    let d : EfctTxDefs := ⟨0, 14, 14, 22, 23, 1, 24, 255, 0xffffffff⟩
    let e : EfctEvDefs := ⟨0, 1, 0, 1, 2, 3, 8, 1, 2, 16, 3, 4⟩
    let s0 : TxPollState := ⟨⟨0, 0, 0, 0, fun _ => 0, fun _ => 0, 0, 0, 0, 0, 0, false⟩,
      ⟨0, fun _ => ⟨0, 0, 0, 0, 0, 0, 0, 0, 0, 0, 0, 0⟩, 0, 0, 0, 0, 0, 0, 0⟩⟩
    let event : EfctEvent := ⟨0, 0, 0, 1, 2 ^ 32, 0, 0, 0, 0, 0, 0, 0⟩
    s0.evq.syncTimestampMajor < 2 ^ 32 ∧ TxReach d e s0 s0 ∧ event.txTimestampStatus ≠ 0 ∧
      (event.txPartialTstamp >>> 32) % 2 ^ 32 = 1 % 256 ∧ s0.evq.syncTimestampMajor ≤ 1 ∧
      1 < s0.evq.syncTimestampMajor + 256 ∧
      ∃ tsSec tsNsec rqId, (efctTxHandleEvent e s0 event).2 =
          .txWithTimestamp tsSec tsNsec rqId e.eventFlagCtpio event.txLabel ∧
        (tsSec = 1 % 2 ^ 32 ↔ 1 ≤ s0.evq.syncTimestampMajor + 1) :=
  ⟨by decide, .start, by decide, by decide, by decide, by decide,
    @txTimestamp_seconds_unwrap ⟨0, 14, 14, 22, 23, 1, 24, 255, 0xffffffff⟩
      ⟨0, 1, 0, 1, 2, 3, 8, 1, 2, 16, 3, 4⟩
      ⟨⟨0, 0, 0, 0, fun _ => 0, fun _ => 0, 0, 0, 0, 0, 0, false⟩,
        ⟨0, fun _ => ⟨0, 0, 0, 0, 0, 0, 0, 0, 0, 0, 0, 0⟩, 0, 0, 0, 0, 0, 0, 0⟩⟩ _
      ⟨0, 0, 0, 1, 2 ^ 32, 0, 0, 0, 0, 0, 0, 0⟩ 1 (by decide) .start (by decide) (by decide)
      (by decide) (by decide)⟩

end EfctVi
