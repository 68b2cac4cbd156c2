import EfctVi.RxTrace

namespace EfctVi

/-- rx_rollover on a successful `ops->next`, with its three cases folded into two flags: a
nodesc `gap` releases `prev`, and at startup or after a gap the first slot is skipped. -/
theorem rxRollover_eq (s : RxState) (q : Nat) (g : SbGrant) :
    rxRollover s q (some g) =
      let ptr := s.rxqPtr q
      let pktId := ((q * ciEfctMaxSuperbufs + g.sb) <<< pktIdPktBits) % 2 ^ 32
      let next := pktId ||| g.sentinel.toNat <<< 31
      let gap := ptr.end ≠ 0 ∧ g.sbseq ≠ ptr.next >>> 32 + 1
      let skip := ptr.end = 0 ∨ g.sbseq ≠ ptr.next >>> 32 + 1
      let r := if gap then efctViRxpktRelease s ptr.prev else (s, [])
      let N := (s.q q).liveSuperbufPkts
      some ((r.1.setPtr q
          ⟨g.sbseq <<< 32 ||| (if skip then (next + 1) % 2 ^ 32 else next),
            if skip then pktId else ptr.prev, (pktId + N) % 2 ^ 32⟩).setDesc (efctRxDesc pktId)
        { r.1.descriptors (efctRxDesc pktId) with refcnt := N % 2 ^ 16, superbufPkts := N % 2 ^ 16 },
        r.2) := by
  rw [rxRollover]
  by_cases h0 : (s.rxqPtr q).end = 0
  · simp [h0]
  · by_cases hg : g.sbseq = (s.rxqPtr q).next >>> 32 + 1
    · simp [h0, hg]
    · simp [h0, hg, efctViRxpktRelease]

/-- The pointer rx_rollover leaves: the new sequence number and sentinel over the first slot,
or the second one at startup and after a nodesc gap, which also moves `prev` there. -/
theorem rxRollover_ptr {s s' : RxState} {q : Nat} {g : SbGrant} {frees : List (Nat × Nat)}
    (h : rxRollover s q (some g) = some (s', frees)) :
    let ptr := s.rxqPtr q
    let pktId := ((q * ciEfctMaxSuperbufs + g.sb) <<< pktIdPktBits) % 2 ^ 32
    let next := pktId ||| g.sentinel.toNat <<< 31
    let skip := ptr.end = 0 ∨ g.sbseq ≠ ptr.next >>> 32 + 1
    s'.rxqPtr q = ⟨g.sbseq <<< 32 ||| (if skip then (next + 1) % 2 ^ 32 else next),
      if skip then pktId else ptr.prev, (pktId + (s.q q).liveSuperbufPkts) % 2 ^ 32⟩ := by
  rw [rxRollover_eq] at h
  simp only [Option.some.injEq, Prod.mk.injEq] at h
  obtain ⟨rfl, -⟩ := h
  simp

theorem traceRollover_some {q : Nat} {t : RxTrace} {g : SbGrant} {r : RxTrace × List (Nat × Nat)}
    (h : traceRollover q t (some g) = some r) :
    rxRollover t.vi q (some g) = some (r.1.vi, r.2) ∧
      r.1.grants = (g, (t.vi.q q).liveSuperbufPkts) :: t.grants := by
  have hp := traceRollover_proj q t (some g)
  rw [h] at hp
  refine ⟨hp.symm, ?_⟩
  simp only [traceRollover, Option.map_eq_some'] at h
  obtain ⟨_, _, rfl⟩ := h
  simp

theorem pollRxStep_stop {c : RxHeaderCodes} {q : Nat} {s s' : RxState} {header : RxHeader}
    {frees : List (Nat × Nat)} (h : pollRxStep c q s header = .stop s' frees) :
    headerAction c s.rxDiscardMask header = .rollover ∧ pollRxRolloverHeader q s = (s', frees) := by
  unfold pollRxStep at h
  split at h
  · rename_i ha; cases h; exact ⟨ha, rfl⟩
  · cases h
  · cases h

theorem pollRxStep_emit {c : RxHeaderCodes} {q : Nat} {s s' : RxState} {header : RxHeader}
    {ev : EfEvent} (h : pollRxStep c q s header = .emit s' ev) :
    headerAction c s.rxDiscardMask header ≠ .rollover ∧ s' = pollRxAdvance q s header := by
  unfold pollRxStep at h
  split at h
  · cases h
  · rename_i ha; cases h; simp [ha]
  · rename_i ha; cases h; simp [ha]

@[simp] theorem pollRxAdvance_rxqPtr (q : Nat) (s : RxState) (header : RxHeader) :
    (pollRxAdvance q s header).rxqPtr q =
      { s.rxqPtr q with prev := rxqPtrToPktId (s.rxqPtr q).next,
                        next := ((s.rxqPtr q).next + 1) % 2 ^ 64 } := by
  simp [pollRxAdvance]

@[simp] theorem pollRxRolloverHeader_end (q : Nat) (s : RxState) :
    ((pollRxRolloverHeader q s).1.rxqPtr q).end = 0 := by
  simp [pollRxRolloverHeader]

@[simp] theorem efctViRxpktRelease_rxqPtr (s : RxState) (x : Nat) :
    (efctViRxpktRelease s x).1.rxqPtr = s.rxqPtr := by
  unfold efctViRxpktRelease; rfl

/-- The budget never reaches past `end`. -/
theorem pollRxBudget_le {ptr : RxqPtr} (evsLen : Int) (hle : rxqPtrToPktId ptr.next ≤ ptr.end)
    (hend : ptr.end < 2 ^ 31) : pollRxBudget ptr evsLen ≤ ptr.end - rxqPtrToPktId ptr.next := by
  have hw : wrapSub 32 ptr.end (rxqPtrToPktId ptr.next) = ptr.end - rxqPtrToPktId ptr.next := by
    simp only [wrapSub]; omega
  have hi : toInt32 (ptr.end - rxqPtrToPktId ptr.next) = ((ptr.end - rxqPtrToPktId ptr.next : Nat) : Int) := by
    simp only [toInt32]; split <;> omega
  simp only [pollRxBudget, hw, hi]
  omega

/-- The history after one pass of the loop over `header`. -/
def tracePass (c : RxHeaderCodes) (q : Nat) (t : RxTrace) (header : RxHeader) : RxTrace :=
  match pollRxStep c q t.vi header with
  | .stop vi frees => ({ t with vi } : RxTrace).free q frees
  | .emit vi _ => t.deliver vi (t.vi.rxqPtr q).prev header

section Preserve

variable {c : RxHeaderCodes} {q : Nat} (P : RxTrace → Prop)

/-- A property kept by every pass over a valid header before `end` is kept by the loop, run
for no more passes than slots remain. -/
theorem traceLoop_preserves
    (pass : ∀ t header, P t → rxqPtrToPktId (t.vi.rxqPtr q).next < (t.vi.rxqPtr q).end →
      efctRxNextHeader t.vi (t.vi.rxqPtr q).next = some header → P (tracePass c q t header))
    (bound : ∀ t, P t → (t.vi.rxqPtr q).end < 2 ^ 31) (n : Nat) :
    ∀ t, P t → n ≤ (t.vi.rxqPtr q).end - rxqPtrToPktId (t.vi.rxqPtr q).next →
      P (traceLoop c q n t).1 := by
  induction n with
  | zero => exact fun t ht _ => ht
  | succ n ih =>
    intro t ht hn
    simp only [traceLoop]
    cases hh : efctRxNextHeader t.vi (t.vi.rxqPtr q).next with
    | none => exact ht
    | some header =>
      have hp := pass t header ht (by omega) hh
      simp only
      cases hs : pollRxStep c q t.vi header with
      | stop vi frees => simpa [tracePass, hs] using hp
      | emit vi ev =>
        simp only [tracePass, hs] at hp
        refine ih _ hp ?_
        have hb := bound t ht
        simp only [(pollRxStep_emit hs).2, RxTrace.deliver_vi, pollRxAdvance, RxState.setPtr,
          RxState.setDesc, Function.update_same, rxqPtrToPktId_eq] at hn ⊢
        omega

variable (grantOk : RxTrace → SbGrant → Prop)

/-- A property kept by a successful rollover, by the configuration step and by every pass is
kept by efct_poll_rx. -/
theorem tracePollRx_preserves
    (roll : ∀ t g r, P t → efctRxqNeedRollover (t.vi.rxqPtr q) → grantOk t g →
      traceRollover q t (some g) = some r →
      P r.1 ∧ rxqPtrToPktId (r.1.vi.rxqPtr q).next ≤ (r.1.vi.rxqPtr q).end)
    (conf : ∀ t, P t → P (t.configure q))
    (pass : ∀ t header, P t → rxqPtrToPktId (t.vi.rxqPtr q).next < (t.vi.rxqPtr q).end →
      efctRxNextHeader t.vi (t.vi.rxqPtr q).next = some header → P (tracePass c q t header))
    (bound : ∀ t, P t → (t.vi.rxqPtr q).end < 2 ^ 31)
    {t : RxTrace} (grant : Option SbGrant) (refreshOk : Bool) (evsLen : Int) (ht : P t)
    (hg : ∀ g, grant = some g → efctRxqNeedRollover (t.vi.rxqPtr q) → grantOk t g) :
    P (tracePollRx c q grant refreshOk evsLen t).1 := by
  have headers : ∀ t frees, P t → rxqPtrToPktId (t.vi.rxqPtr q).next ≤ (t.vi.rxqPtr q).end →
      P (traceHeaders c q evsLen t frees).1 := fun t frees ht hle =>
    traceLoop_preserves P pass bound _ t ht (pollRxBudget_le evsLen hle (bound t ht))
  have after : ∀ t frees, P t → rxqPtrToPktId (t.vi.rxqPtr q).next ≤ (t.vi.rxqPtr q).end →
      P (traceAfterRollover c q refreshOk evsLen t frees).1 := by
    intro t frees ht hle
    simp only [traceAfterRollover]
    split
    · split
      · exact headers _ _ (conf t ht) (by simpa [RxTrace.configure] using hle)
      · exact conf t ht
    · exact headers _ _ ht hle
  by_cases hneed : efctRxqNeedRollover (t.vi.rxqPtr q)
  · simp only [tracePollRx, hneed, ↓reduceIte]
    cases grant with
    | none => exact ht
    | some g =>
      cases hr : traceRollover q t (some g) with
      | none => exact ht
      | some r =>
        obtain ⟨hP, hle⟩ := roll t g r ht hneed (hg g rfl hneed) hr
        exact after r.1 r.2 hP hle
  · simp only [tracePollRx, hneed, Bool.false_eq_true, ↓reduceIte]
    simp only [efctRxqNeedRollover, decide_eq_true_eq, not_le] at hneed
    exact after t [] ht hneed.le

end Preserve

/-- One call in a run on queue `q`: a poll, a release of a delivered pkt_id, or a write by
another agent to memory the VI shares. `grantOk` says what `ops->next` may hand back, and
`nicOk` which header slots the NIC may write. -/
inductive RxStep (grantOk : RxTrace → SbGrant → Prop) (nicOk : RxTrace → Nat → Prop)
    (c : RxHeaderCodes) (q : Nat) : RxTrace → RxTrace → Prop
  | poll {t : RxTrace} (grant : Option SbGrant) (refreshOk : Bool) (evsLen : Int)
      (hg : ∀ g, grant = some g → efctRxqNeedRollover (t.vi.rxqPtr q) → grantOk t g) :
      RxStep grantOk nicOk c q t (tracePollRx c q grant refreshOk evsLen t).1
  | release {t : RxTrace} (x : Nat) (hx : x ∈ t.outstanding) :
      RxStep grantOk nicOk c q t (traceRelease q t x)
  | nicWrite {t : RxTrace} (p : Nat) (header : RxHeader) (hp : nicOk t p) :
      RxStep grantOk nicOk c q t
        { t with vi := { t.vi with superbuf := Function.update t.vi.superbuf p header } }
  | publish {t : RxTrace} (pkts gen : Nat) (ts : TimeSync) :
      RxStep grantOk nicOk c q t
        { t with vi := t.vi.setRxq q { t.vi.q q with
            liveSuperbufPkts := pkts, liveConfigGeneration := gen, liveTimeSync := ts } }
  | setDiscards {t : RxTrace} (f : DiscardFlags) :
      RxStep grantOk nicOk c q t
        { t with vi := { t.vi with rxDiscardMask := efctEfViReceiveSetDiscards f } }

/-- The histories of queue `q` from efct_vi_start_rxq on, over any state it was started in. -/
inductive RxReach (grantOk : RxTrace → SbGrant → Prop) (nicOk : RxTrace → Nat → Prop)
    (c : RxHeaderCodes) (q : Nat) : RxTrace → Prop
  | start (s : RxState) (qid : Int) :
      RxReach grantOk nicOk c q
        ⟨efctViStartRxq s q qid, [], fun _ => false, [], s.superbuf, false⟩
  | step {t t' : RxTrace} : RxReach grantOk nicOk c q t → RxStep grantOk nicOk c q t t' →
      RxReach grantOk nicOk c q t'

end EfctVi
