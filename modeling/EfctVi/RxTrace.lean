import EfctVi.RxPoll

namespace EfctVi

/-- A receive state together with the history of queue `q` that ef_vi's callbacks see:
the successful `ops->next` results with the `superbuf_pkts` read alongside (newest first),
the superbufs acquired and not yet freed, the pkt_ids delivered and not yet released with the
header that delivered each, and whether some `ops->free` named a superbuf not held. -/
structure RxTrace where
  vi : RxState
  grants : List (SbGrant × Nat)
  held : Nat → Bool
  outstanding : List Nat
  deliveredBy : Nat → RxHeader
  badFree : Bool

namespace RxTrace

/-- Record the `ops->free` calls of queue `q`, one at a time. -/
def free (t : RxTrace) (q : Nat) : List (Nat × Nat) → RxTrace
  | [] => t
  | f :: fs =>
    ({ t with
        held := Function.update t.held f.2 false
        badFree := t.badFree || f.1 != q || !t.held f.2 } : RxTrace).free q fs

@[simp] theorem free_vi (t : RxTrace) (q : Nat) (fs : List (Nat × Nat)) : (t.free q fs).vi = t.vi := by
  induction fs generalizing t with
  | nil => rfl
  | cons f fs ih => exact ih _

@[simp] theorem free_grants (t : RxTrace) (q : Nat) (fs : List (Nat × Nat)) :
    (t.free q fs).grants = t.grants := by
  induction fs generalizing t with
  | nil => rfl
  | cons f fs ih => exact ih _

@[simp] theorem free_outstanding (t : RxTrace) (q : Nat) (fs : List (Nat × Nat)) :
    (t.free q fs).outstanding = t.outstanding := by
  induction fs generalizing t with
  | nil => rfl
  | cons f fs ih => exact ih _

@[simp] theorem free_deliveredBy (t : RxTrace) (q : Nat) (fs : List (Nat × Nat)) :
    (t.free q fs).deliveredBy = t.deliveredBy := by
  induction fs generalizing t with
  | nil => rfl
  | cons f fs ih => exact ih _

end RxTrace

/-- rx_rollover with the grant recorded and the new superbuf held, then the frees of the
nodesc path. -/
def traceRollover (q : Nat) (t : RxTrace) : Option SbGrant → Option (RxTrace × List (Nat × Nat))
  | none => none
  | some g => (rxRollover t.vi q (some g)).map fun r =>
    (({ t with
        vi := r.1
        grants := (g, (t.vi.q q).liveSuperbufPkts) :: t.grants
        held := Function.update t.held g.sb true } : RxTrace).free q r.2, r.2)

/-- The history after a pass delivers `prev` = `x` on the strength of `header`. -/
def RxTrace.deliver (t : RxTrace) (vi : RxState) (x : Nat) (header : RxHeader) : RxTrace :=
  { t with
    vi
    outstanding := t.outstanding ++ [x]
    deliveredBy := Function.update t.deliveredBy x header }

/-- The configuration step of efct_poll_rx: the cached generation takes the live one. -/
def RxTrace.configure (t : RxTrace) (q : Nat) : RxTrace :=
  { t with vi := t.vi.setRxq q { t.vi.q q with configGeneration := (t.vi.q q).liveConfigGeneration } }

@[simp] theorem RxTrace.deliver_vi (t : RxTrace) (vi : RxState) (x : Nat) (header : RxHeader) :
    (t.deliver vi x header).vi = vi := rfl

/-- efct_poll_rx's loop with each delivered `prev` recorded beside the header that delivered it. -/
def traceLoop (c : RxHeaderCodes) (q : Nat) :
    Nat → RxTrace → RxTrace × List EfEvent × List (Nat × Nat)
  | 0, t => (t, [], [])
  | n + 1, t =>
    match efctRxNextHeader t.vi (t.vi.rxqPtr q).next with
    | none => (t, [], [])
    | some header =>
      match pollRxStep c q t.vi header with
      | .stop vi frees => (({ t with vi } : RxTrace).free q frees, [], frees)
      | .emit vi ev =>
        let r := traceLoop c q n (t.deliver vi (t.vi.rxqPtr q).prev header)
        (r.1, ev :: r.2.1, r.2.2)

def traceHeaders (c : RxHeaderCodes) (q : Nat) (evsLen : Int) (t : RxTrace)
    (frees : List (Nat × Nat)) : RxTrace × List EfEvent × List (Nat × Nat) :=
  let r := traceLoop c q (pollRxBudget (t.vi.rxqPtr q) evsLen) t
  (r.1, r.2.1, frees ++ r.2.2)

def traceAfterRollover (c : RxHeaderCodes) (q : Nat) (refreshOk : Bool) (evsLen : Int)
    (t : RxTrace) (frees : List (Nat × Nat)) : RxTrace × List EfEvent × List (Nat × Nat) :=
  if efctRxqNeedConfig (t.vi.q q) then
    if refreshOk then traceHeaders c q evsLen (t.configure q) frees else (t.configure q, [], frees)
  else traceHeaders c q evsLen t frees

def tracePollRx (c : RxHeaderCodes) (q : Nat) (grant : Option SbGrant) (refreshOk : Bool)
    (evsLen : Int) (t : RxTrace) : RxTrace × List EfEvent × List (Nat × Nat) :=
  match (if efctRxqNeedRollover (t.vi.rxqPtr q) then traceRollover q t grant else some (t, [])) with
  | none => (t, [], [])
  | some (t, frees) => traceAfterRollover c q refreshOk evsLen t frees

def traceRelease (q : Nat) (t : RxTrace) (x : Nat) : RxTrace :=
  let r := efctViRxpktRelease t.vi x
  ({ t with vi := r.1, outstanding := t.outstanding.erase x } : RxTrace).free q r.2

@[simp] theorem traceRelease_vi (q : Nat) (t : RxTrace) (x : Nat) :
    (traceRelease q t x).vi = (efctViRxpktRelease t.vi x).1 :=
  RxTrace.free_vi _ _ _

@[simp] theorem traceRelease_outstanding (q : Nat) (t : RxTrace) (x : Nat) :
    (traceRelease q t x).outstanding = t.outstanding.erase x :=
  RxTrace.free_outstanding _ _ _

@[simp] theorem traceRelease_grants (q : Nat) (t : RxTrace) (x : Nat) :
    (traceRelease q t x).grants = t.grants :=
  RxTrace.free_grants _ _ _

theorem traceRollover_proj (q : Nat) (t : RxTrace) (grant : Option SbGrant) :
    (traceRollover q t grant).map (fun r => (r.1.vi, r.2)) = rxRollover t.vi q grant := by
  cases grant with
  | none => rfl
  | some g =>
    simp only [traceRollover, Option.map_map]
    cases rxRollover t.vi q (some g) <;> simp

theorem traceLoop_proj (c : RxHeaderCodes) (q n : Nat) (t : RxTrace) :
    ((traceLoop c q n t).1.vi, (traceLoop c q n t).2) = pollRxLoop c q n t.vi := by
  induction n generalizing t with
  | zero => rfl
  | succ n ih =>
    simp only [traceLoop, pollRxLoop]
    cases efctRxNextHeader t.vi (t.vi.rxqPtr q).next with
    | none => rfl
    | some header =>
      simp only
      cases pollRxStep c q t.vi header with
      | stop vi frees => simp
      | emit vi ev =>
        have h := ih (t.deliver vi (t.vi.rxqPtr q).prev header)
        rw [RxTrace.deliver_vi] at h
        simp only [← h]

theorem traceAfterRollover_proj (c : RxHeaderCodes) (q : Nat) (refreshOk : Bool) (evsLen : Int)
    (t : RxTrace) (frees : List (Nat × Nat)) :
    ((traceAfterRollover c q refreshOk evsLen t frees).1.vi,
      (traceAfterRollover c q refreshOk evsLen t frees).2) =
      pollRxAfterRollover c q refreshOk noPublishes evsLen t.vi frees := by
  have hh : ∀ t : RxTrace, ((traceHeaders c q evsLen t frees).1.vi, (traceHeaders c q evsLen t frees).2) =
      efctPollRxHeaders c q evsLen t.vi frees := fun t => by
    simp only [traceHeaders, efctPollRxHeaders, ← traceLoop_proj]
  simp only [traceAfterRollover, pollRxAfterRollover_quiet]
  split
  · split
    · exact hh _
    · rfl
  · exact hh _

theorem tracePollRx_proj (c : RxHeaderCodes) (q : Nat) (grant : Option SbGrant) (refreshOk : Bool)
    (evsLen : Int) (t : RxTrace) :
    ((tracePollRx c q grant refreshOk evsLen t).1.vi, (tracePollRx c q grant refreshOk evsLen t).2) =
      efctPollRx c q grant refreshOk evsLen t.vi := by
  have hroll := traceRollover_proj q t grant
  by_cases hneed : efctRxqNeedRollover (t.vi.rxqPtr q)
  · simp only [tracePollRx, efctPollRx, hneed, ↓reduceIte]
    cases hr : traceRollover q t grant with
    | none => simp only [hr, Option.map_none'] at hroll; simp [← hroll]
    | some r =>
      simp only [hr, Option.map_some'] at hroll
      simp only [← hroll, traceAfterRollover_proj]
  · simp only [tracePollRx, efctPollRx, hneed, Bool.false_eq_true, ↓reduceIte]
    exact traceAfterRollover_proj c q refreshOk evsLen t []

end EfctVi
