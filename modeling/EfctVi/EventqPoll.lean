import EfctVi.RxStep
import EfctVi.TxPhase

namespace EfctVi

/-- A VI as efct_ef_eventq_poll and efct_ef_eventq_check_event read it: the receive side, the TX
queue with its event queue, the 64-bit word behind `efct_rxqs.active_qs`, and `vi_rxq.mask`. -/
structure ViState where
  rx : RxState
  tx : TxPollState
  activeQs : Nat
  rxqMask : Nat

/-- efct_rxq_check_event in the user-space build; `available` answers `ops->available`. -/
def efctRxqCheckEvent (available : Nat → Bool) (s : RxState) (qid : Nat) : Bool :=
  let rxq := s.q qid
  let ptr := s.rxqPtr qid
  if !efctRxqIsActive rxq then false
  else if efctRxqNeedRollover ptr then available qid
  else efctRxqNeedConfig rxq || (efctRxNextHeader s ptr.next).isSome

def efctRxCheckEvent (available : Nat → Bool) (vi : ViState) : Bool :=
  vi.rxqMask != 0 && (List.range efViMaxEfctRxqs).any (efctRxqCheckEvent available vi.rx)

def efctEfEventqCheckEvent (available : Nat → Bool) (vi : ViState) : Bool :=
  efctTxCheckEvent vi.tx.evq || efctRxCheckEvent available vi

/-- Modelled from the spec: __builtin_ffsll is the compiler's, outside src/; over `n` bits of
`x` from bit `i` on, one more than the index of the lowest set one, or 0. -/
def ffsFrom (x : Nat) : Nat → Nat → Nat
  | 0, _ => 0
  | n + 1, i => if x.testBit i then i + 1 else ffsFrom x n (i + 1)

def builtinFfsll (x : Nat) : Nat :=
  ffsFrom x 64 0

/-- What efct_ef_eventq_poll has done so far: the receive side, the events written to `evs`,
the `ops->free` calls, and the queues that `ops->next` gave a superbuf (a ghost record). -/
structure EventqRx where
  rx : RxState
  evs : List EfEvent
  frees : List (Nat × Nat)
  nexts : List Nat

/-- `n += efct_poll_rx(vi, i, evs + n, evs_len - n)`; `grant` and `refreshOk` answer queue `i`'s
`ops->next` and `ops->refresh`. -/
def eventqPollRxq (c : RxHeaderCodes) (grant : Nat → Option SbGrant) (refreshOk : Nat → Bool)
    (evsLen : Int) (acc : EventqRx) (i : Nat) : EventqRx :=
  let r := efctPollRx c i (grant i) (refreshOk i) (evsLen - acc.evs.length) acc.rx
  { rx := r.1
    evs := acc.evs ++ r.2.1
    frees := acc.frees ++ r.2.2
    nexts := acc.nexts ++
      if efctRxqNeedRollover (acc.rx.rxqPtr i) && (grant i).isSome then [i] else [] }

/-- The loop of efct_ef_eventq_poll over the set bits of `qs`, each cleared with
`qs &= ~(1ull << i)` once its queue is polled; a 64-bit word takes at most 64 rounds. -/
def eventqPollRxLoop (c : RxHeaderCodes) (grant : Nat → Option SbGrant) (refreshOk : Nat → Bool)
    (evsLen : Int) : Nat → Nat → EventqRx → EventqRx
  | 0, _, acc => acc
  | fuel + 1, qs, acc =>
    let i := builtinFfsll qs
    if i = 0 then acc
    else
      eventqPollRxLoop c grant refreshOk evsLen fuel (qs &&& ((1 <<< (i - 1)) ^^^ (2 ^ 64 - 1)))
        (eventqPollRxq c grant refreshOk evsLen acc (i - 1))

/-- What efct_ef_eventq_poll leaves and does: the new VI, the events (their number is the
return value), the `ops->free` calls, the queues given a superbuf by `ops->next`, and the
unsolicited-credit writes of efct_poll_tx. -/
structure EventqPollResult where
  vi : ViState
  evs : List EfEvent
  frees : List (Nat × Nat)
  nexts : List Nat
  grants : List (Bool × Nat)

def efctEfEventqPoll (c : RxHeaderCodes) (d : EfctEvDefs) (grant : Nat → Option SbGrant)
    (refreshOk : Nat → Bool) (vi : ViState) (evsLen : Int) : EventqPollResult :=
  let r := eventqPollRxLoop c grant refreshOk evsLen 64 vi.activeQs ⟨vi.rx, [], [], []⟩
  let vi := { vi with rx := r.rx }
  if vi.tx.vi.mask ≠ 0 then
    let t := efctPollTx d vi.tx (evsLen - r.evs.length)
    ⟨{ vi with tx := t.state }, r.evs ++ t.evs, r.frees, r.nexts, t.grants⟩
  else ⟨vi, r.evs, r.frees, r.nexts, []⟩

/-- The poll did nothing: no event, the VI as it was, no superbuf taken from `ops->next` or
handed to `ops->free`, no credit written. -/
def EventqPollResult.Idle (r : EventqPollResult) (vi : ViState) : Prop :=
  r.evs = [] ∧ r.vi = vi ∧ r.frees = [] ∧ r.nexts = [] ∧ r.grants = []

section Ffs

/-- The set bits of `x` among the `n` from bit `i` on, lowest first. -/
def setBits (x i n : Nat) : List Nat :=
  (List.range' i n).filter x.testBit

theorem testBit_clear {x b j : Nat} (hj : j < 64) :
    (x &&& ((1 <<< b) ^^^ (2 ^ 64 - 1))).testBit j = (x.testBit j && decide (j ≠ b)) := by
  rw [Nat.testBit_and, Nat.testBit_xor, Nat.testBit_two_pow_sub_one, Nat.shiftLeft_eq, Nat.one_mul,
    Nat.testBit_two_pow, decide_eq_true hj, Bool.xor_true]
  rcases eq_or_ne j b with rfl | h
  · simp
  · simp [h, h.symm]

/-- The bit __builtin_ffsll finds is the first of the set bits, and the rest are those of the
word it leaves. -/
theorem setBits_ffsFrom {x : Nat} : ∀ {n i : Nat}, i + n ≤ 64 →
    (ffsFrom x n i = 0 → setBits x i n = []) ∧
      ∀ b, ffsFrom x n i = b + 1 →
        setBits x i n = b :: setBits (x &&& ((1 <<< b) ^^^ (2 ^ 64 - 1))) i n
  | 0, _, _ => ⟨fun _ => rfl, fun _ h => by simp [ffsFrom] at h⟩
  | n + 1, i, hn => by
    have hi : i < 64 := by omega
    have ih := setBits_ffsFrom (x := x) (n := n) (i := i + 1) (by omega)
    have htail : ∀ y, setBits y i (n + 1) =
        if y.testBit i then i :: setBits y (i + 1) n else setBits y (i + 1) n := fun y => by
      simp only [setBits, List.range'_succ, List.filter_cons]
    cases hx : x.testBit i
    · have hf : ffsFrom x (n + 1) i = ffsFrom x n (i + 1) := by simp [ffsFrom, hx]
      refine ⟨fun h => by rw [htail, hx]; exact ih.1 (hf ▸ h), fun b h => ?_⟩
      rw [htail, htail, hx, testBit_clear hi, hx]
      exact ih.2 b (hf ▸ h)
    · refine ⟨fun h => by simp [ffsFrom, hx] at h, fun b h => ?_⟩
      obtain rfl : b = i := by simpa [ffsFrom, hx] using h.symm
      rw [htail, htail, hx, testBit_clear hi, hx]
      simp only [ne_eq, not_true_eq_false, decide_False, Bool.and_false, if_true,
        Bool.false_eq_true, if_false, List.cons.injEq, true_and]
      refine List.filter_congr fun j hj => ?_
      rw [List.mem_range'_1] at hj
      rw [testBit_clear (by omega)]
      simp [show j ≠ b by omega]

theorem length_setBits_le (x : Nat) : (setBits x 0 64).length ≤ 64 :=
  (List.length_filter_le _ _).trans (by simp)

theorem mem_setBits {x j : Nat} : j ∈ setBits x 0 64 ↔ j < 64 ∧ x.testBit j := by
  simp [setBits]

/-- The ffs loop polls the set bits of the word, lowest first, each once. -/
theorem eventqPollRxLoop_eq_foldl {c : RxHeaderCodes} {grant : Nat → Option SbGrant}
    {refreshOk : Nat → Bool} {evsLen : Int} :
    ∀ {fuel qs : Nat} (acc : EventqRx), (setBits qs 0 64).length ≤ fuel →
      eventqPollRxLoop c grant refreshOk evsLen fuel qs acc =
        (setBits qs 0 64).foldl (eventqPollRxq c grant refreshOk evsLen) acc
  | 0, qs, acc, hn => by
    rw [List.eq_nil_of_length_eq_zero (Nat.le_zero.mp hn)]
    rfl
  | fuel + 1, qs, acc, hn => by
    have hs := setBits_ffsFrom (x := qs) (n := 64) (i := 0) (by omega)
    simp only [eventqPollRxLoop, builtinFfsll]
    cases h : ffsFrom qs 64 0 with
    | zero => rw [hs.1 h]; rfl
    | succ b =>
      rw [hs.2 b h] at hn ⊢
      simp only [Nat.add_one_ne_zero, if_false, Nat.add_sub_cancel, List.foldl_cons]
      exact eventqPollRxLoop_eq_foldl _ (by simpa using hn)

end Ffs

section Rxq

variable {c : RxHeaderCodes} {available : Nat → Bool} {s : RxState} {i : Nat}
  {g : Option SbGrant} {o : Bool} {m : Int}

theorem pollRxLoop_of_none {n : Nat} (h : efctRxNextHeader s (s.rxqPtr i).next = none) :
    pollRxLoop c i n s = (s, [], []) := by
  cases n <;> simp [pollRxLoop, h]

/-- The budget is at least one packet while `next` is short of an `end` below 2^31. -/
theorem pollRxBudget_pos {ptr : RxqPtr} (hm : 1 ≤ m) (hlt : rxqPtrToPktId ptr.next < ptr.end)
    (hend : ptr.end < 2 ^ 31) : 1 ≤ pollRxBudget ptr m := by
  have hw : wrapSub 32 ptr.end (rxqPtrToPktId ptr.next) = ptr.end - rxqPtrToPktId ptr.next := by
    simp only [wrapSub]; omega
  have hi : toInt32 (ptr.end - rxqPtrToPktId ptr.next) =
      ((ptr.end - rxqPtrToPktId ptr.next : Nat) : Int) := by
    simp only [toInt32]; split <;> omega
  simp only [pollRxBudget, hw, hi]
  omega

/-- A queue the check passes over is left as it is by efct_poll_rx, with no event and no call to
`ops->free`; the `ops->next` it may call fails. -/
theorem efctPollRx_idle (hg : g.isSome = available i) (ha : efctRxqIsActive (s.q i) = true)
    (hc : efctRxqCheckEvent available s i = false) :
    efctPollRx c i g o m s = (s, [], []) ∧
      (efctRxqNeedRollover (s.rxqPtr i) && g.isSome) = false := by
  simp only [efctRxqCheckEvent, ha, Bool.not_true] at hc
  by_cases hr : efctRxqNeedRollover (s.rxqPtr i) = true
  · simp only [hr, if_true, Bool.false_eq_true, if_false] at hc
    obtain rfl : g = none := Option.not_isSome_iff_eq_none.mp (by simp [hg, hc])
    simp [efctPollRx, hr, rxRollover]
  · simp only [hr, Bool.false_eq_true, if_false, Bool.or_eq_false_iff] at hc
    have hn : efctRxNextHeader s (s.rxqPtr i).next = none :=
      Option.not_isSome_iff_eq_none.mp (by simp [hc.2])
    simp [efctPollRx, hr, pollRxAfterRollover_quiet, hc.1, efctPollRxHeaders, pollRxLoop_of_none hn]

theorem pollRxLoop_q {n : Nat} : (pollRxLoop c i n s).1.q = s.q := by
  induction n generalizing s with
  | zero => rfl
  | succ n ih =>
    simp only [pollRxLoop]
    split
    · rfl
    · split
      · rename_i s' frees h
        obtain ⟨-, hs⟩ := pollRxStep_stop h
        rw [show s' = (pollRxRolloverHeader i s).1 by rw [hs]]
        simp [pollRxRolloverHeader]
      · rename_i s' ev h
        rw [ih, (pollRxStep_emit h).2]
        rfl

theorem pollRxLoop_rxqPtr_ne {n k : Nat} (hk : k ≠ i) :
    (pollRxLoop c i n s).1.rxqPtr k = s.rxqPtr k := by
  induction n generalizing s with
  | zero => rfl
  | succ n ih =>
    simp only [pollRxLoop]
    split
    · rfl
    · split
      · rename_i s' frees h
        obtain ⟨-, hs⟩ := pollRxStep_stop h
        rw [show s' = (pollRxRolloverHeader i s).1 by rw [hs]]
        simp [pollRxRolloverHeader, Function.update_noteq hk]
      · rename_i s' ev h
        rw [ih, (pollRxStep_emit h).2]
        simp [pollRxAdvance, Function.update_noteq hk]

/-- efct_poll_rx on queue `i` keeps the pointer and configuration of every other queue. -/
theorem efctPollRx_other {k : Nat} (hk : k ≠ i) :
    (efctPollRx c i g o m s).1.rxqPtr k = s.rxqPtr k ∧ (efctPollRx c i g o m s).1.q k = s.q k := by
  have hafter : ∀ s' frees, s'.rxqPtr k = s.rxqPtr k → s'.q k = s.q k →
      (pollRxAfterRollover c i o noPublishes m s' frees).1.rxqPtr k = s.rxqPtr k ∧
        (pollRxAfterRollover c i o noPublishes m s' frees).1.q k = s.q k := by
    intro s' frees hp hq
    simp only [pollRxAfterRollover_quiet, efctPollRxHeaders]
    split_ifs <;>
      simp [pollRxLoop_rxqPtr_ne hk, pollRxLoop_q, Function.update_noteq hk, hp, hq]
  simp only [efctPollRx]
  split
  · exact ⟨rfl, rfl⟩
  · rename_i s' frees h
    split_ifs at h with hr
    · cases g with
      | none => simp [rxRollover] at h
      | some g =>
        rw [rxRollover_eq] at h
        simp only [Option.some.injEq, Prod.mk.injEq] at h
        obtain ⟨rfl, rfl⟩ := h
        apply hafter <;> split_ifs <;> simp [Function.update_noteq hk, efctViRxpktRelease]
    · simp only [Option.some.injEq, Prod.mk.injEq] at h
      obtain ⟨rfl, rfl⟩ := h
      exact hafter _ _ rfl rfl

/-- A queue the check reports on is acted on by efct_poll_rx with room for an event: it takes a
superbuf from `ops->next`, writes an event, or moves the queue's pointer or configuration. -/
theorem efctPollRx_acts (hg : g.isSome = available i) (hc : efctRxqCheckEvent available s i = true)
    (hend : (s.rxqPtr i).end < 2 ^ 31) (hm : 1 ≤ m) :
    (efctRxqNeedRollover (s.rxqPtr i) && g.isSome) = true ∨
      (efctPollRx c i g o m s).2.1 ≠ [] ∨
      (efctPollRx c i g o m s).1.rxqPtr i ≠ s.rxqPtr i ∨
      (efctPollRx c i g o m s).1.q i ≠ s.q i := by
  simp only [efctRxqCheckEvent] at hc
  split_ifs at hc with ha hr
  · exact .inl (by simp [hr, hg, hc])
  · right
    have hpoll : efctPollRx c i g o m s = pollRxAfterRollover c i o noPublishes m s [] := by
      simp [efctPollRx, hr]
    rw [hpoll]
    by_cases hconf : efctRxqNeedConfig (s.q i) = true
    · refine .inr (.inr fun h => ?_)
      have hq : (pollRxAfterRollover c i o noPublishes m s []).1.q i =
          { s.q i with configGeneration := (s.q i).liveConfigGeneration } := by
        simp only [pollRxAfterRollover_quiet, hconf, if_true]
        cases o <;> simp [efctPollRxHeaders, pollRxLoop_q]
      simp only [efctRxqNeedConfig, bne_iff_ne] at hconf
      exact hconf (by rw [h] at hq; exact (congrArg EfctRxq.configGeneration hq).symm)
    · simp only [hconf, Bool.false_or, Option.isSome_iff_exists] at hc
      obtain ⟨header, hh⟩ := hc
      have hlt : rxqPtrToPktId (s.rxqPtr i).next < (s.rxqPtr i).end := by
        simpa [efctRxqNeedRollover] using hr
      obtain ⟨b, hb⟩ : ∃ b, pollRxBudget (s.rxqPtr i) m = b + 1 :=
        ⟨_, (Nat.succ_pred_eq_of_pos (pollRxBudget_pos hm hlt hend)).symm⟩
      simp only [pollRxAfterRollover_quiet, hconf, Bool.false_eq_true, if_false, efctPollRxHeaders, hb,
        pollRxLoop, hh]
      cases hs : pollRxStep c i s header with
      | stop s' frees =>
        obtain ⟨-, hroll⟩ := pollRxStep_stop hs
        have h0 : (s'.rxqPtr i).end = 0 := by simpa [hroll] using pollRxRolloverHeader_end i s
        refine .inr (.inl fun h => ?_)
        have he := congrArg RxqPtr.end h
        simp only [h0] at he
        omega
      | emit s' ev => exact .inl (by simp)

end Rxq

section Fold

variable {c : RxHeaderCodes} {grant : Nat → Option SbGrant} {refreshOk available : Nat → Bool}
  {evsLen : Int}

theorem eventqPollRxq_idle {acc : EventqRx} {i : Nat} (hg : (grant i).isSome = available i)
    (ha : efctRxqIsActive (acc.rx.q i) = true) (hc : efctRxqCheckEvent available acc.rx i = false) :
    eventqPollRxq c grant refreshOk evsLen acc i = acc := by
  obtain ⟨hp, hn⟩ := efctPollRx_idle (c := c) (o := refreshOk i)
    (m := evsLen - acc.evs.length) hg ha hc
  simp only [eventqPollRxq, hp, hn, List.append_nil, Bool.false_eq_true, if_false]

theorem foldl_eventqPollRxq_idle {acc : EventqRx} (hg : ∀ i, (grant i).isSome = available i) :
    ∀ {l : List Nat}, (∀ i ∈ l, efctRxqIsActive (acc.rx.q i) = true ∧
      efctRxqCheckEvent available acc.rx i = false) →
      l.foldl (eventqPollRxq c grant refreshOk evsLen) acc = acc
  | [], _ => rfl
  | i :: l, h => by
    have hi := h i (List.mem_cons_self _ _)
    rw [List.foldl_cons, eventqPollRxq_idle (hg i) hi.1 hi.2]
    exact foldl_eventqPollRxq_idle hg fun j hj => h j (List.mem_cons_of_mem _ hj)

/-- Queue `k` has shown that the poll acted: an event is out, a superbuf was taken, or `k`'s
pointer or configuration is no longer that of `s`. -/
def EventqRx.Acted (s : RxState) (k : Nat) (acc : EventqRx) : Prop :=
  acc.evs ≠ [] ∨ acc.nexts ≠ [] ∨ acc.rx.rxqPtr k ≠ s.rxqPtr k ∨ acc.rx.q k ≠ s.q k

/-- What queue `k`'s poll showed stays shown while the other queues are polled. -/
theorem EventqRx.Acted.poll {s : RxState} {k i : Nat} {acc : EventqRx} (h : acc.Acted s k)
    (hk : k ≠ i) : (eventqPollRxq c grant refreshOk evsLen acc i).Acted s k := by
  have ho := efctPollRx_other (c := c) (g := grant i) (o := refreshOk i)
    (m := evsLen - acc.evs.length) (s := acc.rx) hk
  simp only [EventqRx.Acted, eventqPollRxq, ho.1, ho.2, ne_eq, List.append_eq_nil] at h ⊢
  tauto

/-- Polled from the VI as it was, a queue the check reports on shows that the poll acted. -/
theorem eventqPollRxq_acts {s : RxState} {k : Nat} (hg : (grant k).isSome = available k)
    (hc : efctRxqCheckEvent available s k = true) (hend : (s.rxqPtr k).end < 2 ^ 31)
    (hn : 1 ≤ evsLen) :
    (eventqPollRxq c grant refreshOk evsLen ⟨s, [], [], []⟩ k).Acted s k := by
  have h := efctPollRx_acts (c := c) (o := refreshOk k) hg hc hend hn
  have h0 : evsLen - (([] : List EfEvent).length : Int) = evsLen := by simp
  simp only [EventqRx.Acted, eventqPollRxq, h0, List.nil_append]
  rcases h with h | h | h | h
  · exact .inr (.inl (by simp [h]))
  · exact .inl h
  · exact .inr (.inr (.inl h))
  · exact .inr (.inr (.inr h))

/-- Over distinct active queues, from the VI as it was: once a queue the check reports on is
reached the poll has acted, and no later queue undoes it. -/
theorem foldl_eventqPollRxq_acts {s : RxState} (hg : ∀ i, (grant i).isSome = available i)
    (hn : 1 ≤ evsLen) :
    ∀ {l : List Nat} {acc : EventqRx}, l.Nodup →
      (∀ i ∈ l, efctRxqIsActive (s.q i) = true ∧ (s.rxqPtr i).end < 2 ^ 31) →
      (acc = ⟨s, [], [], []⟩ ∧ (∃ k ∈ l, efctRxqCheckEvent available s k = true) ∨
        ∃ k, k ∉ l ∧ acc.Acted s k) →
      ∃ k, (l.foldl (eventqPollRxq c grant refreshOk evsLen) acc).Acted s k
  | [], _, _, _, h => by
    rcases h with ⟨-, k, hk, -⟩ | ⟨k, -, hk⟩
    · exact absurd hk (List.not_mem_nil k)
    · exact ⟨k, hk⟩
  | i :: l, acc, hl, hb, h => by
    have hil := List.nodup_cons.mp hl
    have hbi := hb i (List.mem_cons_self _ _)
    rw [List.foldl_cons]
    refine foldl_eventqPollRxq_acts hg hn hil.2 (fun j hj => hb j (List.mem_cons_of_mem i hj)) ?_
    rcases h with ⟨rfl, k, hk, hck⟩ | ⟨k, hk, hacc⟩
    · by_cases hci : efctRxqCheckEvent available s i = true
      · exact .inr ⟨i, hil.1, eventqPollRxq_acts (hg i) hci hbi.2 hn⟩
      · refine .inl ⟨eventqPollRxq_idle (hg i) hbi.1 (by simpa using hci), k, ?_, hck⟩
        rcases List.mem_cons.mp hk with rfl | hk
        · exact absurd hck hci
        · exact hk
    · exact .inr ⟨k, fun h => hk (List.mem_cons_of_mem i h),
        hacc.poll fun h => hk (h ▸ List.mem_cons_self _ _)⟩

end Fold

section Tx

variable {d : EfctEvDefs} {evsLen : Int}

/-- One round of efct_poll_tx's loop that finds an event: `evq_ptr` moves past it, and either a
TX completion ends the loop or the loop goes on from the state the handler leaves. -/
theorem pollTxLoop_succ_some {fuel n : Nat} {s : TxPollState} {event : EfctEvent}
    (hn : ¬evsLen ≤ n) (h : efctTxGetEvent s.evq s.evq.evqPtr = some event) :
    ∃ s' : TxPollState, s'.evq.evqPtr = (s.evq.evqPtr + 8) % 2 ^ 32 ∧
      ((pollTxLoop d evsLen (fuel + 1) n s).state = s' ∧
          (pollTxLoop d evsLen (fuel + 1) n s).consumed = [event] ∨
        ∃ k, (pollTxLoop d evsLen (fuel + 1) n s).state = (pollTxLoop d evsLen fuel k s').state ∧
          (pollTxLoop d evsLen (fuel + 1) n s).consumed =
            event :: (pollTxLoop d evsLen fuel k s').consumed) := by
  simp only [pollTxLoop, hn, if_false, h]
  split_ifs
  · exact ⟨_, by simp, .inl ⟨rfl, rfl⟩⟩
  · exact ⟨_, efctTxHandleControlEvent_frame.2.2, .inr ⟨_, rfl, rfl⟩⟩
  · exact ⟨_, rfl, .inr ⟨_, rfl, rfl⟩⟩

theorem ptr_add_nil {p : Nat} (hp : p < 2 ^ 32) :
    (p + 8 * ([] : List EfctEvent).length) % 2 ^ 32 = p := by
  simpa using Nat.mod_eq_of_lt hp

/-- efct_poll_tx's loop moves `evq_ptr` one entry for each event it takes, at most `fuel` of
them. -/
theorem pollTxLoop_ptr {fuel n : Nat} {s : TxPollState} (hp : s.evq.evqPtr < 2 ^ 32) :
    (pollTxLoop d evsLen fuel n s).state.evq.evqPtr =
        (s.evq.evqPtr + 8 * (pollTxLoop d evsLen fuel n s).consumed.length) % 2 ^ 32 ∧
      (pollTxLoop d evsLen fuel n s).consumed.length ≤ fuel := by
  induction fuel generalizing n s with
  | zero => exact ⟨(ptr_add_nil hp).symm, le_refl 0⟩
  | succ fuel ih =>
    by_cases hn : evsLen ≤ n
    · rw [pollTxLoop, if_pos hn]
      exact ⟨(ptr_add_nil hp).symm, Nat.zero_le _⟩
    cases h : efctTxGetEvent s.evq s.evq.evqPtr with
    | none =>
      rw [pollTxLoop, if_neg hn, h]
      exact ⟨(ptr_add_nil hp).symm, Nat.zero_le _⟩
    | some event =>
      obtain ⟨s', hs', ⟨hst, hc⟩ | ⟨k, hst, hc⟩⟩ := pollTxLoop_succ_some hn h
      · rw [hst, hc, hs']
        simp
      · obtain ⟨ih1, ih2⟩ := ih (n := k) (hs' ▸ Nat.mod_lt _ (Nat.two_pow_pos 32))
        rw [hst, hc, ih1, hs', Nat.mod_add_mod, List.length_cons]
        exact ⟨by congr 1; omega, by omega⟩

theorem efctPollTx_ptr {s : TxPollState} (hp : s.evq.evqPtr < 2 ^ 32) :
    (efctPollTx d s evsLen).state.evq.evqPtr =
        (s.evq.evqPtr + 8 * (efctPollTx d s evsLen).consumed.length) % 2 ^ 32 ∧
      (efctPollTx d s evsLen).consumed.length ≤ (s.evq.evqMask + 1) / 8 + 1 :=
  pollTxLoop_ptr hp

/-- A poll that finds nothing at `evq_ptr` leaves the TX side as it is. -/
theorem efctPollTx_of_none {s : TxPollState} (h : efctTxGetEvent s.evq s.evq.evqPtr = none) :
    efctPollTx d s evsLen = ⟨s, [], [], []⟩ := by
  rw [efctPollTx, pollTxLoop]
  split_ifs
  · rfl
  · rw [h]

/-- With room for an event and one waiting, efct_poll_tx moves `evq_ptr`: it takes at least one
entry and, within a ring under 2^31 bytes, less than a wrap of the 32-bit offset. -/
theorem efctPollTx_moves {s : TxPollState} {event : EfctEvent}
    (h : efctTxGetEvent s.evq s.evq.evqPtr = some event) (hn : 1 ≤ evsLen)
    (hmask : s.evq.evqMask < 2 ^ 31) (hp : s.evq.evqPtr < 2 ^ 32) :
    (efctPollTx d s evsLen).state.evq.evqPtr ≠ s.evq.evqPtr := by
  have hpos : 0 < (efctPollTx d s evsLen).consumed.length := by
    obtain ⟨_, -, ⟨-, hc⟩ | ⟨_, -, hc⟩⟩ :=
      @pollTxLoop_succ_some d evsLen ((s.evq.evqMask + 1) / 8) 0 s event (by simp; omega) h
    all_goals rw [efctPollTx, hc]; simp
  obtain ⟨h1, h2⟩ := @efctPollTx_ptr d evsLen s hp
  rw [h1]
  exact fun he => mod_ne_of_lt (M := 2 ^ 32) (by omega) (by omega)
    ((Nat.mod_eq_of_lt hp).trans he.symm)

end Tx

section Check

variable {c : RxHeaderCodes} {d : EfctEvDefs} {grant : Nat → Option SbGrant}
  {refreshOk available : Nat → Bool} {vi : ViState} {evsLen : Int}

/-- The receive side, the RX events and the `ops->next` record of a poll are those of its RX
half; efct_poll_tx only adds events after them. -/
theorem efctEfEventqPoll_rx :
    (efctEfEventqPoll c d grant refreshOk vi evsLen).vi.rx =
        (eventqPollRxLoop c grant refreshOk evsLen 64 vi.activeQs ⟨vi.rx, [], [], []⟩).rx ∧
      (eventqPollRxLoop c grant refreshOk evsLen 64 vi.activeQs ⟨vi.rx, [], [], []⟩).evs <+:
        (efctEfEventqPoll c d grant refreshOk vi evsLen).evs ∧
      (efctEfEventqPoll c d grant refreshOk vi evsLen).nexts =
        (eventqPollRxLoop c grant refreshOk evsLen 64 vi.activeQs ⟨vi.rx, [], [], []⟩).nexts := by
  simp only [efctEfEventqPoll]
  split_ifs <;> simp

section Rx

variable (hactive : ∀ i, vi.activeQs.testBit i ↔
    i < efViMaxEfctRxqs ∧ (vi.rx.q i).liveSuperbufPkts ≠ 0)
  (hg : ∀ i, (grant i).isSome = available i)
include hactive hg

/-- When the check passes over every queue, the RX half of the poll does nothing. -/
theorem eventqPollRxLoop_idle
    (hrxq : (∃ i < efViMaxEfctRxqs, (vi.rx.q i).liveSuperbufPkts ≠ 0) → vi.rxqMask ≠ 0)
    (hc : efctRxCheckEvent available vi = false) :
    eventqPollRxLoop c grant refreshOk evsLen 64 vi.activeQs ⟨vi.rx, [], [], []⟩ =
      ⟨vi.rx, [], [], []⟩ := by
  rw [eventqPollRxLoop_eq_foldl _ (length_setBits_le _)]
  refine foldl_eventqPollRxq_idle hg fun i hi => ?_
  obtain ⟨hi8, hact⟩ := (hactive i).mp (mem_setBits.mp hi).2
  refine ⟨by simpa [efctRxqIsActive] using hact, ?_⟩
  simp only [efctRxCheckEvent, Bool.and_eq_false_iff, bne_eq_false_iff_eq, List.any_eq_false,
    List.mem_range] at hc
  rcases hc with h0 | hany
  · exact absurd h0 (hrxq ⟨i, hi8, hact⟩)
  · simpa using hany i hi8

/-- When the check reports on some queue, the RX half of the poll acts, and some queue shows
it. -/
theorem eventqPollRxLoop_acts
    (hend : ∀ i < efViMaxEfctRxqs, (vi.rx.q i).liveSuperbufPkts ≠ 0 → (vi.rx.rxqPtr i).end < 2 ^ 31)
    (hn : 1 ≤ evsLen) (hc : efctRxCheckEvent available vi = true) :
    ∃ k, (eventqPollRxLoop c grant refreshOk evsLen 64 vi.activeQs ⟨vi.rx, [], [], []⟩).Acted
      vi.rx k := by
  rw [eventqPollRxLoop_eq_foldl _ (length_setBits_le _)]
  simp only [efctRxCheckEvent, Bool.and_eq_true, List.any_eq_true, List.mem_range] at hc
  obtain ⟨-, k, hk8, hk⟩ := hc
  have hka : (vi.rx.q k).liveSuperbufPkts ≠ 0 := fun h => by
    simp [efctRxqCheckEvent, efctRxqIsActive, h] at hk
  refine foldl_eventqPollRxq_acts hg hn ((List.nodup_range' 0 64).filter _) (fun i hi => ?_)
    (.inl ⟨rfl, k, mem_setBits.mpr ⟨by simp only [efViMaxEfctRxqs] at hk8; omega,
      (hactive k).mpr ⟨hk8, hka⟩⟩, hk⟩)
  obtain ⟨hi8, hact⟩ := (hactive i).mp (mem_setBits.mp hi).2
  exact ⟨by simpa [efctRxqIsActive] using hact, hend i hi8 hact⟩

end Rx

/-- efct_ef_eventq_check_event is false exactly when efct_ef_eventq_poll, given room for an event,
does nothing: the check misses no pending packet, rollover, configuration change or TX event,
and reports nothing the poll would not act on. -/
theorem eventq_check_matches_poll
    (hactive : ∀ i, vi.activeQs.testBit i ↔ i < efViMaxEfctRxqs ∧ (vi.rx.q i).liveSuperbufPkts ≠ 0)
    (hrxq : (∃ i < efViMaxEfctRxqs, (vi.rx.q i).liveSuperbufPkts ≠ 0) → vi.rxqMask ≠ 0)
    (htxq : vi.tx.evq.evqMask ≠ 0 ↔ vi.tx.vi.mask ≠ 0)
    (hg : ∀ i, (grant i).isSome = available i)
    (hend : ∀ i < efViMaxEfctRxqs, (vi.rx.q i).liveSuperbufPkts ≠ 0 → (vi.rx.rxqPtr i).end < 2 ^ 31)
    (hmask : vi.tx.evq.evqMask < 2 ^ 31) (hp : vi.tx.evq.evqPtr < 2 ^ 32) (hn : 1 ≤ evsLen) :
    efctEfEventqCheckEvent available vi = false ↔
      (efctEfEventqPoll c d grant refreshOk vi evsLen).Idle vi := by
  constructor
  · intro hc
    simp only [efctEfEventqCheckEvent, Bool.or_eq_false_iff] at hc
    simp only [efctEfEventqPoll, eventqPollRxLoop_idle hactive hg hrxq hc.2]
    split_ifs with htx
    · have hnone : efctTxGetEvent vi.tx.evq vi.tx.evq.evqPtr = none := by
        simpa [efctTxCheckEvent, htxq.mpr htx] using hc.1
      simp only [efctPollTx_of_none hnone]
      exact ⟨rfl, rfl, rfl, rfl, rfl⟩
    · exact ⟨rfl, rfl, rfl, rfl, rfl⟩
  · rintro ⟨hevs, hvi, -, hnexts, -⟩
    by_contra hc
    obtain ⟨hrx, hpre, hnx⟩ := @efctEfEventqPoll_rx c d grant refreshOk vi evsLen
    cases hcr : efctRxCheckEvent available vi
    · have htx : efctTxCheckEvent vi.tx.evq = true := by
        simpa [efctEfEventqCheckEvent, hcr] using hc
      simp only [efctTxCheckEvent, Bool.and_eq_true, bne_iff_ne, Option.isSome_iff_exists] at htx
      obtain ⟨hm0, event, hev⟩ := htx
      simp only [efctEfEventqPoll, eventqPollRxLoop_idle hactive hg hrxq hcr,
        if_pos (htxq.mp hm0)] at hvi
      exact efctPollTx_moves hev (by simpa using hn) hmask hp (congrArg (·.tx.evq.evqPtr) hvi)
    · obtain ⟨k, hk⟩ : ∃ k, (eventqPollRxLoop c grant refreshOk evsLen 64 vi.activeQs
          ⟨vi.rx, [], [], []⟩).Acted vi.rx k := eventqPollRxLoop_acts hactive hg hend hn hcr
      rw [hevs, List.prefix_nil] at hpre
      rw [hvi] at hrx
      rw [hnexts] at hnx
      simp only [EventqRx.Acted, hpre, ← hrx, ← hnx] at hk
      simp at hk

end Check

/-- Queue 0 active with one packet, whose header at pkt_id 0 is written with NEXT_FRAME_LOC 1,
with its `end` at `e`; no TX queue. -/
def oneRxqVi (e : Nat) : ViState where
  rx :=
    { rxqPtr := fun _ => ⟨0, 0, e⟩
      q := fun i => ⟨0, 0, if i = 0 then 1 else 0, 0, ⟨false, false⟩⟩
      descriptors := fun _ => ⟨0, 0, 0, 0, 0⟩
      sbDescFreeHead := fun _ => 0
      superbuf := fun _ => ⟨0, 1, 0, 0, 0, 0, 0, 0, false, false, 0, 0, 0, 0, by decide, by decide⟩
      rxDiscardMask := ⟨false, false, false, false, false, false, false⟩ }
  tx := ⟨⟨0, 0, 0, 0, fun _ => 0, fun _ => 0, 0, 0, 0, 0, 0, false⟩,
    ⟨0, fun _ => ⟨0, 0, 0, 0, 0, 0, 0, 0, 0, 0, 0, 0⟩, 0, 0, 0, 0, 0, 0, 0⟩⟩
  activeQs := 1
  rxqMask := 1

theorem oneRxqVi_active (e i : Nat) : (oneRxqVi e).activeQs.testBit i ↔
    i < efViMaxEfctRxqs ∧ ((oneRxqVi e).rx.q i).liveSuperbufPkts ≠ 0 := by
  rw [show (oneRxqVi e).activeQs = 2 ^ 0 from rfl, Nat.testBit_two_pow]
  rcases i with _ | i <;> simp [oneRxqVi, efViMaxEfctRxqs]

theorem eventq_check_matches_poll_written_header :
    ¬(efctEfEventqPoll ⟨0, 0, 0, 0, 0, 0, 0, 0, 0⟩ ⟨0, 0, 0, 0, 0, 0, 0, 0, 0, 0, 0, 0⟩
      (fun _ => none) (fun _ => true) (oneRxqVi 1) 1).Idle (oneRxqVi 1) :=
  fun h => absurd ((@eventq_check_matches_poll ⟨0, 0, 0, 0, 0, 0, 0, 0, 0⟩
    ⟨0, 0, 0, 0, 0, 0, 0, 0, 0, 0, 0, 0⟩ (fun _ => none) (fun _ => true) (fun _ => false)
    (oneRxqVi 1) 1 (oneRxqVi_active 1) (fun _ => by decide) Iff.rfl (fun _ => rfl)
    (fun _ _ _ => show 1 < 2 ^ 31 by decide) (by decide) (by decide) (by decide)).mpr h) (by decide)

/-- A queue whose `end` lies 2^31 packets or more past `next`: the check reports its written
header, but the poll's int budget comes out negative and it reads nothing. The header and event
codes are never read; here they are all 0. -/
theorem eventq_poll_skips_far_end :
    (∀ i, (oneRxqVi (2 ^ 31 + 1)).activeQs.testBit i ↔
        i < efViMaxEfctRxqs ∧ ((oneRxqVi (2 ^ 31 + 1)).rx.q i).liveSuperbufPkts ≠ 0) ∧
      (oneRxqVi (2 ^ 31 + 1)).rxqMask ≠ 0 ∧
      ((oneRxqVi (2 ^ 31 + 1)).tx.evq.evqMask ≠ 0 ↔ (oneRxqVi (2 ^ 31 + 1)).tx.vi.mask ≠ 0) ∧
      efctEfEventqCheckEvent (fun _ => false) (oneRxqVi (2 ^ 31 + 1)) = true ∧
      (efctEfEventqPoll ⟨0, 0, 0, 0, 0, 0, 0, 0, 0⟩ ⟨0, 0, 0, 0, 0, 0, 0, 0, 0, 0, 0, 0⟩
        (fun _ => none) (fun _ => true) (oneRxqVi (2 ^ 31 + 1)) 1).Idle
        (oneRxqVi (2 ^ 31 + 1)) :=
  ⟨oneRxqVi_active _, by decide, Iff.rfl, by decide, rfl, rfl, rfl, rfl, rfl⟩

end EfctVi
