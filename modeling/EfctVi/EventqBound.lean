import EfctVi.EventqPoll

namespace EfctVi

/-- The TX completions, of which efct_poll_tx reports at most one per call. -/
def EfEvent.isTx : EfEvent → Bool
  | .tx .. | .txWithTimestamp .. => true
  | _ => false

/-- A TX completion in `evs` can only be its last event. -/
def TxOnlyLast : List EfEvent → Prop
  | [] => True
  | ev :: evs => (ev.isTx = true → evs = []) ∧ TxOnlyLast evs

theorem TxOnlyLast.append {a b : List EfEvent} (ha : ∀ ev ∈ a, ev.isTx = false)
    (hb : TxOnlyLast b) : TxOnlyLast (a ++ b) := by
  induction a with
  | nil => exact hb
  | cons ev a ih =>
    refine ⟨fun h => by simp [ha ev (List.mem_cons_self _ _)] at h, ih fun e he => ?_⟩
    exact ha e (List.mem_cons_of_mem _ he)

theorem TxOnlyLast.of_forall {a : List EfEvent} (ha : ∀ ev ∈ a, ev.isTx = false) :
    TxOnlyLast a := by
  simpa using TxOnlyLast.append ha (b := []) trivial

theorem TxOnlyLast.getElem {evs : List EfEvent} (h : TxOnlyLast evs) :
    ∀ k (hk : k < evs.length), evs[k].isTx = true → k + 1 = evs.length := by
  induction evs with
  | nil => intro k hk; simp at hk
  | cons ev evs ih =>
    rintro (_ | k) hk hx
    · simp [h.1 hx]
    · simpa using ih h.2 k (by simpa using hk) hx

section Rx

variable {c : RxHeaderCodes} {i : Nat}

/-- At most `budget` events, none of them a TX completion: what efct_poll_rx writes, and what
a control event adds in efct_poll_tx. -/
def NoTxWithin (budget : Nat) (evs : List EfEvent) : Prop :=
  evs.length ≤ budget ∧ ∀ ev ∈ evs, ev.isTx = false

theorem pollRxStep_emit_isTx {s s' : RxState} {header : RxHeader} {ev : EfEvent}
    (h : pollRxStep c i s header = .emit s' ev) : ev.isTx = false := by
  unfold pollRxStep at h
  split at h <;> cases h <;> rfl

theorem pollRxLoop_out : ∀ {n : Nat} {s : RxState}, NoTxWithin n (pollRxLoop c i n s).2.1
  | 0, _ => by simp [NoTxWithin, pollRxLoop]
  | n + 1, s => by
    simp only [pollRxLoop]
    split
    · simp [NoTxWithin]
    · split
      · simp [NoTxWithin]
      · rename_i s' _ h
        have ih := pollRxLoop_out (n := n) (s := s')
        exact ⟨by simpa using ih.1, by simpa [pollRxStep_emit_isTx h] using ih.2⟩

theorem NoTxWithin.mono {m n : Nat} {evs : List EfEvent} (h : NoTxWithin m evs) (hmn : m ≤ n) :
    NoTxWithin n evs :=
  ⟨h.1.trans hmn, h.2⟩

/-- efct_poll_rx stays within `evs_len`, whatever the signed difference its clamp reads. -/
theorem efctPollRx_out {g : Option SbGrant} {o : Bool} {m : Int} {s : RxState} :
    NoTxWithin m.toNat (efctPollRx c i g o m s).2.1 := by
  have hh : ∀ s frees, NoTxWithin m.toNat (efctPollRxHeaders c i m s frees).2.1 := fun s _ =>
    pollRxLoop_out.mono (Int.toNat_le_toNat (min_le_left _ _))
  unfold efctPollRx
  split
  · simp [NoTxWithin]
  · simp only [pollRxAfterRollover_quiet]
    split_ifs
    · exact hh _ _
    · simp [NoTxWithin]
    · exact hh _ _

variable {grant : Nat → Option SbGrant} {refreshOk : Nat → Bool} {evsLen : Int}

theorem foldl_eventqPollRxq_out :
    ∀ (qs : List Nat) {acc : EventqRx}, NoTxWithin evsLen.toNat acc.evs →
      NoTxWithin evsLen.toNat (qs.foldl (eventqPollRxq c grant refreshOk evsLen) acc).evs
  | [], _, h => h
  | q :: qs, acc, h => by
    refine foldl_eventqPollRxq_out qs ?_
    have hq := efctPollRx_out (c := c) (i := q) (g := grant q) (o := refreshOk q)
      (m := evsLen - acc.evs.length) (s := acc.rx)
    refine ⟨?_, fun ev hev => ?_⟩
    · simp only [eventqPollRxq, List.length_append]
      have := h.1
      have := hq.1
      omega
    · rcases List.mem_append.mp hev with hev | hev
      exacts [h.2 ev hev, hq.2 ev hev]

end Rx

section Tx

variable {d : EfctEvDefs} {evsLen : Int}

theorem efctTxHandleControlEvent_out {s : TxPollState} {event : EfctEvent} :
    NoTxWithin 1 (efctTxHandleControlEvent d s event).2.1 := by
  unfold efctTxHandleControlEvent
  split_ifs <;> simp [NoTxWithin, efctTxHandleErrorEvent, EfEvent.isTx]

/-- A round of efct_poll_tx's loop that outputs at most one event, not a TX completion, and
hands on to the rest of the loop. -/
theorem out_append_rest {n : Nat} {out rest : List EfEvent} (hn : ¬evsLen ≤ n) (hout : NoTxWithin 1 out)
    (ih : ((n + out.length + rest.length : Nat) : Int) ≤ max ((n + out.length : Nat) : Int) evsLen ∧
      TxOnlyLast rest) :
    ((n + (out ++ rest).length : Nat) : Int) ≤ max (n : Int) evsLen ∧ TxOnlyLast (out ++ rest) := by
  refine ⟨?_, TxOnlyLast.append hout.2 ih.2⟩
  have := hout.1
  have := ih.1
  simp only [List.length_append]
  omega

/-- efct_poll_tx's loop, after `n` events: it stops at `evs_len`, outputs nothing but error
events before a TX completion, and stops at the first TX completion. -/
theorem pollTxLoop_out : ∀ {fuel n : Nat} {s : TxPollState},
    ((n + (pollTxLoop d evsLen fuel n s).evs.length : Nat) : Int) ≤ max (n : Int) evsLen ∧
      TxOnlyLast (pollTxLoop d evsLen fuel n s).evs
  | 0, _, _ => by simp [pollTxLoop, TxOnlyLast]
  | fuel + 1, n, s => by
    simp only [pollTxLoop]
    split_ifs with hn
    · simp [TxOnlyLast]
    split
    · simp [TxOnlyLast]
    split_ifs with ht
    · simp only [List.length_singleton, TxOnlyLast, implies_true, and_true]
      omega
    · exact out_append_rest hn efctTxHandleControlEvent_out pollTxLoop_out
    · exact out_append_rest hn ⟨by simp, by simp⟩ pollTxLoop_out

end Tx

/-- For every VI state, active-queue word and `evs_len ≥ 0`, efct_ef_eventq_poll returns at
most `evs_len` events, and a TX or TX_WITH_TIMESTAMP completion among them can only be the last,
`evs[n - 1]`. -/
theorem efctEfEventqPoll_evs_within (c : RxHeaderCodes) (d : EfctEvDefs)
    (grant : Nat → Option SbGrant) (refreshOk : Nat → Bool) (vi : ViState) {evsLen : Int}
    (hn : 0 ≤ evsLen) :
    let evs := (efctEfEventqPoll c d grant refreshOk vi evsLen).evs
    (evs.length : Int) ≤ evsLen ∧
      ∀ k (hk : k < evs.length), evs[k].isTx = true → k + 1 = evs.length := by
  have hrx := @foldl_eventqPollRxq_out c grant refreshOk evsLen (setBits vi.activeQs 0 64)
    ⟨vi.rx, [], [], []⟩ ⟨by simp, by simp⟩
  rw [← eventqPollRxLoop_eq_foldl _ (length_setBits_le _)] at hrx
  have hlen := hrx.1
  simp only [efctEfEventqPoll]
  split_ifs
  · obtain ⟨htx, hlast⟩ := @pollTxLoop_out d
      (evsLen - (eventqPollRxLoop c grant refreshOk evsLen 64 vi.activeQs
        ⟨vi.rx, [], [], []⟩).evs.length) ((vi.tx.evq.evqMask + 1) / 8 + 1) 0 vi.tx
    refine ⟨?_, (TxOnlyLast.append hrx.2 hlast).getElem⟩
    simp only [efctPollTx, List.length_append, Nat.cast_add]
    omega
  · exact ⟨by dsimp only; omega, (TxOnlyLast.of_forall hrx.2).getElem⟩

/-- The bound on a VI whose queue 0 has one written header, with room for one event. -/
theorem efctEfEventqPoll_evs_within_one_queue :
    0 ≤ (1 : Int) ∧
      let evs := (efctEfEventqPoll ⟨0, 0, 0, 0, 0, 0, 0, 0, 0⟩
        ⟨0, 0, 0, 0, 0, 0, 0, 0, 0, 0, 0, 0⟩ (fun _ => none) (fun _ => true) (oneRxqVi 1) 1).evs
      (evs.length : Int) ≤ 1 ∧
        ∀ k (hk : k < evs.length), evs[k].isTx = true → k + 1 = evs.length :=
  ⟨by decide, efctEfEventqPoll_evs_within ⟨0, 0, 0, 0, 0, 0, 0, 0, 0⟩
    ⟨0, 0, 0, 0, 0, 0, 0, 0, 0, 0, 0, 0⟩ (fun _ => none) (fun _ => true) (oneRxqVi 1) (by decide)⟩

end EfctVi
