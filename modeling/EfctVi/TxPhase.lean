import EfctVi.TxEvents
import Mathlib.Data.Nat.Bitwise

namespace EfctVi

section Frame

variable {d : EfctEvDefs} {s : TxPollState} {event : EfctEvent}

@[simp] theorem efctTxHandleEvent_evq : (efctTxHandleEvent d s event).1.evq = s.evq := by
  unfold efctTxHandleEvent
  split <;> rfl

/-- The control events leave the ring, its mask and evq_ptr alone. -/
theorem efctTxHandleControlEvent_frame :
    (efctTxHandleControlEvent d s event).1.evq.ring = s.evq.ring ∧
      (efctTxHandleControlEvent d s event).1.evq.evqMask = s.evq.evqMask ∧
      (efctTxHandleControlEvent d s event).1.evq.evqPtr = s.evq.evqPtr := by
  unfold efctTxHandleControlEvent
  split_ifs <;> exact ⟨rfl, rfl, rfl⟩

end Frame

section Ring

/-- Through a mask of `2 ^ b - 1`, a 32-bit offset selects its byte in a ring of `2 ^ b`. -/
theorem ptr_slot {b : Nat} (hb : b ≤ 32) (x : Nat) : x % 2 ^ 32 &&& 2 ^ b - 1 = x % 2 ^ b := by
  rw [Nat.and_pow_two_sub_one_eq_mod, Nat.mod_mod_of_dvd _ (Nat.pow_dvd_pow 2 hb)]

/-- The phase efct_tx_get_event expects at a 32-bit offset is the parity of its lap. -/
theorem ptr_phase {b : Nat} (hb : b < 32) (x : Nat) :
    (if x % 2 ^ 32 &&& 2 ^ b ≠ 0 then 1 else 0) = x / 2 ^ b % 2 := by
  have hsplit : 2 ^ 32 = 2 ^ b * 2 ^ (32 - b) := by rw [← Nat.pow_add]; congr 1; omega
  have hlap : x % 2 ^ 32 / 2 ^ b % 2 = x / 2 ^ b % 2 := by
    rw [hsplit, Nat.mod_mul_right_div_self, Nat.mod_mod_of_dvd]
    simpa using Nat.pow_dvd_pow 2 (show 1 ≤ 32 - b by omega)
  rw [Nat.land_comm, Nat.two_pow_and, ← hlap]
  cases h : (x % 2 ^ 32).testBit b <;> rw [Nat.testBit_to_div_mod] at h <;> simp at h <;>
    simp [h, Nat.pos_pow_of_pos]

variable {b : Nat} {evq : EvqState}

theorem efctTxGetEvent_eq (hS : evq.evqMask + 1 = 2 ^ b) (hb : b < 32) (x : Nat) :
    efctTxGetEvent evq (x % 2 ^ 32) =
      if (evq.ring (x % 2 ^ b)).phase = x / 2 ^ b % 2 then some (evq.ring (x % 2 ^ b))
      else none := by
  have hm : evq.evqMask = 2 ^ b - 1 := by omega
  simp only [efctTxGetEvent, hm, ptr_slot hb.le, Nat.sub_add_cancel (Nat.one_le_two_pow),
    ptr_phase hb]

/-- Two numbers less than `M` apart have different residues. -/
theorem mod_ne_of_lt {M a b : Nat} (hab : a < b) (hgap : b - a < M) : a % M ≠ b % M := by
  intro h
  have := Nat.le_of_dvd (by omega) (Nat.dvd_of_mod_eq_zero (Nat.sub_mod_eq_zero_of_mod_eq h.symm))
  omega

/-- Two of the last `S / 8` events go to different slots. -/
theorem slot_ne {S i j : Nat} (hlt : i < j) (hgap : 8 * (j - i) < S) : 8 * i % S ≠ 8 * j % S :=
  mod_ne_of_lt (by omega) (by omega)

end Ring

section Nic

variable (S : Nat) (feed : Nat → EfctEvent) (init : Nat → EfctEvent)

/-- The NIC's `k`-th TX event as it lands in a ring of `S` bytes: the payload `feed k` with the
phase bit of its lap, `8 * k / S mod 2`. -/
def nicEvent (k : Nat) : EfctEvent :=
  { feed k with phase := 8 * k / S % 2 }

/-- The ring after the NIC's first `w` writes over the contents `init`, the `k`-th at byte
offset `8 * k mod S`. -/
def nicRing : Nat → Nat → EfctEvent
  | 0 => init
  | w + 1 => Function.update (nicRing w) (8 * w % S) (nicEvent S feed w)

variable {S feed init}

/-- A slot that no write in `[j, w)` hits holds what it held after `j` writes. -/
theorem nicRing_stable {j w x : Nat} (hjw : j ≤ w) (h : ∀ i, j ≤ i → i < w → 8 * i % S ≠ x) :
    nicRing S feed init w x = nicRing S feed init j x := by
  induction w, hjw using Nat.le_induction with
  | base => rfl
  | succ w hjw ih =>
    rw [nicRing, Function.update_noteq (h w hjw (by omega)).symm, ih fun i hi hiw => h i hi (by omega)]

/-- Of the last `S / 8` events written, each is still in its slot. -/
theorem nicRing_latest {w k : Nat} (hk : k < w) (hgap : 8 * (w - k) ≤ S) :
    nicRing S feed init w (8 * k % S) = nicEvent S feed k := by
  rw [nicRing_stable (j := k + 1) hk fun i hi hiw => (slot_ne (by omega) (by omega)).symm, nicRing,
    Function.update_same]

/-- The slot after the last event written carries the phase of the lap before. -/
theorem nicRing_next_phase (hinit : ∀ x, (init x).phase = 1) (hS : 0 < S) (h8 : S % 8 = 0)
    (w : Nat) : (nicRing S feed init w (8 * w % S)).phase ≠ 8 * w / S % 2 := by
  by_cases hw : 8 * w < S
  · rw [nicRing_stable (j := 0) (Nat.zero_le w) fun i _ hiw => ?_]
    · rw [nicRing, hinit, Nat.div_eq_of_lt hw]
      decide
    · rw [Nat.mod_eq_of_lt (by omega), Nat.mod_eq_of_lt hw]
      omega
  · obtain ⟨j, rfl⟩ : ∃ j, w = j + S / 8 := ⟨w - S / 8, by omega⟩
    have hslot : 8 * (j + S / 8) % S = 8 * j % S := by
      rw [show 8 * (j + S / 8) = 8 * j + S by omega, Nat.add_mod_right]
    have hlap : 8 * (j + S / 8) / S = 8 * j / S + 1 := by
      rw [show 8 * (j + S / 8) = 8 * j + S by omega, Nat.add_div_right _ hS]
    rw [hslot, hlap, nicRing_latest (by omega) (by omega)]
    dsimp only [nicEvent]
    omega

end Nic

section Consumer

variable {b : Nat} {feed init : Nat → EfctEvent} {w c : Nat}

theorem ring_size_mod_eight (hb3 : 3 ≤ b) : 2 ^ b % 8 = 0 :=
  Nat.mod_eq_zero_of_dvd (Nat.pow_dvd_pow 2 hb3)

/-- efct_tx_get_event at the consumer's `c`-th entry, with the ring as the NIC left it after
`w` writes and no more than a lap ahead: the NIC's `c`-th event once it is written, and
nothing before. -/
theorem efctTxGetEvent_nic {evq : EvqState} (hS : evq.evqMask + 1 = 2 ^ b) (hb3 : 3 ≤ b)
    (hb : b < 32) (hring : evq.ring = nicRing (2 ^ b) feed init w)
    (hinit : ∀ x, (init x).phase = 1) (hcw : c ≤ w) (hgap : 8 * (w - c) ≤ 2 ^ b) :
    efctTxGetEvent evq (8 * c % 2 ^ 32) = if c < w then some (nicEvent (2 ^ b) feed c) else none := by
  rw [efctTxGetEvent_eq hS hb, hring]
  by_cases hc : c < w
  · rw [nicRing_latest hc hgap, if_pos hc]
    exact if_pos rfl
  · obtain rfl : c = w := by omega
    rw [if_neg (nicRing_next_phase hinit (Nat.two_pow_pos b) (ring_size_mod_eight hb3) c), if_neg hc]

/-- What one poll of the TX event ring did from the consumer's index `c`: it took the NIC's next
events in order, moved evq_ptr past them, and stopped where efct_poll_tx stops. -/
structure PollTakes (d : EfctEvDefs) (b : Nat) (feed : Nat → EfctEvent) (w c n : Nat)
    (evsLen : Int) (s : TxPollState) (r : PollTxResult) : Prop where
  consumed : r.consumed = (List.range r.consumed.length).map fun i => nicEvent (2 ^ b) feed (c + i)
  le : c + r.consumed.length ≤ w
  ptr : r.state.evq.evqPtr = 8 * (c + r.consumed.length) % 2 ^ 32
  ring : r.state.evq.ring = s.evq.ring
  mask : r.state.evq.evqMask = s.evq.evqMask
  stop : c + r.consumed.length = w ∨ evsLen ≤ n + r.evs.length ∨
    ∃ e, r.consumed.getLast? = some e ∧ e.type = d.eventTypeTx
  tx_last : ∀ e ∈ r.consumed.dropLast, e.type ≠ d.eventTypeTx

variable {d : EfctEvDefs} {evsLen : Int}

/-- A poll that takes nothing, because the next entry is unwritten or no room is left. -/
theorem PollTakes.stay {n : Nat} {s : TxPollState} (hptr : s.evq.evqPtr = 8 * c % 2 ^ 32)
    (hcw : c ≤ w) (h : c = w ∨ evsLen ≤ n) : PollTakes d b feed w c n evsLen s ⟨s, [], [], []⟩ where
  consumed := rfl
  le := hcw
  ptr := hptr
  ring := rfl
  mask := rfl
  stop := by rcases h with h | h <;> simp [h]
  tx_last := by simp

/-- A TX event ends a poll. -/
theorem PollTakes.tx {n : Nat} {s s' : TxPollState} {ev : EfEvent} (hc : c < w)
    (hptr : s'.evq.evqPtr = 8 * (c + 1) % 2 ^ 32) (hring : s'.evq.ring = s.evq.ring)
    (hmask : s'.evq.evqMask = s.evq.evqMask) (htx : (nicEvent (2 ^ b) feed c).type = d.eventTypeTx) :
    PollTakes d b feed w c n evsLen s ⟨s', [ev], [nicEvent (2 ^ b) feed c], []⟩ where
  consumed := rfl
  le := by simpa using hc
  ptr := hptr
  ring := hring
  mask := hmask
  stop := .inr (.inr ⟨_, rfl, htx⟩)
  tx_last := by simp

/-- Any other event is followed by the rest of the poll. -/
theorem PollTakes.cons {n : Nat} {s s' : TxPollState} {evs : List EfEvent}
    {grants : List (Bool × Nat)} {rest : PollTxResult}
    (h : PollTakes d b feed w (c + 1) (n + evs.length) evsLen s' rest) (hring : s'.evq.ring = s.evq.ring)
    (hmask : s'.evq.evqMask = s.evq.evqMask)
    (htx : (nicEvent (2 ^ b) feed c).type ≠ d.eventTypeTx) :
    PollTakes d b feed w c n evsLen s
      ⟨rest.state, evs ++ rest.evs, nicEvent (2 ^ b) feed c :: rest.consumed, grants ++ rest.grants⟩ where
  consumed := by
    dsimp only
    conv_lhs => rw [h.consumed]
    rw [List.length_cons, List.range_succ_eq_map, List.map_cons, List.map_map, Nat.add_zero]
    congr 1
    refine List.map_congr_left fun i _ => ?_
    simp only [Function.comp_apply, Nat.succ_eq_add_one]
    congr 1
    omega
  le := by have := h.le; simp only [List.length_cons]; omega
  ptr := by rw [h.ptr]; simp only [List.length_cons]; congr 2; omega
  ring := h.ring.trans hring
  mask := h.mask.trans hmask
  stop := by
    rcases h.stop with h1 | h1 | ⟨e, he, het⟩
    · left; simp only [List.length_cons]; omega
    · right; left; simp only [List.length_append]; omega
    · right; right
      refine ⟨e, ?_, het⟩
      cases hr : rest.consumed with
      | nil => simp [hr] at he
      | cons x xs => rw [hr] at he; rw [List.getLast?_cons_cons, he]
  tx_last := by
    intro e he
    cases hr : rest.consumed with
    | nil => simp [hr] at he
    | cons x xs =>
      rw [hr, List.dropLast_cons_of_ne_nil (List.cons_ne_nil x xs), List.mem_cons] at he
      rcases he with rfl | he
      · exact htx
      · exact h.tx_last e (hr ▸ he)

/-- Every run of efct_poll_tx's loop over the ring the NIC has written, less than a lap ahead of
the consumer, is a `PollTakes`; in particular it never stops for want of `fuel`. -/
theorem pollTxLoop_takes (hb3 : 3 ≤ b) (hb : b < 32) (hinit : ∀ x, (init x).phase = 1)
    (fuel n : Nat) (s : TxPollState) (hS : s.evq.evqMask + 1 = 2 ^ b)
    (hring : s.evq.ring = nicRing (2 ^ b) feed init w) (hptr : s.evq.evqPtr = 8 * c % 2 ^ 32)
    (hcw : c ≤ w) (hroom : 8 * (w - c) < 2 ^ b) (hfuel : w - c < fuel) :
    PollTakes d b feed w c n evsLen s (pollTxLoop d evsLen fuel n s) := by
  induction fuel generalizing n s c with
  | zero => omega
  | succ fuel ih =>
    rw [pollTxLoop]
    by_cases hn : evsLen ≤ n
    · rw [if_pos hn]
      exact .stay hptr hcw (.inr hn)
    rw [if_neg hn, hptr, efctTxGetEvent_nic hS hb3 hb hring hinit hcw (by omega)]
    by_cases hc : c < w
    · have hptr1 : (8 * c % 2 ^ 32 + 8) % 2 ^ 32 = 8 * (c + 1) % 2 ^ 32 := by omega
      rw [if_pos hc]
      dsimp only
      split_ifs with htx hctl
      · exact .tx hc (by rw [efctTxHandleEvent_evq]; exact hptr1) (by rw [efctTxHandleEvent_evq])
          (by rw [efctTxHandleEvent_evq]) htx
      · obtain ⟨hr, hm, hp⟩ := @efctTxHandleControlEvent_frame d
          { s with evq := { s.evq with evqPtr := (8 * c % 2 ^ 32 + 8) % 2 ^ 32 } }
          (nicEvent (2 ^ b) feed c)
        exact .cons (ih _ _ (by rw [hm]; exact hS) (by rw [hr]; exact hring)
          (by rw [hp]; exact hptr1) (by omega) (by omega) (by omega)) hr hm htx
      · exact .cons (ih _ _ hS hring hptr1 (by omega) (by omega) (by omega)) rfl rfl htx
    · rw [if_neg hc]
      exact .stay hptr hcw (.inl (by omega))

end Consumer

section Run

/-- The TX event ring shared by the NIC and the driver: the driver's state, how many events the
NIC has written, and (a ghost record) every event the driver has taken, in order. -/
structure EvqSys where
  poll : TxPollState
  written : Nat
  consumed : List EfctEvent

/-- The NIC writes its next event at its slot, with the phase of its lap. -/
def nicWrite (feed : Nat → EfctEvent) (sys : EvqSys) : EvqSys :=
  let evq := sys.poll.evq
  let S := evq.evqMask + 1
  { sys with
    poll := { sys.poll with
      evq := { evq with
        ring := Function.update evq.ring (8 * sys.written % S) (nicEvent S feed sys.written) } }
    written := sys.written + 1 }

/-- The driver calls efct_poll_tx. -/
def driverPoll (d : EfctEvDefs) (evsLen : Int) (sys : EvqSys) : EvqSys :=
  let r := efctPollTx d sys.poll evsLen
  { poll := r.state, written := sys.written, consumed := sys.consumed ++ r.consumed }

/-- One move of the NIC or of the driver. The NIC writes only while fewer than a lap of events,
`(evq_mask + 1) / 8`, would be waiting. -/
inductive EvqStep (d : EfctEvDefs) (feed : Nat → EfctEvent) : EvqSys → EvqSys → Prop
  | write (sys : EvqSys)
      (room : sys.written + 1 - sys.consumed.length < (sys.poll.evq.evqMask + 1) / 8) :
      EvqStep d feed sys (nicWrite feed sys)
  | poll (sys : EvqSys) (evsLen : Int) : EvqStep d feed sys (driverPoll d evsLen sys)

inductive EvqReach (d : EfctEvDefs) (feed : Nat → EfctEvent) (sys0 : EvqSys) : EvqSys → Prop
  | start : EvqReach d feed sys0 sys0
  | step {sys sys' : EvqSys} : EvqReach d feed sys0 sys → EvqStep d feed sys sys' →
      EvqReach d feed sys0 sys'

/-- What holds of the shared ring at every point of a run from a fresh ring `ring0`: the ring is
what the NIC's writes made of it, evq_ptr points at the consumer's next entry, and the driver has
taken exactly the NIC's first events, in order. -/
structure EvqInv (b : Nat) (feed ring0 : Nat → EfctEvent) (sys : EvqSys) : Prop where
  mask : sys.poll.evq.evqMask + 1 = 2 ^ b
  ring : sys.poll.evq.ring = nicRing (2 ^ b) feed ring0 sys.written
  ptr : sys.poll.evq.evqPtr = 8 * sys.consumed.length % 2 ^ 32
  consumed : sys.consumed = (List.range sys.consumed.length).map (nicEvent (2 ^ b) feed)
  le : sys.consumed.length ≤ sys.written
  room : sys.written - sys.consumed.length < 2 ^ b / 8

variable {d : EfctEvDefs} {feed ring0 : Nat → EfctEvent} {b : Nat} {sys : EvqSys}

theorem EvqInv.takes (h : EvqInv b feed ring0 sys) (hb3 : 3 ≤ b) (hb : b < 32)
    (hinit : ∀ x, (ring0 x).phase = 1) (evsLen : Int) :
    PollTakes d b feed sys.written sys.consumed.length 0 evsLen sys.poll
      (efctPollTx d sys.poll evsLen) := by
  have := ring_size_mod_eight hb3
  have := h.room
  exact pollTxLoop_takes hb3 hb hinit _ 0 sys.poll h.mask h.ring h.ptr h.le (by omega)
    (by rw [h.mask]; omega)

theorem EvqInv.step (h : EvqInv b feed ring0 sys) (hb3 : 3 ≤ b) (hb : b < 32)
    (hinit : ∀ x, (ring0 x).phase = 1) {sys' : EvqSys} (hs : EvqStep d feed sys sys') :
    EvqInv b feed ring0 sys' := by
  cases hs with
  | write room =>
    rw [h.mask] at room
    exact { h with
      ring := by simp only [nicWrite, h.ring, h.mask]; rfl
      le := by have := h.le; simp only [nicWrite]; omega
      room := by simp only [nicWrite]; omega }
  | poll evsLen =>
    have ht := h.takes (d := d) hb3 hb hinit evsLen
    refine ⟨by simp only [driverPoll, ht.mask, h.mask], ht.ring.trans h.ring, ?_, ?_, ?_, ?_⟩
    · simpa [driverPoll] using ht.ptr
    · simp only [driverPoll, List.length_append]
      rw [List.range_add, List.map_append, List.map_map, ← h.consumed]
      exact congrArg _ ht.consumed
    · simpa [driverPoll] using ht.le
    · have := ht.le
      simp only [driverPoll, List.length_append]
      have := h.room
      omega

theorem EvqInv.reach {sys0 : EvqSys} (hb3 : 3 ≤ b) (hb : b < 32)
    (hmask : sys0.poll.evq.evqMask + 1 = 2 ^ b) (hinit : ∀ x, (sys0.poll.evq.ring x).phase = 1)
    (hptr : sys0.poll.evq.evqPtr = 0) (hw : sys0.written = 0) (hc : sys0.consumed = [])
    (reach : EvqReach d feed sys0 sys) : EvqInv b feed sys0.poll.evq.ring sys := by
  induction reach with
  | start =>
    have := ring_size_mod_eight hb3
    have : 8 ≤ 2 ^ b := Nat.pow_le_pow_right (by decide) hb3 |>.trans_eq' rfl
    exact ⟨hmask, by rw [hw]; rfl, by rw [hptr, hc]; rfl, by rw [hc]; rfl, by simp [hc, hw],
      by simp only [hc, hw, List.length_nil]; omega⟩
  | step _ hs ih => exact ih.step hb3 hb hinit hs

end Run

end EfctVi
