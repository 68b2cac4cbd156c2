import EfctVi.TxPhase
import Mathlib.Algebra.BigOperators.Group.List

namespace EfctVi

/-- The fields of the TX state that the descriptor ring's accounting reads. -/
structure TxRingView where
  mask : Nat
  ctFifoBytes : Nat
  descLen : Nat → Nat
  added : Nat
  previous : Nat
  ctAdded : Nat
  ctRemoved : Nat

def TxVi.ringView (vi : TxVi) : TxRingView :=
  ⟨vi.mask, vi.ctFifoBytes, vi.descLen, vi.added, vi.previous, vi.ctAdded, vi.ctRemoved⟩

/-- The sum of desc[j & mask].len over the `k` descriptors from `previous` on. -/
def TxRingView.descSum (v : TxRingView) (k : Nat) : Nat :=
  ((List.range k).map fun i => v.descLen ((v.previous + i) % 2 ^ 32 &&& v.mask)).sum

/-- What efct_tx_complete does to the ring for a packet of `len` bytes. -/
def TxRingView.record (v : TxRingView) (len : Nat) : TxRingView :=
  let len := ciRoundUp (len + efctTxHeaderBytes) efctTxAlignment
  { v with
    descLen := Function.update v.descLen (v.added &&& v.mask) (len % 2 ^ 16)
    ctAdded := (v.ctAdded + len) % 2 ^ 32
    added := (v.added + 1) % 2 ^ 32 }

/-- What `k` rounds of efct_tx_handle_event's loop do to the ring. -/
def TxRingView.retire (v : TxRingView) (k : Nat) : TxRingView :=
  { v with
    previous := (v.previous + k) % 2 ^ 32
    ctRemoved := (v.ctRemoved + v.descSum k) % 2 ^ 32 }

@[simp] theorem efctTxComplete_ringView (vi : TxVi) (tx : EfctTxState) (dmaId len : Nat) :
    (efctTxComplete vi tx dmaId len).1.ringView = vi.ringView.record len :=
  rfl

theorem txRetireOne_iterate_ringView {vi : TxVi} (hp : vi.previous < 2 ^ 32)
    (hr : vi.ctRemoved < 2 ^ 32) (k : Nat) :
    (txRetireOne^[k] vi).ringView = vi.ringView.retire k := by
  induction k with
  | zero =>
    simp only [Function.iterate_zero, id, TxVi.ringView, TxRingView.retire, TxRingView.descSum,
      List.range_zero, List.map_nil, List.sum_nil, Nat.add_zero, Nat.mod_eq_of_lt hp,
      Nat.mod_eq_of_lt hr]
  | succ k ih =>
    rw [Function.iterate_succ_apply']
    simp only [TxVi.ringView, TxRingView.retire, TxRingView.mk.injEq] at ih ⊢
    obtain ⟨hm, hf, hd, ha, hprev, hca, hcr⟩ := ih
    simp only [txRetireOne, hm, hd, hprev, hcr, TxRingView.descSum, List.range_succ, List.map_append,
      List.sum_append, List.map_singleton, List.sum_singleton, hf, ha, hca, true_and]
    simp only [TxRingView.descSum] at hcr
    constructor <;> omega

/-- efct_tx_handle_event's loop retires descriptors up to the one its sequence names: `j`
places past `previous`, it stops after `(j + 1) mod 2 ^ W` rounds. -/
theorem txRetire_named {vi : TxVi} {W seq j : Nat} (hW : W ≤ 32) (hp : vi.previous < 2 ^ 32)
    (hj : j < 2 ^ W) (hseq : (vi.previous + j) % 2 ^ W = seq % 2 ^ W) :
    txRetire (2 ^ W - 1) ((seq + 1) &&& 2 ^ W - 1) (2 ^ W) vi =
      txRetireOne^[(j + 1) % 2 ^ W] vi := by
  have hprev : ∀ i, (txRetireOne^[i] vi).previous = (vi.previous + i) % 2 ^ 32 := by
    intro i
    induction i with
    | zero => exact (Nat.mod_eq_of_lt hp).symm
    | succ i ih =>
      rw [Function.iterate_succ_apply', txRetireOne]
      dsimp only
      rw [ih]
      omega
  have hlow : ∀ i, (txRetireOne^[i] vi).previous &&& 2 ^ W - 1 = (vi.previous + i) % 2 ^ W := by
    intro i
    rw [hprev, ptr_slot hW]
  have htarget : (seq + 1) &&& 2 ^ W - 1 = (vi.previous + (j + 1)) % 2 ^ W := by
    rw [Nat.and_pow_two_sub_one_eq_mod, ← Nat.add_assoc, Nat.add_mod (vi.previous + j), hseq,
      ← Nat.add_mod]
  rw [htarget]
  suffices h : ∀ t fuel vi', t ≤ fuel →
      (∀ i < t, (txRetireOne^[i] vi').previous &&& 2 ^ W - 1 ≠ (vi.previous + (j + 1)) % 2 ^ W) →
      (txRetireOne^[t] vi').previous &&& 2 ^ W - 1 = (vi.previous + (j + 1)) % 2 ^ W →
      txRetire (2 ^ W - 1) ((vi.previous + (j + 1)) % 2 ^ W) fuel vi' = txRetireOne^[t] vi' by
    refine h _ _ vi (Nat.mod_lt _ (Nat.two_pow_pos W)).le (fun i hi => ?_) ?_
    · rw [hlow]
      have : j + 1 < 2 ^ W := by
        by_contra hc
        rw [show j + 1 = 2 ^ W by omega, Nat.mod_self] at hi
        omega
      rw [Nat.mod_eq_of_lt this] at hi
      exact mod_ne_of_lt (by omega) (by omega)
    · rw [hlow, Nat.add_mod, Nat.mod_mod, ← Nat.add_mod]
  intro t
  induction t with
  | zero =>
    intro fuel vi' _ _ heq
    cases fuel with
    | zero => rfl
    | succ fuel => exact if_pos heq
  | succ t ih =>
    intro fuel vi' ht hne heq
    obtain ⟨fuel, rfl⟩ : ∃ f, fuel = f + 1 := ⟨fuel - 1, by omega⟩
    have h0 : vi'.previous &&& 2 ^ W - 1 ≠ (vi.previous + (j + 1)) % 2 ^ W := hne 0 (by omega)
    rw [txRetire, if_neg h0, Function.iterate_succ_apply]
    exact ih fuel _ (by omega) (fun i hi => hne (i + 1) (by omega)) heq

section Lens

variable {L : List Nat}

theorem sum_ge_of_le (h : ∀ l ∈ L, 64 ≤ l) : 64 * L.length ≤ L.sum := by
  induction L with
  | nil => simp
  | cons a L ih =>
    have := ih fun l hl => h l (List.mem_cons_of_mem a hl)
    have := h a (List.mem_cons_self a L)
    simp only [List.length_cons, List.sum_cons]
    omega

theorem sum_mod_of_mod (h : ∀ l ∈ L, l % 64 = 0) : L.sum % 64 = 0 := by
  induction L with
  | nil => rfl
  | cons a L ih =>
    have := ih fun l hl => h l (List.mem_cons_of_mem a hl)
    have := h a (List.mem_cons_self a L)
    simp only [List.sum_cons]
    omega

end Lens

section Inv

/-- ct_fifo_bytes as efct_design_parameters sets it, from a NIC whose tx_fifo_bytes is a
multiple of 64 between 128 and 2^31. -/
def FifoFromNic (vi : TxVi) : Prop :=
  ∃ txFifoBytes, txFifoBytes % 64 = 0 ∧ 128 ≤ txFifoBytes ∧ txFifoBytes < 2 ^ 31 ∧
    vi.ctFifoBytes = wrapSub 32 txFifoBytes (efctTxAlignment + efctTxHeaderBytes)

theorem FifoFromNic.bounds {vi : TxVi} (h : FifoFromNic vi) :
    (vi.ctFifoBytes + 72) % 64 = 0 ∧ vi.ctFifoBytes < 2 ^ 31 := by
  obtain ⟨t, h64, hlo, hhi, hct⟩ := h
  simp only [hct, wrapSub, efctTxAlignment, efctTxHeaderBytes]
  omega

/-- The accounting of the TX descriptor ring in a ring of `2 ^ m` descriptors, against `lens`,
the descriptor lens of the outstanding packets, oldest first (a ghost list). -/
structure TxInv (m : Nat) (v : TxRingView) (lens : List Nat) : Prop where
  mask : v.mask + 1 = 2 ^ m
  m_le : m ≤ 32
  fifo : (v.ctFifoBytes + 72) % 64 = 0
  fifo_lt : v.ctFifoBytes < 2 ^ 31
  ring : (v.ctFifoBytes + efctTxHeaderBytes) / efctTxAlignment ≤ v.mask + 1
  added_lt : v.added < 2 ^ 32
  previous_lt : v.previous < 2 ^ 32
  ctAdded_lt : v.ctAdded < 2 ^ 32
  ctRemoved_lt : v.ctRemoved < 2 ^ 32
  align : v.ctAdded % 64 = 0
  count : wrapSub 32 v.added v.previous = lens.length
  count_le : lens.length ≤ v.mask + 1
  bytes : wrapSub 32 v.ctAdded v.ctRemoved = lens.sum
  bytes_le : lens.sum ≤ v.ctFifoBytes + 8
  lens_ok : ∀ l ∈ lens, 64 ≤ l ∧ l % 64 = 0
  desc : ∀ i (hi : i < lens.length), v.descLen ((v.previous + i) % 2 ^ 32 &&& v.mask) = lens[i]

variable {m : Nat} {v : TxRingView} {lens : List Nat}

theorem TxInv.slot (h : TxInv m v lens) (x : Nat) : x % 2 ^ 32 &&& v.mask = x % 2 ^ m := by
  rw [show v.mask = 2 ^ m - 1 by have := h.mask; omega, ptr_slot h.m_le]

theorem TxInv.descSum (h : TxInv m v lens) {k : Nat} (hk : k ≤ lens.length) :
    v.descSum k = (lens.take k).sum := by
  induction k with
  | zero => simp [TxRingView.descSum]
  | succ k ih =>
    rw [TxRingView.descSum, List.range_succ, List.map_append, List.sum_append, ← TxRingView.descSum,
      ih (by omega), List.take_succ, List.getElem?_eq_getElem (by omega), List.sum_append]
    simpa using h.desc k (by omega)

/-- ct_added - ct_removed is the sum of desc[j & mask].len over the outstanding j in
[previous, added). -/
theorem TxInv.inflight (h : TxInv m v lens) :
    wrapSub 32 v.ctAdded v.ctRemoved = v.descSum (wrapSub 32 v.added v.previous) := by
  rw [h.bytes, h.count, h.descSum le_rfl, List.take_length]

/-- Before an admitted packet fewer than `2 ^ m` are outstanding: each takes a multiple of 64
bytes, at least 64, of a FIFO that holds fewer than the ring has slots. -/
theorem TxInv.admitted_length (h : TxInv m v lens) (hsum : lens.sum ≤ v.ctFifoBytes) :
    lens.length < 2 ^ m := by
  have := sum_ge_of_le fun l hl => (h.lens_ok l hl).1
  have := sum_mod_of_mod fun l hl => (h.lens_ok l hl).2
  have := h.ring
  have := h.fifo
  have := h.mask
  simp only [efctTxHeaderBytes, efctTxAlignment] at *
  omega

/-- A packet of `L` payload bytes admitted by efct_tx_check, with the space the collaborator
reports bounded by the free part of the FIFO, keeps the accounting. -/
theorem TxInv.record (h : TxInv m v lens) {L : Nat} {space : Int} (hL : L < 2 ^ 15)
    (hadm : (L : Int) ≤ space)
    (hspace : space ≤ (v.ctFifoBytes : Int) - wrapSub 32 v.ctAdded v.ctRemoved) :
    TxInv m (v.record L) (lens ++ [ciRoundUp (L + 8) 64]) := by
  have hsum : lens.sum + L ≤ v.ctFifoBytes := by rw [h.bytes] at hspace; omega
  have hn := h.admitted_length (by omega)
  have hround : ciRoundUp (L + 8) 64 = (L + 8 + 64 - 1) / 64 * 64 := rfl
  have hslot : v.added &&& v.mask = (v.previous + lens.length) % 2 ^ m := by
    have hcount := h.count
    have := h.added_lt; have := h.previous_lt
    simp only [wrapSub] at hcount
    rw [show v.added = (v.previous + lens.length) % 2 ^ 32 by omega, h.slot]
  refine ⟨h.mask, h.m_le, h.fifo, h.fifo_lt, h.ring, Nat.mod_lt _ (by decide), h.previous_lt,
    Nat.mod_lt _ (by decide), h.ctRemoved_lt, ?_, ?_, ?_, ?_, ?_, ?_, ?_⟩
  · have := h.align
    simp only [TxRingView.record, efctTxHeaderBytes, efctTxAlignment]
    omega
  · have hcount := h.count
    have := h.added_lt; have := h.previous_lt; have := h.fifo_lt
    have := sum_ge_of_le fun l hl => (h.lens_ok l hl).1
    simp only [TxRingView.record, wrapSub, List.length_append, List.length_singleton] at hcount ⊢
    omega
  · have := h.mask
    simp only [TxRingView.record, List.length_append, List.length_singleton]
    omega
  · have hbytes := h.bytes
    have := h.ctAdded_lt; have := h.ctRemoved_lt; have := h.fifo_lt
    simp only [TxRingView.record, wrapSub, List.sum_append, List.sum_singleton, efctTxHeaderBytes,
      efctTxAlignment] at hbytes ⊢
    omega
  · have := sum_mod_of_mod fun l hl => (h.lens_ok l hl).2
    have := h.fifo
    simp only [TxRingView.record, List.sum_append, List.sum_singleton, hround]
    omega
  · intro l hl
    rcases List.mem_append.mp hl with hl | hl
    · exact h.lens_ok l hl
    · rw [List.mem_singleton.mp hl]; omega
  · intro i hi
    simp only [TxRingView.record, List.length_append, List.length_singleton] at hi ⊢
    rw [hslot, h.slot]
    by_cases hin : i < lens.length
    · rw [List.getElem_append_left hin, Function.update_noteq
        (mod_ne_of_lt (a := v.previous + i) (b := v.previous + lens.length) (by omega) (by omega)),
        ← h.slot, h.desc i hin]
    · obtain rfl : i = lens.length := by omega
      rw [List.getElem_concat_length _ _ _ rfl, Function.update_same]
      simp only [efctTxHeaderBytes, efctTxAlignment, hround]
      omega

/-- Retiring `t` of the outstanding packets, oldest first, keeps the accounting. -/
theorem TxInv.retire (h : TxInv m v lens) {t : Nat} (ht : t ≤ lens.length) :
    TxInv m (v.retire t) (lens.drop t) := by
  have hsplit := List.sum_take_add_sum_drop lens t
  refine ⟨h.mask, h.m_le, h.fifo, h.fifo_lt, h.ring, h.added_lt, Nat.mod_lt _ (by decide), h.ctAdded_lt,
    Nat.mod_lt _ (by decide), h.align, ?_, ?_, ?_, ?_, ?_, ?_⟩
  · have hcount := h.count
    have := h.added_lt; have := h.previous_lt
    simp only [TxRingView.retire, wrapSub, List.length_drop] at hcount ⊢
    omega
  · have := h.count_le; simp only [TxRingView.retire, List.length_drop]; omega
  · have hbytes := h.bytes
    have := h.ctAdded_lt; have := h.ctRemoved_lt
    simp only [TxRingView.retire, wrapSub, h.descSum ht] at hbytes ⊢
    omega
  · have := h.bytes_le; simp only [TxRingView.retire]; omega
  · exact fun l hl => h.lens_ok l (List.mem_of_mem_drop hl)
  · intro i hi
    simp only [TxRingView.retire, List.length_drop, List.getElem_drop] at hi ⊢
    rw [← h.desc (t + i) (by omega)]
    congr 2
    omega

end Inv

end EfctVi
