import Mathlib.Algebra.Order.Floor.Div
import EfctVi.TxStream

namespace EfctVi

/-- The constants of the hardware and ef_vi headers that the TX path uses without defining:
the bit positions of the EFCT_TX_HEADER_* fields, the widths of PACKET_LENGTH and WARM_FLAG,
EFCT_TX_CT_DISABLE and EF_REQUEST_ID_MASK. -/
structure EfctTxDefs where
  packetLengthLbn : Nat
  packetLengthWidth : Nat
  ctThreshLbn : Nat
  timestampFlagLbn : Nat
  warmFlagLbn : Nat
  warmFlagWidth : Nat
  actionLbn : Nat
  ctDisable : Nat
  requestIdMask : Nat
  deriving DecidableEq, Repr

/-- Modelled from the spec: EFCT_TX_HEADER_BYTES is defined outside src/; the spec's 8-byte
TX header. -/
def efctTxHeaderBytes : Nat := 8

/-- Modelled from the spec: EFCT_TX_ALIGNMENT is defined outside src/; the spec's 64-byte
cache line that every packet is padded to. -/
def efctTxAlignment : Nat := 64

def efctTxPostedId : Nat := 0xefc7efc7

/-- The TX half of an EFCT ef_vi: from vi_txq its mask, ct_fifo_bytes, efct_fixed_header,
efct_aperture_mask, the descriptors' len and the ids; from ep_state->txq the 32-bit counters
added, removed, previous, ct_added and ct_removed; and last_ctpio_failed. -/
structure TxVi where
  mask : Nat
  ctFifoBytes : Nat
  efctFixedHeader : Nat
  efctApertureMask : Nat
  descLen : Nat → Nat
  ids : Nat → Nat
  added : Nat
  removed : Nat
  previous : Nat
  ctAdded : Nat
  ctRemoved : Nat
  lastCtpioFailed : Bool

/-- efct_tx_header, with each field already in range as its RANGECHCK asserts. Modelled from
the spec: CI_POPULATE_QWORD_5 is defined outside src/; it places each field at its offset. -/
def efctTxHeader (d : EfctTxDefs) (packetLength ctThresh timestampFlag warmFlag action : Nat) :
    Nat :=
  (packetLength <<< d.packetLengthLbn ||| ctThresh <<< d.ctThreshLbn |||
    timestampFlag <<< d.timestampFlagLbn ||| warmFlag <<< d.warmFlagLbn |||
    action <<< d.actionLbn) % 2 ^ 64

def efctTxPktHeader (d : EfctTxDefs) (vi : TxVi) (length ctThresh : Nat) : Nat :=
  efctTxHeader d length ctThresh 0 0 0 ||| vi.efctFixedHeader

/-- efct_tx_check, past its BUG_ON on the ring size; `space` is what the collaborator
ef_vi_transmit_space_bytes answers. -/
def efctTxCheck (space : Int) (len : Int) : Bool :=
  decide (len ≤ space)

/-- The ring size that the BUG_ON of efct_tx_check asserts. -/
def txRingSizeOk (vi : TxVi) : Prop :=
  (vi.ctFifoBytes + efctTxHeaderBytes) / efctTxAlignment ≤ vi.mask + 1

/-- efct_tx_init, past its BUG_ON on the alignment of ct_added. -/
def efctTxInit (vi : TxVi) : EfctTxState :=
  { writes := [], tail := 0, tailLen := 0, offset := vi.ctAdded >>> 3,
    mask := vi.efctApertureMask }

/-- efct_tx_complete: flush the tail and pad to the alignment, then record the packet's
descriptor (its `uint16_t` len) and id and advance the 32-bit counters. -/
def efctTxComplete (vi : TxVi) (tx : EfctTxState) (dmaId : Nat) (len : Nat) :
    TxVi × EfctTxState :=
  let i := vi.added &&& vi.mask
  let tx := txFlush tx
  let len := ciRoundUp (len + efctTxHeaderBytes) efctTxAlignment
  ({ vi with
      descLen := Function.update vi.descLen i (len % 2 ^ 16)
      ids := Function.update vi.ids i dmaId
      ctAdded := (vi.ctAdded + len) % 2 ^ 32
      added := (vi.added + 1) % 2 ^ 32 }, tx)

/-- efct_ef_vi_transmit of the `len` bytes `buf`: `none` is -EAGAIN; otherwise the new state and
what was stored in the aperture. -/
def efctEfViTransmit (d : EfctTxDefs) (space : Int) (vi : TxVi) (buf : List UInt8)
    (dmaId : Nat) : Option (TxVi × EfctTxState) :=
  if !efctTxCheck space buf.length then none
  else
    let tx := efctTxInit vi
    let tx := efctTxWord tx (efctTxPktHeader d vi buf.length d.ctDisable)
    let tx := efctTxBlock tx buf
    some (efctTxComplete vi tx dmaId buf.length)

def efctEfViTransmitv (d : EfctTxDefs) (space : Int) (vi : TxVi) (iov : List (List UInt8))
    (dmaId : Nat) : Option (TxVi × EfctTxState) :=
  let tx := efctTxInit vi
  let len := (iov.map List.length).sum
  if !efctTxCheck space len then none
  else
    let tx := efctTxWord tx (efctTxPktHeader d vi len d.ctDisable)
    let tx := iov.foldl efctTxBlock tx
    some (efctTxComplete vi tx dmaId len)

/-- tx_warm_active: the WARM_FLAG field of efct_fixed_header. -/
def txWarmActive (d : EfctTxDefs) (vi : TxVi) : Bool :=
  (vi.efctFixedHeader >>> d.warmFlagLbn) % 2 ^ d.warmFlagWidth != 0

/-- The CT_THRESH field efct_ef_vi_transmitv_ctpio computes from a threshold in bytes, in
32-bit unsigned arithmetic. -/
def ctpioThreshold (d : EfctTxDefs) (threshold : Nat) : Nat :=
  let thresholdExtra := efctTxHeaderBytes + efctTxAlignment - 1
  if threshold > wrapSub 32 (d.ctDisable * efctTxAlignment) thresholdExtra then d.ctDisable
  else (threshold + thresholdExtra) % 2 ^ 32 / efctTxAlignment

section Threshold

variable {d : EfctTxDefs} (hlo : 2 ≤ d.ctDisable) (hhi : d.ctDisable < 2 ^ 26)
include hlo hhi

/-- The guard of the threshold translation is CT_DISABLE * 64 - threshold_extra, unwrapped. -/
theorem ctpioThreshold_guard :
    wrapSub 32 (d.ctDisable * efctTxAlignment) (efctTxHeaderBytes + efctTxAlignment - 1) =
      d.ctDisable * 64 - 71 := by
  simp only [wrapSub, efctTxHeaderBytes, efctTxAlignment]
  omega

theorem ctpioThreshold_eq_min {t : Nat} (ht : t < 2 ^ 32) :
    ctpioThreshold d t = min d.ctDisable ((t + efctTxHeaderBytes) ⌈/⌉ efctTxAlignment) := by
  simp only [ctpioThreshold]
  rw [ctpioThreshold_guard hlo hhi, Nat.ceilDiv_eq_add_pred_div]
  simp only [efctTxHeaderBytes, efctTxAlignment]
  split_ifs <;> omega

/-- The CT_THRESH of efct_ef_vi_transmitv_ctpio is min(EFCT_TX_CT_DISABLE, ⌈(threshold + 8) / 64⌉),
computed without wrap, within the field, and monotone in the threshold. -/
theorem ctpioThreshold_ceil_law {w : Nat} (hw : d.ctDisable < 2 ^ w) :
    (∀ t < 2 ^ 32,
      ctpioThreshold d t = min d.ctDisable ((t + efctTxHeaderBytes) ⌈/⌉ efctTxAlignment)) ∧
    (∀ t < 2 ^ 32, ¬t > wrapSub 32 (d.ctDisable * efctTxAlignment)
        (efctTxHeaderBytes + efctTxAlignment - 1) →
      t + (efctTxHeaderBytes + efctTxAlignment - 1) < 2 ^ 32) ∧
    (∀ t < 2 ^ 32, ctpioThreshold d t < 2 ^ w) ∧
    ∀ t t', t ≤ t' → t' < 2 ^ 32 → ctpioThreshold d t ≤ ctpioThreshold d t' := by
  refine ⟨fun t ht => ctpioThreshold_eq_min hlo hhi ht, fun t _ h => ?_, fun t ht => ?_,
    fun t t' h ht' => ?_⟩
  · rw [ctpioThreshold_guard hlo hhi] at h
    simp only [efctTxHeaderBytes, efctTxAlignment]
    omega
  · rw [ctpioThreshold_eq_min hlo hhi ht]
    exact lt_of_le_of_lt (min_le_left _ _) hw
  · rw [ctpioThreshold_eq_min hlo hhi (lt_of_le_of_lt h ht'),
      ctpioThreshold_eq_min hlo hhi ht', Nat.ceilDiv_eq_add_pred_div, Nat.ceilDiv_eq_add_pred_div]
    exact min_le_min_left _ (Nat.div_le_div_right (by omega))

end Threshold

/-- The law at EFCT_TX_CT_DISABLE = 0xff and an 8-bit CT_THRESH field. -/
theorem ctpioThreshold_ceil_law_ff :
    2 ≤ 255 ∧ 255 < 2 ^ 26 ∧ 255 < 2 ^ 8 ∧
      let d : EfctTxDefs := ⟨0, 14, 14, 22, 23, 1, 24, 255, 0xffffffff⟩
      (∀ t < 2 ^ 32,
        ctpioThreshold d t = min d.ctDisable ((t + efctTxHeaderBytes) ⌈/⌉ efctTxAlignment)) ∧
      (∀ t < 2 ^ 32, ¬t > wrapSub 32 (d.ctDisable * efctTxAlignment)
          (efctTxHeaderBytes + efctTxAlignment - 1) →
        t + (efctTxHeaderBytes + efctTxAlignment - 1) < 2 ^ 32) ∧
      (∀ t < 2 ^ 32, ctpioThreshold d t < 2 ^ 8) ∧
      ∀ t t', t ≤ t' → t' < 2 ^ 32 → ctpioThreshold d t ≤ ctpioThreshold d t' :=
  ⟨by decide, by decide, by decide,
    @ctpioThreshold_ceil_law ⟨0, 14, 14, 22, 23, 1, 24, 255, 0xffffffff⟩ (by decide) (by decide) 8
      (by decide)⟩

/-- efct_ef_vi_transmitv_ctpio: the new state, and what was stored in the aperture when the
packet was admitted. -/
def efctEfViTransmitvCtpio (d : EfctTxDefs) (space : Int) (vi : TxVi) (len : Nat)
    (iov : List (List UInt8)) (threshold : Nat) : TxVi × Option EfctTxState :=
  let vi := { vi with lastCtpioFailed := !efctTxCheck space len }
  if vi.lastCtpioFailed then (vi, none)
  else
    let tx := efctTxInit vi
    let tx := efctTxWord tx (efctTxPktHeader d vi (len % 2 ^ 32) (ctpioThreshold d threshold))
    let tx := iov.foldl efctTxBlock tx
    let dmaId := if txWarmActive d vi then d.requestIdMask else efctTxPostedId
    let r := efctTxComplete vi tx dmaId len
    (r.1, some r.2)

/-- efct_ef_vi_ctpio_fallback, past its EF_VI_BUG_ONs: the posted id of the last packet is
replaced by the real one. -/
def efctEfViCtpioFallback (vi : TxVi) (dmaId : Nat) : TxVi :=
  { vi with ids := Function.update vi.ids (wrapSub 32 vi.added 1 &&& vi.mask) dmaId }

/-- efct_ef_vi_transmit_ctpio_fallback: `none` is -EAGAIN, which leaves the state as it was;
otherwise the new state and, when the packet was sent again, the aperture stores. -/
def efctEfViTransmitCtpioFallback (d : EfctTxDefs) (space : Int) (vi : TxVi)
    (buf : List UInt8) (dmaId : Nat) : Option (TxVi × Option EfctTxState) :=
  if vi.lastCtpioFailed then
    (efctEfViTransmit d space vi buf dmaId).map fun r =>
      ({ r.1 with lastCtpioFailed := false }, some r.2)
  else some (efctEfViCtpioFallback vi dmaId, none)

def efctEfViTransmitvCtpioFallback (d : EfctTxDefs) (space : Int) (vi : TxVi)
    (iov : List (List UInt8)) (dmaId : Nat) : Option (TxVi × Option EfctTxState) :=
  if vi.lastCtpioFailed then
    (efctEfViTransmitv d space vi iov dmaId).map fun r =>
      ({ r.1 with lastCtpioFailed := false }, some r.2)
  else some (efctEfViCtpioFallback vi dmaId, none)

section Send

variable {start : Nat} {fed : List UInt8} {tx : EfctTxState}

theorem efctTxInit_stream {vi : TxVi} (h : vi.ctAdded < 2 ^ 32) :
    TxStream (vi.ctAdded >>> 3) [] (efctTxInit vi) where
  tail_le := by simp [efctTxInit]
  tail_lt := by simp [efctTxInit]
  offset_eq := by
    simp only [efctTxInit, List.length_nil, Nat.add_zero, Nat.shiftRight_eq_div_pow]
    exact (Nat.mod_eq_of_lt (by omega)).symm
  at_offsets := rfl
  bytes_eq := rfl

/-- The blocks of a transmit, fed one after the other, extend the stream by their
concatenation. -/
theorem foldl_efctTxBlock_stream (h : TxStream start fed tx) (hl : tx.tailLen < 8)
    (iov : List (List UInt8)) :
    TxStream start (fed ++ iov.flatten) (iov.foldl efctTxBlock tx) ∧
      (iov.foldl efctTxBlock tx).tailLen < 8 := by
  induction iov generalizing fed tx with
  | nil => simpa using ⟨h, hl⟩
  | cons bs iov ih =>
    obtain ⟨h1, hl1⟩ := efctTxBlock_stream h bs
    simpa only [List.foldl_cons, List.flatten_cons, List.append_assoc] using ih h1 hl1

@[simp] theorem foldl_efctTxBlock_mask (tx : EfctTxState) (iov : List (List UInt8)) :
    (iov.foldl efctTxBlock tx).mask = tx.mask := by
  induction iov generalizing tx with
  | nil => rfl
  | cons bs iov ih => simp [ih]

/-- What one transmit stores in the aperture: the header word, the fragments and zero padding,
at consecutive word offsets from `ct_added >> 3`, ending at the offset where the next one
starts (up to the wrap of the 32-bit ct_added). -/
theorem txSend_spec {vi : TxVi} (hdr : Nat) (iov : List (List UInt8)) (dmaId len : Nat)
    (hc : vi.ctAdded < 2 ^ 32) (ha : vi.ctAdded % 64 = 0) (hlen : len = iov.flatten.length)
    (hb : len < 2 ^ 31) :
    let r := efctTxComplete vi (iov.foldl efctTxBlock (efctTxWord (efctTxInit vi) hdr)) dmaId len
    AtOffsets (vi.ctAdded >>> 3) vi.efctApertureMask r.2.writes ∧
      wordsBytes r.2.writes = leBytes 8 hdr ++ iov.flatten ++
        List.replicate (ciRoundUp (len + 8) 64 - (len + 8)) 0 ∧
      8 * r.2.writes.length = ciRoundUp (len + 8) 64 ∧
      r.2.offset = (vi.ctAdded >>> 3) + r.2.writes.length ∧
      r.1.ctAdded = (vi.ctAdded + ciRoundUp (len + 8) 64) % 2 ^ 32 ∧
      r.1.descLen (vi.added &&& vi.mask) = ciRoundUp (len + 8) 64 % 2 ^ 16 := by
  have h0 := (efctTxInit_stream hc).word rfl hdr
  obtain ⟨h1, hl1⟩ := foldl_efctTxBlock_stream h0 (by simp [efctTxWord, efctTxInit]) iov
  have hfed : (leBytes 8 hdr ++ iov.flatten).length = len + 8 := by
    simp [hlen, Nat.add_comm]
  have hs : (vi.ctAdded >>> 3) % 8 = 0 := by
    rw [Nat.shiftRight_eq_div_pow]; omega
  have hst : vi.ctAdded >>> 3 ≤ vi.ctAdded := by
    rw [Nat.shiftRight_eq_div_pow]; exact Nat.div_le_self _ _
  obtain ⟨hat, hby, hw, ho⟩ := txFlush_spec h1 hl1 hs (by rw [List.nil_append, hfed]; omega)
  simp only [hfed, List.nil_append] at hby hw
  refine ⟨?_, hby, hw, ho, rfl, by simp [efctTxComplete, efctTxHeaderBytes, efctTxAlignment]⟩
  simpa [efctTxComplete, efctTxWord, efctTxInit, foldl_efctTxBlock_mask] using hat

theorem efctEfViTransmitv_some {d : EfctTxDefs} {space : Int} {vi : TxVi}
    {iov : List (List UInt8)} {dmaId : Nat} {r : TxVi × EfctTxState}
    (h : efctEfViTransmitv d space vi iov dmaId = some r) :
    efctTxCheck space (iov.map List.length).sum = true ∧
      r = efctTxComplete vi (iov.foldl efctTxBlock (efctTxWord (efctTxInit vi)
        (efctTxPktHeader d vi (iov.map List.length).sum d.ctDisable))) dmaId
        (iov.map List.length).sum := by
  simp only [efctEfViTransmitv] at h
  split at h
  · cases h
  · simp_all

/-- Through a mask below `2 ^ k`, a word offset counts only modulo `2 ^ k`. -/
theorem and_mask_mod {x m k : Nat} (hm : m < 2 ^ k) : x &&& m = x % 2 ^ k &&& m := by
  apply Nat.eq_of_testBit_eq
  intro i
  simp only [Nat.testBit_and, Nat.testBit_mod_two_pow]
  by_cases hi : i < k
  · simp [hi]
  · have : m < 2 ^ i := lt_of_lt_of_le hm (Nat.pow_le_pow_right (by decide) (by omega))
    simp [Nat.testBit_lt_two_pow this]

/-- What an admitted send from `vi` stores and records for the fragments `iov` under the header
word `hdr`: `W` words from aperture index `ct_added >> 3` on, holding the header, the payload and
zero padding, with ct_added and the descriptor len raised by `8 * W`. -/
def SendStores (vi vi' : TxVi) (tx : EfctTxState) (hdr : Nat) (iov : List (List UInt8)) : Prop :=
  let L := (iov.map List.length).sum
  let W := ciRoundUp (L + 8) 64 / 8
  tx.writes.map Prod.fst =
      (List.range W).map (fun j => (vi.ctAdded >>> 3) + j &&& vi.efctApertureMask) ∧
    wordsBytes tx.writes = leBytes 8 hdr ++ iov.flatten ++ List.replicate (8 * W - (L + 8)) 0 ∧
    vi'.ctAdded = (vi.ctAdded + 8 * W) % 2 ^ 32 ∧
    vi'.descLen (vi.added &&& vi.mask) = 8 * W % 2 ^ 16 ∧
    tx.offset = (vi.ctAdded >>> 3) + W ∧ tx.offset % 2 ^ 29 = vi'.ctAdded >>> 3 ∧
    (vi.efctApertureMask < 2 ^ 29 →
      tx.offset &&& vi.efctApertureMask = vi'.ctAdded >>> 3 &&& vi.efctApertureMask)

/-- The init, header word, blocks and complete that every send runs store as SendStores says. -/
theorem txSend_stores {vi : TxVi} (hdr : Nat) (iov : List (List UInt8)) (dmaId : Nat)
    (hc : vi.ctAdded < 2 ^ 32) (ha : vi.ctAdded % 64 = 0) (hb : (iov.map List.length).sum < 2 ^ 31) :
    let r := efctTxComplete vi (iov.foldl efctTxBlock (efctTxWord (efctTxInit vi) hdr)) dmaId
      (iov.map List.length).sum
    SendStores vi r.1 r.2 hdr iov := by
  dsimp only
  unfold SendStores
  intro L W
  obtain ⟨hat, hby, hw, ho, hca, hdl⟩ :=
    txSend_spec hdr iov dmaId L hc ha (List.length_flatten iov).symm hb
  set r := efctTxComplete vi (iov.foldl efctTxBlock (efctTxWord (efctTxInit vi) hdr)) dmaId L
  have hR : ciRoundUp (L + 8) 64 = 8 * W := by
    simp only [W, ciRoundUp]; omega
  have hlen : r.2.writes.length = W := by omega
  have hW : W < 2 ^ 29 := by simp only [W, ciRoundUp]; omega
  have hst : vi.ctAdded >>> 3 = vi.ctAdded / 8 := Nat.shiftRight_eq_div_pow _ _
  have hoff : r.2.offset = (vi.ctAdded >>> 3) + W := by rw [ho, hlen]
  have hmod : r.2.offset % 2 ^ 29 = r.1.ctAdded >>> 3 := by
    rw [hoff, hca, hR, hst, Nat.shiftRight_eq_div_pow]; omega
  refine ⟨?_, by rw [hby, hR], by rw [hca, hR], by rw [hdl, hR], hoff, hmod, fun hm => ?_⟩
  · rw [hat, hlen]
    refine List.map_congr_left fun j hj => ?_
    rw [List.mem_range] at hj
    rw [Nat.mod_eq_of_lt (by omega)]
  · rw [and_mask_mod hm, hmod]

section Sends

variable {d : EfctTxDefs} {space : Int} {vi vi' : TxVi} {tx : EfctTxState}

theorem efctEfViTransmit_stores {buf : List UInt8} {dmaId : Nat} (hc : vi.ctAdded < 2 ^ 32)
    (ha : vi.ctAdded % 64 = 0) (hb : buf.length < 2 ^ 31)
    (h : efctEfViTransmit d space vi buf dmaId = some (vi', tx)) :
    SendStores vi vi' tx (efctTxPktHeader d vi buf.length d.ctDisable) [buf] := by
  unfold efctEfViTransmit at h
  split at h
  · cases h
  · cases h
    simpa using txSend_stores (efctTxPktHeader d vi buf.length d.ctDisable) [buf] dmaId hc ha
      (by simpa using hb)

theorem efctEfViTransmitv_stores {iov : List (List UInt8)} {dmaId : Nat}
    (hc : vi.ctAdded < 2 ^ 32) (ha : vi.ctAdded % 64 = 0) (hb : (iov.map List.length).sum < 2 ^ 31)
    (h : efctEfViTransmitv d space vi iov dmaId = some (vi', tx)) :
    SendStores vi vi' tx (efctTxPktHeader d vi (iov.map List.length).sum d.ctDisable) iov := by
  obtain ⟨-, hr⟩ := efctEfViTransmitv_some h
  have := txSend_stores (efctTxPktHeader d vi (iov.map List.length).sum d.ctDisable) iov dmaId hc ha hb
  rwa [← hr] at this

theorem efctEfViTransmitvCtpio_stores {iov : List (List UInt8)} {threshold : Nat}
    (hc : vi.ctAdded < 2 ^ 32) (ha : vi.ctAdded % 64 = 0) (hb : (iov.map List.length).sum < 2 ^ 31)
    (h : efctEfViTransmitvCtpio d space vi (iov.map List.length).sum iov threshold =
      (vi', some tx)) :
    SendStores vi vi' tx
      (efctTxPktHeader d vi (iov.map List.length).sum (ctpioThreshold d threshold)) iov := by
  have h32 : (iov.map List.length).sum % 2 ^ 32 = (iov.map List.length).sum :=
    Nat.mod_eq_of_lt (by omega)
  simp only [efctEfViTransmitvCtpio, h32] at h
  split at h
  · simp at h
  · simp only [Prod.mk.injEq, Option.some.injEq] at h
    obtain ⟨rfl, rfl⟩ := h
    exact txSend_stores _ iov _ hc ha hb

end Sends

/-- From a 64-byte aligned ct_added, each admitted efct_ef_vi_transmit, efct_ef_vi_transmitv and
efct_ef_vi_transmitv_ctpio stores and records its packet as SendStores says. -/
theorem transmit_stores {d : EfctTxDefs} {space : Int} {vi : TxVi} (hc : vi.ctAdded < 2 ^ 32)
    (ha : vi.ctAdded % 64 = 0) :
    (∀ buf dmaId vi' tx, buf.length < 2 ^ 31 →
      efctEfViTransmit d space vi buf dmaId = some (vi', tx) →
      SendStores vi vi' tx (efctTxPktHeader d vi buf.length d.ctDisable) [buf]) ∧
    (∀ iov dmaId vi' tx, (iov.map List.length).sum < 2 ^ 31 →
      efctEfViTransmitv d space vi iov dmaId = some (vi', tx) →
      SendStores vi vi' tx (efctTxPktHeader d vi (iov.map List.length).sum d.ctDisable) iov) ∧
    ∀ iov threshold vi' tx, (iov.map List.length).sum < 2 ^ 31 →
      efctEfViTransmitvCtpio d space vi (iov.map List.length).sum iov threshold = (vi', some tx) →
      SendStores vi vi' tx
        (efctTxPktHeader d vi (iov.map List.length).sum (ctpioThreshold d threshold)) iov :=
  ⟨fun _ _ _ _ hb h => efctEfViTransmit_stores hc ha hb h,
    fun _ _ _ _ hb h => efctEfViTransmitv_stores hc ha hb h,
    fun _ _ _ _ hb h => efctEfViTransmitvCtpio_stores hc ha hb h⟩

/-- Three payload bytes from ct_added 0 fill one 64-byte block: eight words at offsets 0 to 7. -/
theorem transmit_stores_three_bytes :
    ∃ (vi' : TxVi) (tx : EfctTxState),
      efctEfViTransmitv ⟨0, 14, 14, 22, 23, 1, 24, 255, 0xffffffff⟩ 64
        ⟨0, 0, 0, 15, fun _ => 0, fun _ => 0, 0, 0, 0, 0, 0, false⟩ [[1, 2, 3]] 7 = some (vi', tx) ∧
      tx.writes.map Prod.fst = [0, 1, 2, 3, 4, 5, 6, 7] ∧ tx.offset = 8 ∧ vi'.ctAdded = 64 := by
  obtain ⟨vi', tx, h⟩ : ∃ vi' tx, efctEfViTransmitv ⟨0, 14, 14, 22, 23, 1, 24, 255, 0xffffffff⟩
      64 ⟨0, 0, 0, 15, fun _ => 0, fun _ => 0, 0, 0, 0, 0, 0, false⟩ [[1, 2, 3]] 7 =
      some (vi', tx) := ⟨_, _, rfl⟩
  obtain ⟨hat, -, hca, -, hoff, -⟩ := (@transmit_stores ⟨0, 14, 14, 22, 23, 1, 24, 255, 0xffffffff⟩
    64 ⟨0, 0, 0, 15, fun _ => 0, fun _ => 0, 0, 0, 0, 0, 0, false⟩ (by decide) (by decide)).2.1
    [[1, 2, 3]] 7 vi' tx (by decide) h
  exact ⟨vi', tx, h, hat.trans (by decide), hoff.trans (by decide), hca.trans (by decide)⟩

/-- At the wrap of ct_added, a transmit stops at word offset `2 ^ 29` while the next one starts
at 0. -/
theorem efctEfViTransmitv_offset_at_wrap :
    ∃ (vi vi' : TxVi) (tx : EfctTxState), vi.ctAdded % 64 = 0 ∧
      efctEfViTransmitv ⟨0, 14, 14, 22, 23, 1, 24, 255, 0xffffffff⟩ 0 vi [] 0 = some (vi', tx) ∧
      tx.offset = 2 ^ 29 ∧ (efctTxInit vi').offset = 0 := by
  let vi : TxVi := ⟨0, 0, 0, 0, fun _ => 0, fun _ => 0, 0, 0, 0, 2 ^ 32 - 64, 0, false⟩
  obtain ⟨-, -, hw, ho, hca, -⟩ := @txSend_spec vi
    (efctTxPktHeader ⟨0, 14, 14, 22, 23, 1, 24, 255, 0xffffffff⟩ vi 0 255) []
    0 0 (by decide) (by decide) rfl (by decide)
  have hs : vi.ctAdded >>> 3 = 2 ^ 29 - 8 := by decide
  simp only [ciRoundUp] at hw hca
  refine ⟨vi, _, _, by decide, rfl, ho.trans (by omega), ?_⟩
  simp only [efctTxInit, hca]
  decide

end Send

end EfctVi
