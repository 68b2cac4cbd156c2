import Mathlib.Data.Nat.Bitwise
import Mathlib.Algebra.Group.Int

namespace EfctVi

/-- `a - b` on `w`-bit unsigned values. -/
def wrapSub (w a b : Nat) : Nat :=
  (a + (2 ^ w - b % 2 ^ w)) % 2 ^ w

/-- The `int` that a `uint32_t` converts to. -/
def toInt32 (x : Nat) : Int :=
  if x % 2 ^ 32 < 2 ^ 31 then (x % 2 ^ 32 : Nat) else (x % 2 ^ 32 : Nat) - 2 ^ 32

/-- PKT_ID_PKT_BITS, PKT_ID_SBUF_BITS and PKT_ID_RXQ_BITS: the widths of the three pkt_id
fields, packet index lowest. -/
def pktIdPktBits : Nat := 16

def pktIdSbufBits : Nat := 11

def pktIdRxqBits : Nat := 3

def pktIdTotalBits : Nat := pktIdPktBits + pktIdSbufBits + pktIdRxqBits

/-- Modelled from the spec: CI_EFCT_MAX_SUPERBUFS is defined outside src/; the spec's
`MAX_SUPERBUFS = 2^11`, which assert_pkt_id_fields pins to `1 << PKT_ID_SBUF_BITS`. -/
def ciEfctMaxSuperbufs : Nat := 2048

/-- Modelled from the spec: EF_VI_MAX_EFCT_RXQS is declared outside src/; the spec's RXQ
table holds "up to 8 per VI". -/
def efViMaxEfctRxqs : Nat := 8

def pktIdToIndexInSuperbuf (pktId : Nat) : Nat :=
  pktId &&& ((1 <<< pktIdPktBits) - 1)

def pktIdToGlobalSuperbufIx (pktId : Nat) : Nat :=
  pktId >>> pktIdPktBits

def pktIdToLocalSuperbufIx (pktId : Nat) : Nat :=
  pktIdToGlobalSuperbufIx pktId &&& (ciEfctMaxSuperbufs - 1)

def pktIdToRxqIx (pktId : Nat) : Nat :=
  pktIdToGlobalSuperbufIx pktId / ciEfctMaxSuperbufs

/-- The descriptor `efct_rx_desc_for_sb` points at, as an index into `vi_rxq.descriptors`. -/
def efctRxDescForSb (qid sbid : Nat) : Nat :=
  qid * ciEfctMaxSuperbufs ||| sbid

/-- The descriptor `efct_rx_desc` points at, as an index into `vi_rxq.descriptors`. -/
def efctRxDesc (pktId : Nat) : Nat :=
  pktIdToGlobalSuperbufIx pktId

/-- The argument is a `uint32_t`, so a 64-bit rxq pointer loses its sequence number first. -/
def rxqPtrToPktId (ptr : Nat) : Nat :=
  (ptr % 2 ^ 32) &&& 0x7fffffff

def rxqPtrToSentinel (ptr : Nat) : Nat :=
  (ptr % 2 ^ 32) >>> 31

/-- efct_superbuf_base in the user-space build, as a byte offset from
`efct_rxqs.q[0].superbuf`; `superbufBytes` is EFCT_RX_SUPERBUF_BYTES. -/
def efctSuperbufBase (superbufBytes pktId : Nat) : Nat :=
  pktIdToGlobalSuperbufIx pktId * superbufBytes

/-- efct_rx_header as a byte offset; `pktStride` is EFCT_PKT_STRIDE. -/
def efctRxHeader (superbufBytes pktStride pktId : Nat) : Nat :=
  efctSuperbufBase superbufBytes pktId + pktIdToIndexInSuperbuf pktId * pktStride

@[simp] theorem pktIdToIndexInSuperbuf_eq (p : Nat) : pktIdToIndexInSuperbuf p = p % 2 ^ 16 := by
  rw [pktIdToIndexInSuperbuf, pktIdPktBits, Nat.shiftLeft_eq, Nat.one_mul,
    Nat.and_pow_two_sub_one_eq_mod]

@[simp] theorem pktIdToGlobalSuperbufIx_eq (p : Nat) : pktIdToGlobalSuperbufIx p = p / 2 ^ 16 :=
  Nat.shiftRight_eq_div_pow p 16

@[simp] theorem pktIdToLocalSuperbufIx_eq (p : Nat) :
    pktIdToLocalSuperbufIx p = p / 2 ^ 16 % 2 ^ 11 := by
  rw [pktIdToLocalSuperbufIx, pktIdToGlobalSuperbufIx_eq,
    show ciEfctMaxSuperbufs - 1 = 2 ^ 11 - 1 from rfl, Nat.and_pow_two_sub_one_eq_mod]

@[simp] theorem pktIdToRxqIx_eq (p : Nat) : pktIdToRxqIx p = p / 2 ^ 16 / 2048 := by
  simp [pktIdToRxqIx, ciEfctMaxSuperbufs]

@[simp] theorem rxqPtrToPktId_eq (ptr : Nat) : rxqPtrToPktId ptr = ptr % 2 ^ 31 := by
  rw [rxqPtrToPktId, show (0x7fffffff : Nat) = 2 ^ 31 - 1 from rfl,
    Nat.and_pow_two_sub_one_eq_mod]
  omega

@[simp] theorem rxqPtrToSentinel_eq (ptr : Nat) : rxqPtrToSentinel ptr = ptr % 2 ^ 32 / 2 ^ 31 :=
  Nat.shiftRight_eq_div_pow (ptr % 2 ^ 32) 31

@[simp] theorem efctRxDesc_eq (p : Nat) : efctRxDesc p = p / 2 ^ 16 :=
  pktIdToGlobalSuperbufIx_eq p

/-- A bitwise or with a value below the other operand's lowest set bit is an addition. -/
theorem shiftLeft_or_eq_add {a b i : Nat} (hb : b < 2 ^ i) : b ||| a <<< i = a * 2 ^ i + b := by
  rw [Nat.lor_comm, Nat.shiftLeft_eq, Nat.mul_comm, ← Nat.mul_add_lt_is_or hb]

theorem shiftLeft_or_eq_add' {a b i : Nat} (hb : b < 2 ^ i) : a <<< i ||| b = a * 2 ^ i + b := by
  rw [Nat.lor_comm, shiftLeft_or_eq_add hb]

theorem efctRxDescForSb_eq {q sb : Nat} (hsb : sb < ciEfctMaxSuperbufs) :
    efctRxDescForSb q sb = q * ciEfctMaxSuperbufs + sb := by
  rw [efctRxDescForSb, show ciEfctMaxSuperbufs = 2 ^ 11 from rfl, Nat.mul_comm,
    Nat.mul_add_lt_is_or hsb]

/-- Distinct global superbuf indices have disjoint regions, so slots inside their superbufs
have distinct headers. -/
theorem efctRxHeader_ne {p p' bytes stride : Nat} (hg : p' / 2 ^ 16 ≠ p / 2 ^ 16)
    (hk : p % 2 ^ 16 * stride < bytes) (hk' : p' % 2 ^ 16 * stride < bytes) :
    efctRxHeader bytes stride p' ≠ efctRxHeader bytes stride p := by
  simp only [efctRxHeader, efctSuperbufBase, pktIdToGlobalSuperbufIx_eq,
    pktIdToIndexInSuperbuf_eq]
  intro he
  rcases Nat.lt_or_gt_of_ne hg with hlt | hlt
  · have := Nat.mul_le_mul_right bytes (Nat.succ_le_of_lt hlt)
    rw [Nat.succ_mul] at this
    omega
  · have := Nat.mul_le_mul_right bytes (Nat.succ_le_of_lt hlt)
    rw [Nat.succ_mul] at this
    omega

/-- The pkt_id that rx_rollover and efct_poll_rx build for slot `k` of superbuf `sb` of
queue `q` decodes back to its fields, leaves bit 31 to the sentinel, and reaches only the
descriptor of `(q, sb)`, and its superbuf region for slots inside the superbuf. -/
theorem pktId_layout {q sb k : Nat} (s : Bool) (hq : q < efViMaxEfctRxqs)
    (hsb : sb < ciEfctMaxSuperbufs) (hk : k < 2 ^ pktIdPktBits) :
    let p := ((q * ciEfctMaxSuperbufs + sb) <<< pktIdPktBits) + k
    p < 2 ^ pktIdTotalBits ∧ pktIdToRxqIx p = q ∧ pktIdToLocalSuperbufIx p = sb ∧
      pktIdToIndexInSuperbuf p = k ∧ rxqPtrToPktId (p ||| s.toNat <<< 31) = p ∧
      rxqPtrToSentinel (p ||| s.toNat <<< 31) = s.toNat ∧
      efctRxDesc p = efctRxDescForSb q sb ∧
      ∀ q' sb' k', q' < efViMaxEfctRxqs → sb' < ciEfctMaxSuperbufs → k' < 2 ^ pktIdPktBits →
        (q', sb') ≠ (q, sb) →
        let p' := ((q' * ciEfctMaxSuperbufs + sb') <<< pktIdPktBits) + k'
        efctRxDesc p' ≠ efctRxDesc p ∧
          ∀ bytes stride, k * stride < bytes → k' * stride < bytes →
            efctRxHeader bytes stride p' ≠ efctRxHeader bytes stride p := by
  simp only [efViMaxEfctRxqs, ciEfctMaxSuperbufs, pktIdPktBits, pktIdTotalBits,
    pktIdSbufBits, pktIdRxqBits] at *
  have hp : ((q * 2048 + sb) <<< 16) + k < 2 ^ 31 := by omega
  have hs : s.toNat < 2 := by cases s <;> decide
  refine ⟨by omega, by simp; omega, by simp; omega, by simp; omega, ?_, ?_,
    by simp [efctRxDescForSb_eq hsb, ciEfctMaxSuperbufs]; omega, ?_⟩
  · rw [rxqPtrToPktId_eq, shiftLeft_or_eq_add hp]; omega
  · rw [rxqPtrToSentinel_eq, shiftLeft_or_eq_add hp]; omega
  · intro q' sb' k' hq' hsb' hk' hne
    have hg : ((q' * 2048 + sb') <<< 16 + k') / 2 ^ 16 ≠ ((q * 2048 + sb) <<< 16 + k) / 2 ^ 16 := by
      intro he
      apply hne
      have : q' * 2048 + sb' = q * 2048 + sb := by omega
      simp only [Prod.mk.injEq]
      omega
    refine ⟨by simpa using hg, fun bytes stride hb hb' => efctRxHeader_ne hg ?_ ?_⟩
    · have : ((q * 2048 + sb) <<< 16 + k) % 2 ^ 16 = k := by omega
      rwa [this]
    · have : ((q' * 2048 + sb') <<< 16 + k') % 2 ^ 16 = k' := by omega
      rwa [this]

theorem pktId_layout_last_slot :
    (3 : Nat) < efViMaxEfctRxqs ∧ (2047 : Nat) < ciEfctMaxSuperbufs ∧
      (65535 : Nat) < 2 ^ pktIdPktBits ∧
      pktIdToLocalSuperbufIx (((3 * ciEfctMaxSuperbufs + 2047) <<< pktIdPktBits) + 65535) = 2047 :=
  ⟨by decide, by decide, by decide,
    (pktId_layout true (by decide : (3 : Nat) < efViMaxEfctRxqs)
      (by decide : (2047 : Nat) < ciEfctMaxSuperbufs)
      (by decide : (65535 : Nat) < 2 ^ pktIdPktBits)).2.2.1⟩

/-- With 1 MiB superbufs and a 2 KiB stride, slot 512 of superbuf 0 of queue 0, a packet index
below `2 ^ 16`, has the header of slot 0 of superbuf 1. -/
theorem pktId_slot_past_superbuf_overlaps :
    (0 : Nat) < efViMaxEfctRxqs ∧ (1 : Nat) < ciEfctMaxSuperbufs ∧ (512 : Nat) < 2 ^ pktIdPktBits ∧
      efctRxHeader (2 ^ 20) (2 ^ 11) (((0 * ciEfctMaxSuperbufs + 1) <<< pktIdPktBits) + 0) =
        efctRxHeader (2 ^ 20) (2 ^ 11) (((0 * ciEfctMaxSuperbufs + 0) <<< pktIdPktBits) + 512) := by
  decide

end EfctVi
