import EfctVi.RxFuture
import EfctVi.TxRing

namespace EfctVi

def ealready : Int := 114

def enospc : Int := 28

/-- The loop of efct_vi_find_free_rxq from slot `ix`, with `n` slots left below `max_qs`. -/
def findFreeRxqFrom (q : Nat → EfctRxq) (qid : Int) (ix : Nat) : Nat → Int
  | 0 => -enospc
  | n + 1 =>
    if (q ix).qid = qid then -ealready
    else if !efctRxqIsActive (q ix) then ix
    else findFreeRxqFrom q qid (ix + 1) n

def efctViFindFreeRxq (s : RxState) (maxQs qid : Int) : Int :=
  findFreeRxqFrom s.q qid 0 maxQs.toNat

/-- The ring of `mask + 1` packet buffers, each `EFCT_PKT_STRIDE` bytes, that
efct_post_filter_add asks ops->attach to back with superbufs. -/
def postFilterRingBytes (e : EfctRxDefs) (rxqMask : Nat) : Nat :=
  (rxqMask + 1) * e.pktStride % 2 ^ 32

/-- efct_post_filter_add in the user-space build: `blockOnly` is ef_vi_filter_is_block_only of
the cookie, and `attach` answers ops->attach for the number of superbufs it is asked for. -/
def efctPostFilterAdd (e : EfctRxDefs) (rxqMask : Nat) (blockOnly : Bool)
    (attach : Nat → Int) : Int :=
  if blockOnly then 0
  else
    let nSuperbufs :=
      ciRoundUp (postFilterRingBytes e rxqMask) e.superbufBytes % 2 ^ 32 / e.superbufBytes
    let rc := attach nSuperbufs
    if rc = -ealready then 0 else rc

/-- The fields of efab_nic_design_parameters that efct_design_parameters reads. -/
structure NicDesignParameters where
  rxSuperbufBytes : Nat
  rxFrameOffset : Nat
  txApertureBytes : Nat
  txFifoBytes : Nat
  timestampSubnanoBits : Nat
  unsolCreditSeqMask : Nat
  deriving DecidableEq, Repr

def eopnotsupp : Int := 95

/-- Modelled from the spec: EF_VI_IS_POW2 is defined outside src/; the spec asks
tx_aperture_bytes to be a power of two, tested here as a nonzero x with x & (x - 1) zero. -/
def efViIsPow2 (x : Nat) : Bool :=
  x != 0 && (x &&& (x - 1)) == 0

/-- efct_design_parameters: -EOPNOTSUPP with nothing written for a NIC the critical path cannot
take; otherwise 0, with the TX and event fields taken from the NIC. -/
def efctDesignParameters (e : EfctRxDefs) (dp : NicDesignParameters) (s : TxPollState) :
    Int × TxPollState :=
  if dp.rxSuperbufBytes ≠ e.superbufBytes then (-eopnotsupp, s)
  else if (dp.rxFrameOffset : Int) ≠ e.nextFrameLoc1 - 2 then (-eopnotsupp, s)
  else if !efViIsPow2 dp.txApertureBytes then (-eopnotsupp, s)
  else
    (0, ⟨{ s.vi with
        efctApertureMask := (dp.txApertureBytes - 1) >>> 3
        ctFifoBytes := wrapSub 32 dp.txFifoBytes (efctTxAlignment + efctTxHeaderBytes) },
      { s.evq with
        tsSubnanoBits := dp.timestampSubnanoBits
        unsolCreditSeqMask := dp.unsolCreditSeqMask }⟩)

section DesignParameters

variable {e : EfctRxDefs} {dp : NicDesignParameters} {s : TxPollState}

/-- A NIC that efct_design_parameters turns down leaves the VI as it was. -/
theorem efctDesignParameters_rejected (h : (efctDesignParameters e dp s).1 ≠ 0) :
    (efctDesignParameters e dp s).2 = s := by
  unfold efctDesignParameters at h ⊢
  split_ifs at h ⊢
  · rfl
  · rfl
  · rfl
  · exact absurd rfl h

/-- The ct_fifo_bytes that efct_design_parameters accepts from a NIC whose tx_fifo_bytes is a
multiple of 64 in [128, 2^31) is the FIFO the TX ring accounting runs on. -/
theorem efctDesignParameters_fifo (h : (efctDesignParameters e dp s).1 = 0)
    (h64 : dp.txFifoBytes % 64 = 0) (hlo : 128 ≤ dp.txFifoBytes) (hhi : dp.txFifoBytes < 2 ^ 31) :
    FifoFromNic (efctDesignParameters e dp s).2.vi := by
  unfold efctDesignParameters at h ⊢
  split_ifs at h ⊢
  · simp [eopnotsupp] at h
  · simp [eopnotsupp] at h
  · simp [eopnotsupp] at h
  · exact ⟨_, h64, hlo, hhi, rfl⟩

end DesignParameters

end EfctVi
