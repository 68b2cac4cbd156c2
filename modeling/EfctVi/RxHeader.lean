import EfctVi.PktId

namespace EfctVi

/-- The EFCT_RX_HEADER_*_CLASS_* and EFCT_RX_HEADER_L2_STATUS_* codes that
header_status_flags compares against. They are hardware constants declared outside src/, so
the model takes them as a parameter. -/
structure RxHeaderCodes where
  l2StatusFcsErr : Nat
  l2StatusLenErr : Nat
  l3ClassIp4 : Nat
  l3ClassIp6 : Nat
  l3ClassOther : Nat
  l4ClassTcp : Nat
  l4ClassUdp : Nat
  l4ClassOther : Nat
  l2ClassOther : Nat

/-- A 128-bit RX metadata header, field by field as CI_OWORD_FIELD reads it. TIMESTAMP is
a 64-bit field and TIMESTAMP_STATUS fits the byte that `final_ts_status` keeps. -/
structure RxHeader where
  packetLength : Nat
  nextFrameLoc : Nat
  l2Class : Nat
  l2Status : Nat
  l3Class : Nat
  l3Status : Nat
  l4Class : Nat
  l4Status : Nat
  rollover : Bool
  sentinel : Bool
  filter : Nat
  user : Nat
  timestamp : Nat
  timestampStatus : Nat
  timestamp_lt : timestamp < 2 ^ 64
  timestampStatus_lt : timestampStatus < 2 ^ 8
  deriving DecidableEq

/-- A set of the EF_VI_DISCARD_RX_* flags that efct_ef_vi_receive_set_discards keeps, one
bit each; `&`, `|=` and the test against zero act bit by bit. -/
structure DiscardFlags where
  l4CsumErr : Bool
  l3CsumErr : Bool
  ethFcsErr : Bool
  ethLenErr : Bool
  l2ClassOther : Bool
  l3ClassOther : Bool
  l4ClassOther : Bool
  deriving DecidableEq, Repr

namespace DiscardFlags

def and (a b : DiscardFlags) : DiscardFlags where
  l4CsumErr := a.l4CsumErr && b.l4CsumErr
  l3CsumErr := a.l3CsumErr && b.l3CsumErr
  ethFcsErr := a.ethFcsErr && b.ethFcsErr
  ethLenErr := a.ethLenErr && b.ethLenErr
  l2ClassOther := a.l2ClassOther && b.l2ClassOther
  l3ClassOther := a.l3ClassOther && b.l3ClassOther
  l4ClassOther := a.l4ClassOther && b.l4ClassOther

def isZero (a : DiscardFlags) : Bool :=
  !(a.l4CsumErr || a.l3CsumErr || a.ethFcsErr || a.ethLenErr || a.l2ClassOther ||
    a.l3ClassOther || a.l4ClassOther)

end DiscardFlags

/-- The `rx_discard_mask` efct_vi_init installs. -/
def defaultRxDiscardMask : DiscardFlags :=
  ⟨true, true, true, true, false, false, false⟩

/-- The mask efct_ef_vi_receive_set_discards installs; every flag outside the seven it keeps
has no place in `DiscardFlags`, so its `&=` leaves the argument as it is. -/
def efctEfViReceiveSetDiscards (discardErrFlags : DiscardFlags) : DiscardFlags :=
  discardErrFlags

def headerStatusFlags (c : RxHeaderCodes) (h : RxHeader) : DiscardFlags where
  ethFcsErr := h.l2Status == c.l2StatusFcsErr
  ethLenErr := h.l2Status == c.l2StatusLenErr
  l3CsumErr := (h.l3Class == c.l3ClassIp4 && h.l3Status != 0) ||
    (h.l3Class == c.l3ClassIp6 && h.l3Status != 0)
  l4CsumErr := (h.l4Class == c.l4ClassTcp && h.l4Status != 0) ||
    (h.l4Class == c.l4ClassUdp && h.l4Status != 0)
  l4ClassOther := h.l4Class == c.l4ClassOther
  l3ClassOther := h.l3Class == c.l3ClassOther
  l2ClassOther := h.l2Class == c.l2ClassOther

/-- `header->u64[0] & CHECK_FIELDS` is nonzero: one of the masked fields is. -/
def checkFields (h : RxHeader) : Bool :=
  h.l2Status != 0 || h.l3Status != 0 || h.l4Status != 0 || h.rollover

/-- What efct_poll_rx does with a valid header: the coarse test, then either the ROLLOVER
branch, a discard with the masked flags, or a normal RX_REF. -/
inductive HeaderAction
  | rollover
  | discard (flags : DiscardFlags)
  | ref
  deriving DecidableEq, Repr

def headerAction (c : RxHeaderCodes) (mask : DiscardFlags) (h : RxHeader) : HeaderAction :=
  if checkFields h && (h.rollover || !((headerStatusFlags c h).and mask).isZero) then
    if h.rollover then .rollover else .discard ((headerStatusFlags c h).and mask)
  else .ref

/-- The events this file writes into `evs`, one constructor per `ef_event` member it fills. -/
inductive EfEvent
  | rxRef (len pktId : Nat) (qId : Int) (filterId user : Nat)
  | rxRefDiscard (len pktId : Nat) (qId : Int) (filterId user : Nat) (flags : DiscardFlags)
  | tx (descId qId flags : Nat)
  | txWithTimestamp (tsSec tsNsec rqId flags qId : Nat)
  | txError (qId flags descId subtype : Nat)
  deriving DecidableEq, Repr

end EfctVi
