import EfctVi.TxQueue
import EfctVi.RxHeader

namespace EfctVi

/-- A 64-bit entry of the EFCT event queue, by the fields efct_vi.c reads from it with
CI_QWORD_FIELD: the phase and type of every event, the fields of a TX completion, and those of
the ERROR and TIME_SYNC control events. -/
structure EfctEvent where
  phase : Nat
  type : Nat
  txSequence : Nat
  txTimestampStatus : Nat
  txPartialTstamp : Nat
  txLabel : Nat
  ctrlSubtype : Nat
  errorLabel : Nat
  errorReason : Nat
  timeSyncTimeHigh : Nat
  timeSyncClockInSync : Nat
  timeSyncClockIsSet : Nat
  deriving DecidableEq, Repr

/-- The constants of the hardware, ef_vi and configuration headers that the TX event path uses
without defining: the EFCT_EVENT_TYPE_* and EFCT_CTRL_EV_* codes, EFCT_TX_EVENT_SEQUENCE_WIDTH,
the EF_VI_SYNC_FLAG_* bits, CI_CFG_TIME_SYNC_EVENT_EVQ_CAPACITY,
EF_EVENT_TX_WITH_TIMESTAMP_SYNC_MASK and EF_EVENT_FLAG_CTPIO. -/
structure EfctEvDefs where
  eventTypeTx : Nat
  eventTypeControl : Nat
  ctrlEvError : Nat
  ctrlEvFlush : Nat
  ctrlEvTimeSync : Nat
  ctrlEvUnsolOverflow : Nat
  txEventSequenceWidth : Nat
  syncFlagClockInSync : Nat
  syncFlagClockSet : Nat
  timeSyncEventEvqCapacity : Nat
  txWithTimestampSyncMask : Nat
  eventFlagCtpio : Nat
  deriving DecidableEq, Repr

/-- The event queue of an EFCT ef_vi: evq_mask and the ring at evq_base, by byte offset; from
ep_state->evq the 32-bit evq_ptr, the time sync fields and unsol_credit_seq; and the VI's
unsol_credit_seq_mask and ts_subnano_bits. -/
structure EvqState where
  evqMask : Nat
  ring : Nat → EfctEvent
  evqPtr : Nat
  syncTimestampMajor : Nat
  syncTimestampMinor : Nat
  syncFlags : Nat
  unsolCreditSeq : Nat
  unsolCreditSeqMask : Nat
  tsSubnanoBits : Nat

/-- The TX queue and the event queue, which efct_poll_tx reads and updates together. -/
structure TxPollState where
  vi : TxVi
  evq : EvqState

/-- efct_tx_get_event: the event at `evq_ptr` when its phase bit is the one expected on the
current lap of the ring. -/
def efctTxGetEvent (evq : EvqState) (evqPtr : Nat) : Option EfctEvent :=
  let event := evq.ring (evqPtr &&& evq.evqMask)
  let expectPhase := if evqPtr &&& (evq.evqMask + 1) ≠ 0 then 1 else 0
  if event.phase = expectPhase then some event else none

def efctTxCheckEvent (evq : EvqState) : Bool :=
  evq.evqMask != 0 && (efctTxGetEvent evq evq.evqPtr).isSome

/-- The body of efct_tx_handle_event's loop: the oldest descriptor is retired, its len added
to ct_removed. -/
def txRetireOne (vi : TxVi) : TxVi :=
  { vi with
    ctRemoved := (vi.ctRemoved + vi.descLen (vi.previous &&& vi.mask)) % 2 ^ 32
    previous := (vi.previous + 1) % 2 ^ 32 }

/-- The loop of efct_tx_handle_event, run at most `fuel` times: descriptors are retired in
order until the low bits `seqMask` of `previous` reach `target`. -/
def txRetire (seqMask target : Nat) : Nat → TxVi → TxVi
  | 0, vi => vi
  | fuel + 1, vi =>
    if vi.previous &&& seqMask = target then vi else txRetire seqMask target fuel (txRetireOne vi)

/-- efct_tx_handle_event. The retiring loop is given `2 ^ EFCT_TX_EVENT_SEQUENCE_WIDTH` rounds,
as many as there are values of the sequence. -/
def efctTxHandleEvent (d : EfctEvDefs) (s : TxPollState) (event : EfctEvent) :
    TxPollState × EfEvent :=
  let seq := event.txSequence
  let seqMask := 2 ^ d.txEventSequenceWidth - 1
  let vi := txRetire seqMask ((seq + 1) &&& seqMask) (2 ^ d.txEventSequenceWidth) s.vi
  if event.txTimestampStatus ≠ 0 then
    let ptstamp := event.txPartialTstamp
    let ptstampSeconds := (ptstamp >>> 32) % 2 ^ 32
    let timesyncSeconds := s.evq.syncTimestampMajor &&& 0xFF
    let tsSec := if ptstampSeconds = (timesyncSeconds + 1) % 256
      then (s.evq.syncTimestampMajor + 1) % 2 ^ 32 else s.evq.syncTimestampMajor
    let tsNsec := (ptstamp &&& 0xFFFFFFFF) >>> s.evq.tsSubnanoBits
    let tsNsec := tsNsec &&& (2 ^ 32 - 1 - d.txWithTimestampSyncMask) ||| s.evq.syncFlags
    ({ s with vi := { vi with removed := (vi.removed + 1) % 2 ^ 32 } },
      .txWithTimestamp tsSec tsNsec (vi.ids (wrapSub 32 vi.previous 1 &&& vi.mask))
        d.eventFlagCtpio event.txLabel)
  else ({ s with vi := vi }, .tx vi.previous event.txLabel d.eventFlagCtpio)

def efctTxHandleErrorEvent (s : TxPollState) (event : EfctEvent) : TxPollState × EfEvent :=
  let previous := (s.vi.previous + 1) % 2 ^ 32
  ({ s with vi := { s.vi with previous := previous } },
    .txError event.errorLabel 0 previous event.errorReason)

/-- efct_grant_unsol_credit, as the value it writes to the unsolicited-credit register. -/
def efctGrantUnsolCredit (evq : EvqState) (clearOverflow : Bool) (creditSeq : Nat) :
    Bool × Nat :=
  (clearOverflow, creditSeq &&& evq.unsolCreditSeqMask)

/-- efct_tx_handle_control_event: the new state, the events it outputs and its writes to the
unsolicited-credit register. -/
def efctTxHandleControlEvent (d : EfctEvDefs) (s : TxPollState) (event : EfctEvent) :
    TxPollState × List EfEvent × List (Bool × Nat) :=
  if event.ctrlSubtype = d.ctrlEvError then
    let r := efctTxHandleErrorEvent s event
    (r.1, [r.2], [])
  else if event.ctrlSubtype = d.ctrlEvFlush then (s, [], [])
  else if event.ctrlSubtype = d.ctrlEvTimeSync then
    let timeSync := if event.timeSyncClockInSync ≠ 0 then d.syncFlagClockInSync else 0
    let timeSet := if event.timeSyncClockIsSet ≠ 0 then d.syncFlagClockSet else 0
    let evq := { s.evq with
      syncTimestampMajor := (event.timeSyncTimeHigh >>> 16) % 2 ^ 32
      syncTimestampMinor := event.timeSyncTimeHigh &&& 0xFFFF
      syncFlags := timeSync ||| timeSet
      unsolCreditSeq := (s.evq.unsolCreditSeq + 1) % 2 ^ 32 }
    ({ s with evq := evq }, [], [efctGrantUnsolCredit evq false evq.unsolCreditSeq])
  else if event.ctrlSubtype = d.ctrlEvUnsolOverflow then
    let evq := { s.evq with unsolCreditSeq := d.timeSyncEventEvqCapacity - 1 }
    ({ s with evq := evq }, [], [efctGrantUnsolCredit evq true evq.unsolCreditSeq])
  else (s, [], [])

/-- What a run of efct_poll_tx's loop leaves: the state, the events written to `evs`, the
events it took from the ring (a ghost record), and the unsolicited-credit register writes. -/
structure PollTxResult where
  state : TxPollState
  evs : List EfEvent
  consumed : List EfctEvent
  grants : List (Bool × Nat)

/-- The loop of efct_poll_tx past its overflow BUG_ON, with `n` events already output, run for
at most `fuel` entries of the ring. -/
def pollTxLoop (d : EfctEvDefs) (evsLen : Int) : Nat → Nat → TxPollState → PollTxResult
  | 0, _, s => ⟨s, [], [], []⟩
  | fuel + 1, n, s =>
    if evsLen ≤ n then ⟨s, [], [], []⟩
    else match efctTxGetEvent s.evq s.evq.evqPtr with
      | none => ⟨s, [], [], []⟩
      | some event =>
        let s := { s with evq := { s.evq with evqPtr := (s.evq.evqPtr + 8) % 2 ^ 32 } }
        if event.type = d.eventTypeTx then
          let r := efctTxHandleEvent d s event
          ⟨r.1, [r.2], [event], []⟩
        else
          let r := if event.type = d.eventTypeControl then efctTxHandleControlEvent d s event
            else (s, [], [])
          let rest := pollTxLoop d evsLen fuel (n + r.2.1.length) r.1
          ⟨rest.state, r.2.1 ++ rest.evs, event :: rest.consumed, r.2.2 ++ rest.grants⟩

/-- efct_poll_tx. Its loop is bounded by a lap of the ring and one entry more; while the NIC
stays less than a lap ahead the loop stops by itself before that (pollTxLoop_takes). -/
def efctPollTx (d : EfctEvDefs) (s : TxPollState) (evsLen : Int) : PollTxResult :=
  pollTxLoop d evsLen ((s.evq.evqMask + 1) / 8 + 1) 0 s

end EfctVi
