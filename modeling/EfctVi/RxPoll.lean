import EfctVi.RxHeader

namespace EfctVi

/-- The two bits of a queue's live `time_sync` word that efct_vi_rxpkt_get_timestamp reports. -/
structure TimeSync where
  clockIsSet : Bool
  clockInSync : Bool
  deriving DecidableEq, Repr

structure RxDescriptor where
  refcnt : Nat
  superbufPkts : Nat
  sbidNext : Int
  finalTsStatus : Nat
  finalTimestamp : Nat

structure RxqPtr where
  next : Nat
  prev : Nat
  «end» : Nat

/-- ef_vi_efct_rxq: the hardware queue id, the cached generation, and the words another agent
publishes behind its `live` pointers. -/
structure EfctRxq where
  qid : Int
  configGeneration : Nat
  liveSuperbufPkts : Nat
  liveConfigGeneration : Nat
  liveTimeSync : TimeSync

/-- The receive side of a VI; `superbuf` gives the header that efct_rx_header finds at each
pkt_id slot. -/
structure RxState where
  rxqPtr : Nat → RxqPtr
  q : Nat → EfctRxq
  descriptors : Nat → RxDescriptor
  sbDescFreeHead : Nat → Int
  superbuf : Nat → RxHeader
  rxDiscardMask : DiscardFlags

namespace RxState

@[simp] def setPtr (s : RxState) (qid : Nat) (p : RxqPtr) : RxState :=
  { s with rxqPtr := Function.update s.rxqPtr qid p }

@[simp] def setRxq (s : RxState) (qid : Nat) (r : EfctRxq) : RxState :=
  { s with q := Function.update s.q qid r }

@[simp] def setDesc (s : RxState) (ix : Nat) (d : RxDescriptor) : RxState :=
  { s with descriptors := Function.update s.descriptors ix d }

end RxState

/-- What a successful `ops->next` hands back: its return value, the local superbuf index, and
what it writes through `sentinel` and the `unsigned` `sbseq`. -/
structure SbGrant where
  sb : Nat
  sentinel : Bool
  sbseq : Nat
  sbseq_lt : sbseq < 2 ^ 32

def efctRxqIsActive (rxq : EfctRxq) : Bool :=
  rxq.liveSuperbufPkts != 0

def efctRxqNeedRollover (ptr : RxqPtr) : Bool :=
  ptr.end ≤ rxqPtrToPktId ptr.next

def efctRxqNeedConfig (rxq : EfctRxq) : Bool :=
  rxq.liveConfigGeneration != rxq.configGeneration

def efctRxNextHeader (s : RxState) (next : Nat) : Option RxHeader :=
  let header := s.superbuf (rxqPtrToPktId next)
  if header.sentinel.toNat = rxqPtrToSentinel next then some header else none

/-- efct_vi_rxpkt_release; the list holds the `ops->free` calls it makes. -/
def efctViRxpktRelease (s : RxState) (pktId : Nat) : RxState × List (Nat × Nat) :=
  let ix := efctRxDesc pktId
  let desc := s.descriptors ix
  let refcnt := wrapSub 16 desc.refcnt 1
  (s.setDesc ix { desc with refcnt },
    if refcnt = 0 then [(pktIdToRxqIx pktId, pktIdToLocalSuperbufIx pktId)] else [])

/-- rx_rollover: `grant` is what `ops->next` returned, `none` for a negative rc, after which
nothing has changed. The list holds the `ops->free` calls made on the nodesc path. -/
def rxRollover (s : RxState) (qid : Nat) : Option SbGrant → Option (RxState × List (Nat × Nat))
  | none => none
  | some g =>
    let superbufPkts := (s.q qid).liveSuperbufPkts
    let ptr := s.rxqPtr qid
    let pktId := ((qid * ciEfctMaxSuperbufs + g.sb) <<< pktIdPktBits) % 2 ^ 32
    let next := pktId ||| g.sentinel.toNat <<< 31
    let (s, next, frees) :=
      if ptr.end = 0 then (s.setPtr qid { ptr with prev := pktId }, (next + 1) % 2 ^ 32, [])
      else if g.sbseq ≠ ptr.next >>> 32 + 1 then
        let (s, frees) := efctViRxpktRelease s ptr.prev
        (s.setPtr qid { s.rxqPtr qid with prev := pktId }, (next + 1) % 2 ^ 32, frees)
      else (s, next, [])
    let s := s.setPtr qid
      { s.rxqPtr qid with next := g.sbseq <<< 32 ||| next, «end» := (pktId + superbufPkts) % 2 ^ 32 }
    let ix := efctRxDesc pktId
    some (s.setDesc ix
      { s.descriptors ix with refcnt := superbufPkts % 2 ^ 16, superbufPkts := superbufPkts % 2 ^ 16 },
      frees)

/-- One pass of efct_poll_rx's loop over a header whose sentinel matched: either the ROLLOVER
branch, which breaks out of the loop, or an event for `prev`. -/
inductive PollRxIter
  | stop (s : RxState) (frees : List (Nat × Nat))
  | emit (s : RxState) (ev : EfEvent)

/-- The end of every pass that produces an event: the header's timestamp is stashed in the
descriptor of `prev`, and `prev` moves to `next`, which steps on. -/
def pollRxAdvance (qid : Nat) (s : RxState) (header : RxHeader) : RxState :=
  let ptr := s.rxqPtr qid
  let ix := efctRxDesc ptr.prev
  (s.setDesc ix { s.descriptors ix with
      finalTimestamp := header.timestamp, finalTsStatus := header.timestampStatus }).setPtr qid
    { ptr with prev := rxqPtrToPktId ptr.next, next := (ptr.next + 1) % 2 ^ 64 }

/-- The ROLLOVER branch: the references of the unused slots are dropped (or that of `prev` alone,
freeing the next superbuf), `prev`'s superbuf is freed at zero, and `end = 0`. -/
def pollRxRolloverHeader (qid : Nat) (s : RxState) : RxState × List (Nat × Nat) :=
  let ptr := s.rxqPtr qid
  let pktId := ptr.prev
  let ix := efctRxDesc pktId
  let desc := s.descriptors ix
  let prevSb := pktIdToLocalSuperbufIx pktId
  let nextSb := pktIdToLocalSuperbufIx (rxqPtrToPktId ptr.next)
  let (nskipped, frees) :=
    if nextSb = prevSb then (wrapSub 32 ptr.end pktId, []) else (1, [(qid, nextSb)])
  let refcnt := wrapSub 16 desc.refcnt nskipped
  ((s.setDesc ix { desc with refcnt }).setPtr qid { ptr with «end» := 0 },
    frees ++ if refcnt = 0 then [(qid, prevSb)] else [])

def pollRxStep (c : RxHeaderCodes) (qid : Nat) (s : RxState) (header : RxHeader) : PollRxIter :=
  let pktId := (s.rxqPtr qid).prev
  let rxq := s.q qid
  match headerAction c s.rxDiscardMask header with
  | .rollover =>
    let r := pollRxRolloverHeader qid s
    .stop r.1 r.2
  | .discard flags =>
    .emit (pollRxAdvance qid s header)
      (.rxRefDiscard header.packetLength pktId rxq.qid header.filter header.user flags)
  | .ref =>
    .emit (pollRxAdvance qid s header)
      (.rxRef header.packetLength pktId rxq.qid header.filter header.user)

/-- efct_poll_rx's loop, run for at most `n` headers. -/
def pollRxLoop (c : RxHeaderCodes) (qid : Nat) :
    Nat → RxState → RxState × List EfEvent × List (Nat × Nat)
  | 0, s => (s, [], [])
  | n + 1, s =>
    match efctRxNextHeader s (s.rxqPtr qid).next with
    | none => (s, [], [])
    | some header =>
      match pollRxStep c qid s header with
      | .stop s frees => (s, [], frees)
      | .emit s ev =>
        let r := pollRxLoop c qid n s
        (r.1, ev :: r.2.1, r.2.2)

/-- The budget clamp of efct_poll_rx: never past the end of the current superbuf. -/
def pollRxBudget (ptr : RxqPtr) (evsLen : Int) : Nat :=
  (min evsLen (toInt32 (wrapSub 32 ptr.end (rxqPtrToPktId ptr.next)))).toNat

def efctPollRxHeaders (c : RxHeaderCodes) (qid : Nat) (evsLen : Int) (s : RxState)
    (frees : List (Nat × Nat)) : RxState × List EfEvent × List (Nat × Nat) :=
  let r := pollRxLoop c qid (pollRxBudget (s.rxqPtr qid) evsLen) s
  (r.1, r.2.1, frees ++ r.2.2)

/-- The generations another agent writes to the queue's `*live.config_generation` while
efct_poll_rx checks its configuration: before the OO_ACCESS_ONCE read, while ops->refresh runs,
and after the write back. -/
structure ConfigPublishes where
  beforeRead : List Nat
  duringRefresh : List Nat
  afterWrite : List Nat

def ConfigPublishes.all (pubs : ConfigPublishes) : List Nat :=
  pubs.beforeRead ++ pubs.duringRefresh ++ pubs.afterWrite

/-- No other agent writes the live generation during the poll. -/
def noPublishes : ConfigPublishes := ⟨[], [], []⟩

/-- The other agent's writes of `gens`, in order, to `*live.config_generation` of queue `qid`. -/
def publishGens (qid : Nat) (gens : List Nat) (s : RxState) : RxState :=
  gens.foldl (fun s g => s.setRxq qid { s.q qid with liveConfigGeneration := g }) s

/-- efct_poll_rx from the configuration check on, in the user-space build, while another agent
writes `pubs`: the generation read before ops->refresh is written back whatever the refresh
returns, and a failed refresh reads no header. -/
def pollRxAfterRollover (c : RxHeaderCodes) (qid : Nat) (refreshOk : Bool)
    (pubs : ConfigPublishes) (evsLen : Int) (s : RxState) (frees : List (Nat × Nat)) :
    RxState × List EfEvent × List (Nat × Nat) :=
  if efctRxqNeedConfig (s.q qid) then
    let s := publishGens qid pubs.beforeRead s
    let newGeneration := (s.q qid).liveConfigGeneration
    let s := publishGens qid pubs.duringRefresh s
    let s := publishGens qid pubs.afterWrite
      (s.setRxq qid { s.q qid with configGeneration := newGeneration })
    if refreshOk then efctPollRxHeaders c qid evsLen s frees else (s, [], frees)
  else efctPollRxHeaders c qid evsLen (publishGens qid pubs.all s) frees

/-- With no other writer, the check writes back the live generation it finds. -/
theorem pollRxAfterRollover_quiet (c : RxHeaderCodes) (qid : Nat) (refreshOk : Bool)
    (evsLen : Int) (s : RxState) (frees : List (Nat × Nat)) :
    pollRxAfterRollover c qid refreshOk noPublishes evsLen s frees =
      if efctRxqNeedConfig (s.q qid) then
        let s := s.setRxq qid { s.q qid with configGeneration := (s.q qid).liveConfigGeneration }
        if refreshOk then efctPollRxHeaders c qid evsLen s frees else (s, [], frees)
      else efctPollRxHeaders c qid evsLen s frees :=
  rfl

/-- efct_poll_rx. `grant` answers `ops->next` and `refreshOk` answers `ops->refresh`, each
read only if the call is made; the result is the new state, the events written to `evs`
(their number is the return value) and the `ops->free` calls. -/
def efctPollRx (c : RxHeaderCodes) (qid : Nat) (grant : Option SbGrant) (refreshOk : Bool)
    (evsLen : Int) (s : RxState) : RxState × List EfEvent × List (Nat × Nat) :=
  match (if efctRxqNeedRollover (s.rxqPtr qid) then rxRollover s qid grant else some (s, [])) with
  | none => (s, [], [])
  | some (s, frees) => pollRxAfterRollover c qid refreshOk noPublishes evsLen s frees

def efctViStartRxq (s : RxState) (ix : Nat) (qid : Int) : RxState :=
  (s.setRxq ix { s.q ix with qid, configGeneration := 0 }).setPtr ix
    { s.rxqPtr ix with «end» := 0 }

/-- The event for `prev` once the coarse check's false positives are dropped, for a header
without ROLLOVER: RX_REF_DISCARD with `header_status_flags(header) & rx_discard_mask` when that
is nonzero, RX_REF otherwise. -/
def specRxEvent (c : RxHeaderCodes) (q : Nat) (s : RxState) (header : RxHeader) : EfEvent :=
  let flags := (headerStatusFlags c header).and s.rxDiscardMask
  if flags.isZero then
    .rxRef header.packetLength (s.rxqPtr q).prev (s.q q).qid header.filter header.user
  else .rxRefDiscard header.packetLength (s.rxqPtr q).prev (s.q q).qid header.filter header.user flags

/-- On a header without ROLLOVER, efct_poll_rx emits the event of the full classification
exactly when a masked status field is set, or when the masked flags are zero. -/
theorem pollRxStep_matches_spec_iff (c : RxHeaderCodes) (q : Nat) (s : RxState)
    (header : RxHeader) (hroll : header.rollover = false) :
    pollRxStep c q s header = .emit (pollRxAdvance q s header) (specRxEvent c q s header) ↔
      checkFields header = true ∨ ((headerStatusFlags c header).and s.rxDiscardMask).isZero = true := by
  cases hc : checkFields header <;> cases hz : ((headerStatusFlags c header).and s.rxDiscardMask).isZero <;>
    simp [pollRxStep, headerAction, specRxEvent, hc, hz, hroll]

/-- A header whose only discard reason is an L4 class of OTHER, under the mask that asks for
exactly that discard, goes out as RX_REF. -/
theorem pollRxStep_class_other_mismatch :
    ∃ (s : RxState) (header : RxHeader),
      s.rxDiscardMask = efctEfViReceiveSetDiscards ⟨false, false, false, false, false, false, true⟩ ∧
      header.rollover = false ∧
      (headerStatusFlags ⟨1, 2, 0, 1, 2, 0, 1, 3, 0⟩ header) =
        ⟨false, false, false, false, false, false, true⟩ ∧
      ¬pollRxStep ⟨1, 2, 0, 1, 2, 0, 1, 3, 0⟩ 0 s header =
        .emit (pollRxAdvance 0 s header) (specRxEvent ⟨1, 2, 0, 1, 2, 0, 1, 3, 0⟩ 0 s header) :=
  ⟨⟨fun _ => ⟨0, 0, 0⟩, fun _ => ⟨0, 0, 0, 0, ⟨false, false⟩⟩, fun _ => ⟨0, 0, 0, 0, 0⟩,
      fun _ => -1, fun _ => ⟨0, 0, 0, 0, 0, 0, 0, 0, false, false, 0, 0, 0, 0, by decide, by decide⟩,
      efctEfViReceiveSetDiscards ⟨false, false, false, false, false, false, true⟩⟩,
    ⟨0, 1, 1, 0, 0, 0, 3, 0, false, true, 0, 0, 0, 0, by decide, by decide⟩, rfl, rfl, rfl,
    fun he => by
      have := (pollRxStep_matches_spec_iff _ _ _ _ rfl).mp he
      revert this
      decide⟩

end EfctVi
