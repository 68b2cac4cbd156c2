import EfctVi.RxRefcount

namespace EfctVi

/-- A slot of the current superbuf at or past `next`, which no poll has read yet. -/
def unread (ptr : RxqPtr) (p : Nat) : Prop :=
  ptr.end ≠ 0 ∧ rxqPtrToPktId ptr.next ≤ p ∧ p < ptr.end

/-- TIMESTAMP and TIMESTAMP_STATUS, the fields a timestamp is read from. -/
def RxHeader.stamp (h : RxHeader) : Nat × Nat :=
  (h.timestamp, h.timestampStatus)

/-- The superbuf_pkts of the descriptor of local superbuf `sb` of queue `q`. -/
def sbPkts (q : Nat) (s : RxState) (sb : Nat) : Nat :=
  (s.descriptors (efctRxDescForSb q sb)).superbufPkts

/-- The final timestamp and status stashed in that descriptor. -/
def sbFinal (q : Nat) (s : RxState) (sb : Nat) : Nat × Nat :=
  ((s.descriptors (efctRxDescForSb q sb)).finalTimestamp,
    (s.descriptors (efctRxDescForSb q sb)).finalTsStatus)

/-- `x` is the last slot of its superbuf, by the superbuf_pkts of its descriptor. -/
def lastSlot (q : Nat) (s : RxState) (x : Nat) : Prop :=
  pktIdToIndexInSuperbuf x + 1 = sbPkts q s (pktIdToLocalSuperbufIx x)

/-- Where efct_vi_rxpkt_get_timestamp finds the stamp of a delivered pkt_id `x`: in the next slot
while `x` is not the last of its superbuf, otherwise in its descriptor's final stash. `apart` and
`read` keep later passes and NIC writes off that place. -/
structure StampAt (q : Nat) (t : RxTrace) (x : Nat) : Prop where
  lt_pkts : pktIdToIndexInSuperbuf x < sbPkts q t.vi (pktIdToLocalSuperbufIx x)
  final : lastSlot q t.vi x → sbFinal q t.vi (pktIdToLocalSuperbufIx x) = (t.deliveredBy x).stamp
  apart : lastSlot q t.vi x → (t.vi.rxqPtr q).end ≠ 0 →
    pktIdToLocalSuperbufIx x ≠ pktIdToLocalSuperbufIx (t.vi.rxqPtr q).prev ∧
      ∀ g N rest, t.grants = (g, N) :: rest → pktIdToLocalSuperbufIx x ≠ g.sb
  inner : ¬lastSlot q t.vi x → (t.vi.superbuf (x + 1)).stamp = (t.deliveredBy x).stamp ∧
    pktIdToRxqIx (x + 1) = q ∧ pktIdToLocalSuperbufIx (x + 1) = pktIdToLocalSuperbufIx x
  read : ¬lastSlot q t.vi x → ¬unread (t.vi.rxqPtr q) (x + 1)

/-- The timestamp invariant of queue `q`: the current superbuf's descriptor knows its size, a
`prev` left behind by an in-sequence rollover is the last slot of its superbuf, and every
delivered pkt_id not yet released finds its stamp. -/
structure StampInv (q : Nat) (t : RxTrace) : Prop where
  cur_pkts : ∀ g N rest, t.grants = (g, N) :: rest → (t.vi.rxqPtr q).end ≠ 0 →
    sbPkts q t.vi g.sb = N
  prev_last : ∀ g N rest, t.grants = (g, N) :: rest → (t.vi.rxqPtr q).end ≠ 0 →
    rxqPtrToPktId (t.vi.rxqPtr q).next = grantBase q g → lastSlot q t.vi (t.vi.rxqPtr q).prev
  delivered : ∀ x ∈ t.outstanding, StampAt q t x

theorem StampAt.congr {q x : Nat} {t t' : RxTrace} (h : StampAt q t x)
    (hpk : sbPkts q t'.vi (pktIdToLocalSuperbufIx x) = sbPkts q t.vi (pktIdToLocalSuperbufIx x))
    (hd : t'.deliveredBy x = t.deliveredBy x)
    (hf : lastSlot q t.vi x →
      sbFinal q t'.vi (pktIdToLocalSuperbufIx x) = sbFinal q t.vi (pktIdToLocalSuperbufIx x))
    (hs : ¬lastSlot q t.vi x → t'.vi.superbuf (x + 1) = t.vi.superbuf (x + 1))
    (hapart : lastSlot q t.vi x → (t'.vi.rxqPtr q).end ≠ 0 →
      pktIdToLocalSuperbufIx x ≠ pktIdToLocalSuperbufIx (t'.vi.rxqPtr q).prev ∧
        ∀ g N rest, t'.grants = (g, N) :: rest → pktIdToLocalSuperbufIx x ≠ g.sb)
    (hread : ¬lastSlot q t.vi x → ¬unread (t'.vi.rxqPtr q) (x + 1)) : StampAt q t' x := by
  have hl : lastSlot q t'.vi x ↔ lastSlot q t.vi x := by rw [lastSlot, lastSlot, hpk]
  exact ⟨hpk ▸ h.lt_pkts, fun h' => by rw [hf (hl.mp h'), hd]; exact h.final (hl.mp h'),
    fun h' => hapart (hl.mp h'), fun h' => by
      rw [hs (mt hl.mpr h'), hd]; exact h.inner (mt hl.mpr h'),
    fun h' => hread (mt hl.mpr h')⟩

/-- A step that keeps the pointer, the grants and what timestamps are read from, and only drops
delivered pkt_ids, keeps the invariant. -/
theorem StampInv.frame {q : Nat} {t t' : RxTrace} (h : StampInv q t)
    (hp : t'.vi.rxqPtr q = t.vi.rxqPtr q) (hg : t'.grants = t.grants)
    (ho : ∀ x ∈ t'.outstanding, x ∈ t.outstanding) (hd : t'.deliveredBy = t.deliveredBy)
    (hpk : sbPkts q t'.vi = sbPkts q t.vi) (hf : sbFinal q t'.vi = sbFinal q t.vi)
    (hs : ∀ x ∈ t.outstanding, ¬lastSlot q t.vi x → t'.vi.superbuf (x + 1) = t.vi.superbuf (x + 1)) :
    StampInv q t' := by
  refine ⟨fun g N rest hgr hend => ?_, fun g N rest hgr hend hpn => ?_, fun x hx => ?_⟩
  · rw [hpk]
    exact h.cur_pkts g N rest (hg ▸ hgr) (hp ▸ hend)
  · rw [lastSlot, hpk, hp]
    exact h.prev_last g N rest (hg ▸ hgr) (hp ▸ hend) (hp ▸ hpn)
  · have hx' := ho x hx
    exact (h.delivered x hx').congr (by rw [hpk]) (by rw [hd]) (fun _ => by rw [hf])
      (hs x hx') (by rw [hp, hg]; exact (h.delivered x hx').apart)
      (by rw [hp]; exact (h.delivered x hx').read)

theorem StampInv.free {q q' : Nat} {t : RxTrace} (h : StampInv q t) (fs : List (Nat × Nat)) :
    StampInv q (t.free q' fs) :=
  h.frame (by rw [RxTrace.free_vi]) (RxTrace.free_grants _ _ _)
    (fun x hx => by rwa [RxTrace.free_outstanding] at hx) (RxTrace.free_deliveredBy _ _ _)
    (by rw [RxTrace.free_vi]) (by rw [RxTrace.free_vi]) fun _ _ _ => by rw [RxTrace.free_vi]

end EfctVi
