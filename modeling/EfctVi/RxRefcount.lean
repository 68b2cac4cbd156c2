import EfctVi.RxPointer

namespace EfctVi

/-- How many of the pkt_ids in `l` lie in local superbuf `sb`. -/
def refsIn (sb : Nat) (l : List Nat) : Nat :=
  l.countP fun x => decide (pktIdToLocalSuperbufIx x = sb)

@[simp] theorem refsIn_nil (sb : Nat) : refsIn sb [] = 0 := rfl

@[simp] theorem refsIn_append (sb : Nat) (l l' : List Nat) :
    refsIn sb (l ++ l') = refsIn sb l + refsIn sb l' :=
  List.countP_append _ _ _

@[simp] theorem refsIn_cons (sb x : Nat) (l : List Nat) :
    refsIn sb (x :: l) = refsIn sb l + if pktIdToLocalSuperbufIx x = sb then 1 else 0 := by
  simp [refsIn, List.countP_cons]

theorem refsIn_pos {sb x : Nat} {l : List Nat} (hx : x ∈ l) (hs : pktIdToLocalSuperbufIx x = sb) :
    0 < refsIn sb l :=
  List.countP_pos_iff.mpr ⟨x, hx, by simpa using hs⟩

theorem refsIn_eq_zero {sb : Nat} {l : List Nat} :
    refsIn sb l = 0 ↔ ∀ x ∈ l, pktIdToLocalSuperbufIx x ≠ sb := by
  simp [refsIn, List.countP_eq_zero]

/-- A list whose pkt_ids all lie in one superbuf counts fully there and nowhere else. -/
theorem refsIn_of_forall {sb s0 : Nat} {l : List Nat}
    (h : ∀ x ∈ l, pktIdToLocalSuperbufIx x = s0) :
    refsIn sb l = if s0 = sb then l.length else 0 := by
  split
  · subst sb; exact List.countP_eq_length.mpr fun x hx => by simpa using h x hx
  · exact refsIn_eq_zero.mpr fun x hx => by rw [h x hx]; assumption

theorem refsIn_erase (sb : Nat) {x : Nat} {l : List Nat} (hx : x ∈ l) :
    refsIn sb l = refsIn sb (l.erase x) + if pktIdToLocalSuperbufIx x = sb then 1 else 0 := by
  rw [← refsIn_cons]
  exact (List.perm_cons_erase hx).countP_eq _

/-- The refcount law over one queue's bookkeeping: the superbufs `held`, the refcnt `rc` of
each one's descriptor, and the pkt_ids `pending` that still hold a reference. -/
structure RefLaw (q : Nat) (held : Nat → Bool) (rc : Nat → Nat) (pending : List Nat) : Prop where
  pending_held : ∀ x ∈ pending, pktIdToRxqIx x = q ∧ held (pktIdToLocalSuperbufIx x)
  held_ok : ∀ sb, held sb → sb < ciEfctMaxSuperbufs ∧ rc sb = refsIn sb pending ∧
    rc sb < 2 ^ 16 ∧ 0 < refsIn sb pending

section RefLaw

variable {q : Nat} {held : Nat → Bool} {rc : Nat → Nat} {P : List Nat}

theorem RefLaw.perm {P' : List Nat} (h : RefLaw q held rc P) (hp : P.Perm P') : RefLaw q held rc P' := by
  have hc : ∀ sb, refsIn sb P' = refsIn sb P := fun sb => (hp.countP_eq _).symm
  exact ⟨fun x hx => h.pending_held x (hp.mem_iff.mpr hx), fun sb hs => by
    simpa only [hc] using h.held_ok sb hs⟩

theorem RefLaw.congr {rc' : Nat → Nat} (h : RefLaw q held rc P) (hrc : ∀ sb, held sb → rc' sb = rc sb) :
    RefLaw q held rc' P :=
  ⟨h.pending_held, fun sb hs => by simpa only [hrc sb hs] using h.held_ok sb hs⟩

/-- Dropping `k` references to a held superbuf `sb0` and writing the decremented count back;
once none is left the superbuf is freed. -/
theorem RefLaw.release (h : RefLaw q held rc P) (P' : List Nat) (rc' : Nat → Nat) (k : Nat)
    {sb0 : Nat} (hheld : held sb0)
    (hsub : ∀ x ∈ P', x ∈ P)
    (hcnt : ∀ sb, refsIn sb P = refsIn sb P' + if sb = sb0 then k else 0)
    (hrc : ∀ sb, held sb → rc' sb = if sb = sb0 then wrapSub 16 (rc sb0) k else rc sb) :
    RefLaw q (if rc' sb0 = 0 then Function.update held sb0 false else held) rc' P' := by
  have hok : ∀ sb, held sb → sb < ciEfctMaxSuperbufs ∧ rc' sb = refsIn sb P' ∧
      rc' sb < 2 ^ 16 ∧ (sb ≠ sb0 → 0 < refsIn sb P') := by
    intro sb hs
    obtain ⟨hlt, heq, hbound, hpos⟩ := h.held_ok sb hs
    have hc := hcnt sb
    rw [hrc sb hs]
    by_cases he : sb = sb0
    · subst he
      rw [if_pos rfl] at hc ⊢
      simp only [wrapSub]
      exact ⟨hlt, by omega, by omega, fun hne => absurd rfl hne⟩
    · rw [if_neg he] at hc ⊢
      exact ⟨hlt, by omega, by omega, fun _ => by omega⟩
  by_cases hz : rc' sb0 = 0
  · rw [if_pos hz]
    refine ⟨fun x hx => ?_, fun sb hs => ?_⟩
    · obtain ⟨hq, hs⟩ := h.pending_held x (hsub x hx)
      have hne : pktIdToLocalSuperbufIx x ≠ sb0 := fun he => by
        have := refsIn_pos hx he
        have := (hok sb0 hheld).2.1
        omega
      exact ⟨hq, by rwa [Function.update_noteq hne]⟩
    · have he : sb ≠ sb0 := by rintro rfl; simp at hs
      rw [Function.update_noteq he] at hs
      obtain ⟨h1, h2, h3, h4⟩ := hok sb hs
      exact ⟨h1, h2, h3, h4 he⟩
  · rw [if_neg hz]
    refine ⟨fun x hx => h.pending_held x (hsub x hx), fun sb hs => ?_⟩
    obtain ⟨h1, h2, h3, h4⟩ := hok sb hs
    refine ⟨h1, h2, h3, ?_⟩
    by_cases he : sb = sb0
    · subst he; omega
    · exact h4 he

/-- No pending pkt_id lies in a superbuf the queue does not hold. -/
theorem RefLaw.ne_of_not_held (h : RefLaw q held rc P) {sb : Nat} (hfree : held sb = false) :
    ∀ x ∈ P, pktIdToLocalSuperbufIx x ≠ sb := fun x hx he => by
  have := (h.pending_held x hx).2
  rw [he, hfree] at this
  exact Bool.false_ne_true this

/-- Acquiring a superbuf `sb0` the queue does not hold, with `N` fresh references. -/
theorem RefLaw.acquire (h : RefLaw q held rc P) (sb0 : Nat) (P' : List Nat) (rc' : Nat → Nat)
    {N : Nat} (hfree : held sb0 = false)
    (hsb : sb0 < ciEfctMaxSuperbufs) (hN : 0 < N) (hN' : N < 2 ^ 16)
    (hmem : ∀ x ∈ P', x ∈ P ∨ pktIdToRxqIx x = q ∧ pktIdToLocalSuperbufIx x = sb0)
    (hcnt : ∀ sb, refsIn sb P' = refsIn sb P + if sb = sb0 then N else 0)
    (hrc : ∀ sb, sb < ciEfctMaxSuperbufs → rc' sb = if sb = sb0 then N else rc sb) :
    RefLaw q (Function.update held sb0 true) rc' P' := by
  have hnone : refsIn sb0 P = 0 := refsIn_eq_zero.mpr (h.ne_of_not_held hfree)
  refine ⟨fun x hx => ?_, fun sb hs => ?_⟩
  · rcases hmem x hx with hx | ⟨hq, he⟩
    · obtain ⟨hq, hs⟩ := h.pending_held x hx
      refine ⟨hq, ?_⟩
      by_cases he : pktIdToLocalSuperbufIx x = sb0
      · rw [he, Function.update_same]
      · rwa [Function.update_noteq he]
    · rw [he, Function.update_same]
      exact ⟨hq, rfl⟩
  · have hc := hcnt sb
    by_cases he : sb = sb0
    · subst he
      have hr := hrc sb hsb
      rw [if_pos rfl] at hc hr
      exact ⟨hsb, by omega, by omega, by omega⟩
    · rw [Function.update_noteq he] at hs
      obtain ⟨h1, h2, h3, h4⟩ := h.held_ok sb hs
      have hr := hrc sb h1
      rw [if_neg he] at hc hr
      exact ⟨h1, by omega, by omega, by omega⟩

/-- Freeing a superbuf `sb0` that no pending pkt_id lies in any more. -/
theorem RefLaw.drop (h : RefLaw q held rc P) (sb0 : Nat) (P' : List Nat)
    (hsub : ∀ x ∈ P', x ∈ P ∧ pktIdToLocalSuperbufIx x ≠ sb0)
    (hcnt : ∀ sb, sb ≠ sb0 → refsIn sb P' = refsIn sb P) :
    RefLaw q (Function.update held sb0 false) rc P' := by
  refine ⟨fun x hx => ?_, fun sb hs => ?_⟩
  · obtain ⟨hx, hne⟩ := hsub x hx
    rw [Function.update_noteq hne]
    exact h.pending_held x hx
  · have he : sb ≠ sb0 := by rintro rfl; simp at hs
    rw [Function.update_noteq he] at hs
    rw [hcnt sb he]
    exact h.held_ok sb hs

end RefLaw

/-- The refcnt of the descriptor of local superbuf `sb` of queue `q`. -/
def sbRefcnt (q : Nat) (s : RxState) (sb : Nat) : Nat :=
  (s.descriptors (efctRxDescForSb q sb)).refcnt

@[simp] theorem sbRefcnt_setPtr (q : Nat) (s : RxState) (i : Nat) (p : RxqPtr) (sb : Nat) :
    sbRefcnt q (s.setPtr i p) sb = sbRefcnt q s sb := rfl

theorem efctRxDesc_eq_forSb {q x : Nat} (hx : pktIdToRxqIx x = q) :
    efctRxDesc x = efctRxDescForSb q (pktIdToLocalSuperbufIx x) := by
  rw [efctRxDescForSb_eq (by simp [ciEfctMaxSuperbufs]; omega)]
  simp only [efctRxDesc_eq, pktIdToRxqIx_eq, pktIdToLocalSuperbufIx_eq, ciEfctMaxSuperbufs] at *
  omega

theorem efctRxDescForSb_inj {q sb sb' : Nat} (hsb : sb < ciEfctMaxSuperbufs)
    (hsb' : sb' < ciEfctMaxSuperbufs) (h : efctRxDescForSb q sb = efctRxDescForSb q sb') :
    sb = sb' := by
  rw [efctRxDescForSb_eq hsb, efctRxDescForSb_eq hsb'] at h
  omega

/-- Writing the descriptor of pkt_id `x` changes the descriptor of its superbuf only. -/
theorem descForSb_setDesc {q x sb : Nat} (s : RxState) (d : RxDescriptor)
    (hsb : sb < ciEfctMaxSuperbufs) (hx : pktIdToRxqIx x = q) :
    (s.setDesc (efctRxDesc x) d).descriptors (efctRxDescForSb q sb) =
      if sb = pktIdToLocalSuperbufIx x then d else s.descriptors (efctRxDescForSb q sb) := by
  have hlt : pktIdToLocalSuperbufIx x < ciEfctMaxSuperbufs := by
    simp [ciEfctMaxSuperbufs]; omega
  rw [efctRxDesc_eq_forSb hx]
  by_cases h : sb = pktIdToLocalSuperbufIx x
  · subst h
    simp
  · have hne : efctRxDescForSb q sb ≠ efctRxDescForSb q (pktIdToLocalSuperbufIx x) :=
      fun he => h (efctRxDescForSb_inj hsb hlt he)
    simp only [RxState.setDesc, Function.update_noteq hne, if_neg h]

theorem sbRefcnt_setDesc {q x sb : Nat} (s : RxState) (d : RxDescriptor)
    (hsb : sb < ciEfctMaxSuperbufs) (hx : pktIdToRxqIx x = q) :
    sbRefcnt q (s.setDesc (efctRxDesc x) d) sb =
      if sb = pktIdToLocalSuperbufIx x then d.refcnt else sbRefcnt q s sb := by
  rw [sbRefcnt, descForSb_setDesc s d hsb hx]
  split <;> rfl

theorem efctViRxpktRelease_spec {q x : Nat} (s : RxState) (hx : pktIdToRxqIx x = q) :
    (∀ sb < ciEfctMaxSuperbufs, sbRefcnt q (efctViRxpktRelease s x).1 sb =
      if sb = pktIdToLocalSuperbufIx x then
        wrapSub 16 (sbRefcnt q s (pktIdToLocalSuperbufIx x)) 1 else sbRefcnt q s sb) ∧
    (efctViRxpktRelease s x).2 =
      if wrapSub 16 (sbRefcnt q s (pktIdToLocalSuperbufIx x)) 1 = 0 then
        [(q, pktIdToLocalSuperbufIx x)] else [] := by
  have hd : efctRxDesc x = efctRxDescForSb q (pktIdToLocalSuperbufIx x) := efctRxDesc_eq_forSb hx
  refine ⟨fun sb hsb => ?_, ?_⟩
  · rw [efctViRxpktRelease, sbRefcnt_setDesc _ _ hsb hx, hd]
    rfl
  · simp only [efctViRxpktRelease, hd, hx]
    rfl

theorem pollRxAdvance_sbRefcnt (q : Nat) (s : RxState) (header : RxHeader) (sb : Nat) :
    sbRefcnt q (pollRxAdvance q s header) sb = sbRefcnt q s sb := by
  simp only [sbRefcnt, pollRxAdvance, RxState.setPtr, RxState.setDesc, Function.update_apply]
  split <;> simp_all

/-- The ROLLOVER branch drops `k` references of `prev`'s superbuf, frees the superbuf of
`next` at once when it differs, and frees `prev`'s once its count reaches 0. -/
theorem pollRxRolloverHeader_spec {q : Nat} (s : RxState)
    (hx : pktIdToRxqIx (s.rxqPtr q).prev = q) :
    let ptr := s.rxqPtr q
    let prevSb := pktIdToLocalSuperbufIx ptr.prev
    let nextSb := pktIdToLocalSuperbufIx (rxqPtrToPktId ptr.next)
    let k := if nextSb = prevSb then wrapSub 32 ptr.end ptr.prev else 1
    let r := wrapSub 16 (sbRefcnt q s prevSb) k
    (∀ sb < ciEfctMaxSuperbufs,
      sbRefcnt q (pollRxRolloverHeader q s).1 sb = if sb = prevSb then r else sbRefcnt q s sb) ∧
    (pollRxRolloverHeader q s).2 =
      (if nextSb = prevSb then [] else [(q, nextSb)]) ++ if r = 0 then [(q, prevSb)] else [] := by
  have hd := efctRxDesc_eq_forSb hx
  by_cases hc : pktIdToLocalSuperbufIx (rxqPtrToPktId (s.rxqPtr q).next) =
    pktIdToLocalSuperbufIx (s.rxqPtr q).prev
  all_goals
    simp only [pollRxRolloverHeader, hc, ↓reduceIte]
    refine ⟨fun sb hsb => ?_, by simp only [hd]; rfl⟩
    rw [sbRefcnt_setPtr, sbRefcnt_setDesc _ _ hsb hx, hd]
    rfl

/-- The pkt_id rx_rollover builds lies in queue `q` and the granted superbuf. -/
theorem rolloverPktId_fields {q : Nat} {g : SbGrant} (hq : q < 8) (hsb : g.sb < ciEfctMaxSuperbufs) :
    pktIdToRxqIx (((q * ciEfctMaxSuperbufs + g.sb) <<< pktIdPktBits) % 2 ^ 32) = q ∧
      pktIdToLocalSuperbufIx (((q * ciEfctMaxSuperbufs + g.sb) <<< pktIdPktBits) % 2 ^ 32) =
        g.sb := by
  simp only [pktIdToRxqIx_eq, pktIdToLocalSuperbufIx_eq, ciEfctMaxSuperbufs, pktIdPktBits] at *
  omega

/-- rx_rollover preloads the new superbuf's refcnt and, on a nodesc gap, drops the reference of
`prev`, freeing its superbuf once none is left. -/
theorem rxRollover_spec {s s' : RxState} {q : Nat} {g : SbGrant} {frees : List (Nat × Nat)}
    (hq : q < 8) (hsb : g.sb < ciEfctMaxSuperbufs)
    (hx : (s.rxqPtr q).end ≠ 0 → pktIdToRxqIx (s.rxqPtr q).prev = q)
    (h : rxRollover s q (some g) = some (s', frees)) :
    let ptr := s.rxqPtr q
    let gap := ptr.end ≠ 0 ∧ g.sbseq ≠ ptr.next >>> 32 + 1
    let prevSb := pktIdToLocalSuperbufIx ptr.prev
    let r := wrapSub 16 (sbRefcnt q s prevSb) 1
    (∀ sb < ciEfctMaxSuperbufs, sbRefcnt q s' sb =
      if sb = g.sb then (s.q q).liveSuperbufPkts % 2 ^ 16
      else if gap then (if sb = prevSb then r else sbRefcnt q s sb) else sbRefcnt q s sb) ∧
    frees = if gap then (if r = 0 then [(q, prevSb)] else []) else [] := by
  have hpk := rolloverPktId_fields hq hsb
  rw [rxRollover_eq] at h
  simp only [Option.some.injEq, Prod.mk.injEq] at h
  obtain ⟨rfl, rfl⟩ := h
  by_cases hgap : (s.rxqPtr q).end ≠ 0 ∧ g.sbseq ≠ (s.rxqPtr q).next >>> 32 + 1
  · obtain ⟨hrel, hfr⟩ := efctViRxpktRelease_spec s (hx hgap.1)
    refine ⟨fun sb hs => ?_, by simp only [if_pos hgap, hfr]⟩
    simp only [if_pos hgap]
    rw [sbRefcnt_setDesc _ _ hs hpk.1, hpk.2, sbRefcnt_setPtr, hrel sb hs]
  · refine ⟨fun sb hs => ?_, by simp only [if_neg hgap]⟩
    simp only [if_neg hgap]
    rw [sbRefcnt_setDesc _ _ hs hpk.1, hpk.2, sbRefcnt_setPtr]

/-- The slots that the descriptors still count but no event has resolved: `prev`, and the slots
from `next` up to `end`, while a superbuf is current. -/
def unresolvedSlots (ptr : RxqPtr) : List Nat :=
  if ptr.end = 0 then [] else
    ptr.prev :: List.range' (rxqPtrToPktId ptr.next) (ptr.end - rxqPtrToPktId ptr.next)

/-- The pkt_ids of queue `q` that hold a reference: its unresolved slots and the delivered
pkt_ids not yet released. -/
def pendingRefs (q : Nat) (t : RxTrace) : List Nat :=
  unresolvedSlots (t.vi.rxqPtr q) ++ t.outstanding

/-- A bounded grant of `ops->next` naming a superbuf that the queue does not hold. -/
def freshGrant (q : Nat) (t : RxTrace) (g : SbGrant) : Prop :=
  boundedGrant q t g ∧ t.held g.sb = false

structure RefInv (q : Nat) (t : RxTrace) : Prop where
  ptr : PtrInv q t
  no_bad_free : t.badFree = false
  law : RefLaw q t.held (sbRefcnt q t.vi) (pendingRefs q t)
  fresh : ∀ g N rest, t.grants = (g, N) :: rest → (t.vi.rxqPtr q).end ≠ 0 →
    rxqPtrToPktId (t.vi.rxqPtr q).next = grantBase q g →
    pktIdToLocalSuperbufIx (t.vi.rxqPtr q).prev ≠ g.sb ∧
      ∀ x ∈ t.outstanding, pktIdToLocalSuperbufIx x ≠ g.sb

@[simp] theorem RxTrace.free_nil (t : RxTrace) (q : Nat) : t.free q [] = t := rfl

theorem RxTrace.free_single (t : RxTrace) (q sb : Nat) :
    (t.free q [(q, sb)]).held = Function.update t.held sb false ∧
      (t.free q [(q, sb)]).badFree = (t.badFree || !t.held sb) := by
  simp [RxTrace.free]

/-- The slots `[b, b + 2^16)` of a granted superbuf decode to its queue and local index. -/
theorem slot_fields {q x : Nat} {g : SbGrant} (hsb : g.sb < ciEfctMaxSuperbufs)
    (hx : grantBase q g ≤ x) (hx' : x < grantBase q g + 2 ^ 16) :
    pktIdToRxqIx x = q ∧ pktIdToLocalSuperbufIx x = g.sb := by
  simp only [grantBase, pktIdToRxqIx_eq, pktIdToLocalSuperbufIx_eq, ciEfctMaxSuperbufs,
    pktIdPktBits] at *
  omega

/-- A step that leaves the pointer and the grants alone, only drops delivered pkt_ids, frees
nothing it does not hold and keeps the law, keeps the invariant. -/
theorem RefInv.keep_ptr {q : Nat} {t t' : RxTrace} (h : RefInv q t)
    (hp : t'.vi.rxqPtr q = t.vi.rxqPtr q) (hg : t'.grants = t.grants)
    (ho : ∀ y ∈ t'.outstanding, y ∈ t.outstanding) (hb : t'.badFree = false)
    (hlaw : RefLaw q t'.held (sbRefcnt q t'.vi) (pendingRefs q t')) : RefInv q t' where
  ptr := h.ptr.frame hp hg
  no_bad_free := hb
  law := hlaw
  fresh g N rest hgr hend hpn := by
    rw [hp, hg] at *
    obtain ⟨h1, h2⟩ := h.fresh g N rest hgr hend hpn
    exact ⟨h1, fun y hy => h2 y (ho y hy)⟩

theorem RefInv.frame {q : Nat} {t t' : RxTrace} (h : RefInv q t)
    (hp : t'.vi.rxqPtr q = t.vi.rxqPtr q) (hg : t'.grants = t.grants)
    (ho : t'.outstanding = t.outstanding) (hh : t'.held = t.held) (hb : t'.badFree = t.badFree)
    (hd : ∀ sb, sbRefcnt q t'.vi sb = sbRefcnt q t.vi sb) : RefInv q t' :=
  h.keep_ptr hp hg (fun y hy => ho ▸ hy) (hb ▸ h.no_bad_free) (by
    have : pendingRefs q t' = pendingRefs q t := by simp only [pendingRefs, hp, ho]
    rw [this, hh]
    exact h.law.congr fun sb _ => hd sb)

/-- Once `end` is 0 only the law and the frees remain to check. -/
theorem RefInv.of_end_zero {q : Nat} {t : RxTrace} (hend : (t.vi.rxqPtr q).end = 0)
    (hg : GrantsOk t.grants) (hb : t.badFree = false)
    (hlaw : RefLaw q t.held (sbRefcnt q t.vi) (pendingRefs q t)) : RefInv q t :=
  ⟨⟨hg, fun h0 => absurd hend h0⟩, hb, hlaw, fun _ _ _ _ h0 => absurd hend h0⟩

/-- At most one `ops->free` of a superbuf the queue holds. -/
theorem RxTrace.free_cond (t : RxTrace) (q sb : Nat) {c : Prop} {inst : Decidable c}
    (hheld : t.held sb) :
    (t.free q (@ite _ c inst [(q, sb)] [])).held =
        @ite _ c inst (Function.update t.held sb false) t.held ∧
      (t.free q (@ite _ c inst [(q, sb)] [])).badFree = t.badFree := by
  split <;> simp [RxTrace.free, hheld]

/-- An `ops->free` of a held superbuf, then at most one of another. -/
theorem RxTrace.free_cons_cond (t : RxTrace) {q a b : Nat} {c : Prop} {inst : Decidable c}
    (ha : t.held a) (hb : t.held b) (hab : a ≠ b) :
    (t.free q ((q, a) :: @ite _ c inst [(q, b)] [])).held =
        @ite _ c inst (Function.update (Function.update t.held a false) b false)
          (Function.update t.held a false) ∧
      (t.free q ((q, a) :: @ite _ c inst [(q, b)] [])).badFree = t.badFree := by
  split <;> simp [RxTrace.free, ha, hb, Function.update_noteq (Ne.symm hab)]

theorem refInv_release {q : Nat} {t : RxTrace} {x : Nat} (h : RefInv q t)
    (hx : x ∈ t.outstanding) : RefInv q (traceRelease q t x) := by
  obtain ⟨hxq, hxh⟩ := h.law.pending_held x (List.mem_append_right _ hx)
  obtain ⟨hrel, hfr⟩ := efctViRxpktRelease_spec t.vi hxq
  have hlaw := h.law.release (unresolvedSlots (t.vi.rxqPtr q) ++ t.outstanding.erase x)
    (sbRefcnt q (efctViRxpktRelease t.vi x).1) 1 hxh
    (fun y hy => by
      rcases List.mem_append.mp hy with hy | hy
      · exact List.mem_append_left _ hy
      · exact List.mem_append_right _ (List.mem_of_mem_erase hy))
    (fun sb => by simp only [pendingRefs, refsIn_append, refsIn_erase sb hx, eq_comm]; omega)
    (fun sb hs => hrel sb (h.law.held_ok sb hs).1)
  have hrc0 := hrel _ (h.law.held_ok _ hxh).1
  rw [if_pos rfl] at hrc0
  rw [hrc0] at hlaw
  have hp : (traceRelease q t x).vi.rxqPtr q = t.vi.rxqPtr q := by
    rw [traceRelease_vi, efctViRxpktRelease_rxqPtr]
  have hpend : pendingRefs q (traceRelease q t x) =
      unresolvedSlots (t.vi.rxqPtr q) ++ t.outstanding.erase x := by
    rw [pendingRefs, hp, traceRelease_outstanding]
  have heq : traceRelease q t x =
      ({ t with vi := (efctViRxpktRelease t.vi x).1, outstanding := t.outstanding.erase x } :
        RxTrace).free q (efctViRxpktRelease t.vi x).2 := rfl
  have hheld : (traceRelease q t x).held =
      if wrapSub 16 (sbRefcnt q t.vi (pktIdToLocalSuperbufIx x)) 1 = 0 then
        Function.update t.held (pktIdToLocalSuperbufIx x) false else t.held := by
    rw [heq, hfr]
    split
    · exact (RxTrace.free_single _ _ _).1
    · rfl
  refine h.keep_ptr hp (traceRelease_grants q t x)
    (fun y hy => List.mem_of_mem_erase (by rwa [traceRelease_outstanding] at hy)) ?_ ?_
  · rw [heq, hfr]
    split
    · rw [(RxTrace.free_single _ _ _).2]
      simp only [h.no_bad_free, hxh, Bool.not_true, Bool.false_or]
    · exact h.no_bad_free
  · rw [hpend, hheld, traceRelease_vi]
    exact hlaw

/-- An event for `prev` moves its reference from the unresolved slots to the delivered ones. -/
theorem refInv_emit {q : Nat} {t : RxTrace} (header : RxHeader) (hq : q < 8) (h : RefInv q t)
    (hlt : rxqPtrToPktId (t.vi.rxqPtr q).next < (t.vi.rxqPtr q).end) :
    RefInv q (t.deliver (pollRxAdvance q t.vi header) (t.vi.rxqPtr q).prev header) := by
  obtain ⟨g, N, rest, hgr, hs⟩ := h.ptr.shape (by omega)
  obtain ⟨hptr, hpk⟩ := pollRxAdvance_ptr header hq h.ptr hlt
  have hperm : (pendingRefs q t).Perm
      (pendingRefs q (t.deliver (pollRxAdvance q t.vi header) (t.vi.rxqPtr q).prev header)) := by
    have hr : (t.vi.rxqPtr q).end - rxqPtrToPktId (t.vi.rxqPtr q).next =
        (t.vi.rxqPtr q).end - (rxqPtrToPktId (t.vi.rxqPtr q).next + 1) + 1 := by omega
    simp only [pendingRefs, unresolvedSlots, hptr, hpk, RxTrace.deliver, if_neg (show
      (t.vi.rxqPtr q).end ≠ 0 by omega), hr, List.range'_succ]
    rw [List.cons_append, ← List.append_assoc]
    exact (List.perm_append_singleton _ _).symm
  refine ⟨ptrInv_emit header hq h.ptr hlt, h.no_bad_free,
    (h.law.perm hperm).congr fun sb _ => pollRxAdvance_sbRefcnt q t.vi header sb, ?_⟩
  intro g' N' rest' hgr' _ hpn
  rw [RxTrace.deliver_vi, hptr] at hpn
  simp only [RxTrace.deliver, hgr, List.cons.injEq, Prod.mk.injEq] at hgr'
  obtain ⟨⟨rfl, -⟩, -⟩ := hgr'
  have := hs.base_le
  dsimp only at hpn
  omega

/-- A ROLLOVER header resolves every slot still unresolved: the rest of the current superbuf,
or, while `next` has not entered it, `prev` and the whole current superbuf, freed at once. -/
theorem refInv_rolloverHeader {q : Nat} {t : RxTrace} (hq : q < 8) (h : RefInv q t)
    (hlt : rxqPtrToPktId (t.vi.rxqPtr q).next < (t.vi.rxqPtr q).end) :
    RefInv q (({ t with vi := (pollRxRolloverHeader q t.vi).1 } : RxTrace).free q
      (pollRxRolloverHeader q t.vi).2) := by
  obtain ⟨g, N, rest, hgr, hs⟩ := h.ptr.shape (by omega)
  obtain ⟨hsb, hN0, hN⟩ := h.ptr.grants_ok.head hgr
  have hb := grantBase_bounds hq hsb
  have he := hs.end_eq
  have hbl := hs.base_le
  have hU : unresolvedSlots (t.vi.rxqPtr q) = (t.vi.rxqPtr q).prev ::
      List.range' (rxqPtrToPktId (t.vi.rxqPtr q).next)
        ((t.vi.rxqPtr q).end - rxqPtrToPktId (t.vi.rxqPtr q).next) :=
    if_neg (by omega)
  have hR : ∀ x ∈ List.range' (rxqPtrToPktId (t.vi.rxqPtr q).next)
      ((t.vi.rxqPtr q).end - rxqPtrToPktId (t.vi.rxqPtr q).next),
      pktIdToLocalSuperbufIx x = g.sb := fun x hx => by
    rw [List.mem_range'_1] at hx
    exact (slot_fields (q := q) hsb (by omega) (by omega)).2
  obtain ⟨hxq, hxh⟩ := h.law.pending_held (t.vi.rxqPtr q).prev (by simp [pendingRefs, hU])
  obtain ⟨hrc, hfr⟩ := pollRxRolloverHeader_spec t.vi hxq
  have hend' : ((pollRxRolloverHeader q t.vi).1.rxqPtr q).end = 0 := pollRxRolloverHeader_end q t.vi
  have hpend : ∀ fs, pendingRefs q (({ t with vi := (pollRxRolloverHeader q t.vi).1 } :
      RxTrace).free q fs) = t.outstanding := fun fs => by
    simp [pendingRefs, unresolvedSlots, hend']
  have hrc0 := hrc _ (h.law.held_ok _ hxh).1
  rw [if_pos rfl] at hrc0
  have hg' : GrantsOk (({ t with vi := (pollRxRolloverHeader q t.vi).1 } : RxTrace).free q
      (pollRxRolloverHeader q t.vi).2).grants := by simpa using h.ptr.grants_ok
  by_cases hc : pktIdToLocalSuperbufIx (rxqPtrToPktId (t.vi.rxqPtr q).next) =
    pktIdToLocalSuperbufIx (t.vi.rxqPtr q).prev
  · have hgt : grantBase q g < rxqPtrToPktId (t.vi.rxqPtr q).next := by
      refine lt_of_le_of_ne hbl fun hpn => (h.fresh g N rest hgr (by omega) hpn.symm).1 ?_
      rw [← hc, ← hpn]
      exact (slot_fields (q := q) hsb le_rfl (by omega)).2
    have hprev := hs.prev_eq hgt
    have hpsb : pktIdToLocalSuperbufIx (t.vi.rxqPtr q).prev = g.sb := by
      rw [hprev]; exact (slot_fields (q := q) hsb (by omega) (by omega)).2
    have hk : wrapSub 32 (t.vi.rxqPtr q).end (t.vi.rxqPtr q).prev =
        (t.vi.rxqPtr q).end - rxqPtrToPktId (t.vi.rxqPtr q).next + 1 := by
      rw [hprev, wrapSub]; omega
    have hlaw := h.law.release t.outstanding (sbRefcnt q (pollRxRolloverHeader q t.vi).1)
      ((t.vi.rxqPtr q).end - rxqPtrToPktId (t.vi.rxqPtr q).next + 1) hxh
      (fun y hy => List.mem_append_right _ hy)
      (fun sb => by
        rw [pendingRefs, hU, refsIn_append, refsIn_cons, refsIn_of_forall hR, List.length_range',
          hpsb]
        split_ifs <;> omega)
      (fun sb hs' => by rw [hrc sb (h.law.held_ok sb hs').1, if_pos hc, hk])
    rw [hrc0, if_pos hc, hk] at hlaw
    refine RefInv.of_end_zero (by rw [RxTrace.free_vi]; exact hend') hg' ?_ ?_ <;>
      simp only [hfr, if_pos hc, hk, List.nil_append, RxTrace.free_vi]
    · rw [(RxTrace.free_cond ({ t with vi := (pollRxRolloverHeader q t.vi).1 } : RxTrace) q _
        hxh).2]
      exact h.no_bad_free
    · rw [hpend, (RxTrace.free_cond ({ t with vi := (pollRxRolloverHeader q t.vi).1 } : RxTrace) q _
        hxh).1]
      exact hlaw
  · have hpn : rxqPtrToPktId (t.vi.rxqPtr q).next = grantBase q g := by
      by_contra hne
      have hgt : grantBase q g < rxqPtrToPktId (t.vi.rxqPtr q).next := lt_of_le_of_ne hbl (Ne.symm hne)
      apply hc
      rw [hs.prev_eq hgt, (slot_fields (q := q) hsb hbl (by omega)).2,
        (slot_fields (q := q) hsb (by omega) (by omega)).2]
    obtain ⟨hne, hO⟩ := h.fresh g N rest hgr (by omega) hpn
    have hnsb : pktIdToLocalSuperbufIx (rxqPtrToPktId (t.vi.rxqPtr q).next) = g.sb := by
      rw [hpn]; exact (slot_fields (q := q) hsb le_rfl (by omega)).2
    have hgh : t.held g.sb := by
      have := (h.law.pending_held (rxqPtrToPktId (t.vi.rxqPtr q).next) (by
        rw [pendingRefs, hU]
        exact List.mem_append_left _ (List.mem_cons_of_mem _
          (List.mem_range'_1.mpr ⟨le_rfl, by omega⟩)))).2
      rwa [hnsb] at this
    have h1 := h.law.release (List.range' (rxqPtrToPktId (t.vi.rxqPtr q).next)
        ((t.vi.rxqPtr q).end - rxqPtrToPktId (t.vi.rxqPtr q).next) ++ t.outstanding)
      (sbRefcnt q (pollRxRolloverHeader q t.vi).1) 1 hxh
      (fun y hy => by rw [pendingRefs, hU, List.cons_append]; exact List.mem_cons_of_mem _ hy)
      (fun sb => by rw [pendingRefs, hU, List.cons_append, refsIn_cons]; split_ifs <;> omega)
      (fun sb hs' => by rw [hrc sb (h.law.held_ok sb hs').1, if_neg hc])
    rw [hrc0, if_neg hc] at h1
    have h2 := h1.drop g.sb t.outstanding
      (fun y hy => ⟨List.mem_append_right _ hy, hO y hy⟩)
      (fun sb hsb' => by rw [refsIn_append, refsIn_of_forall hR, if_neg (Ne.symm hsb'), Nat.zero_add])
    refine RefInv.of_end_zero (by rw [RxTrace.free_vi]; exact hend') hg' ?_ ?_ <;>
      simp only [hfr, hnsb, if_neg (Ne.symm hne), List.singleton_append, RxTrace.free_vi]
    · rw [(RxTrace.free_cons_cond ({ t with vi := (pollRxRolloverHeader q t.vi).1 } : RxTrace)
        hgh hxh (Ne.symm hne)).2]
      exact h.no_bad_free
    · rw [hpend, (RxTrace.free_cons_cond ({ t with vi := (pollRxRolloverHeader q t.vi).1 } : RxTrace)
        hgh hxh (Ne.symm hne)).1]
      split_ifs at h2 ⊢
      · rwa [Function.update_comm hne] at h2
      · exact h2

theorem refInv_pass {c : RxHeaderCodes} {q : Nat} {t : RxTrace} {header : RxHeader} (hq : q < 8)
    (h : RefInv q t) (hlt : rxqPtrToPktId (t.vi.rxqPtr q).next < (t.vi.rxqPtr q).end) :
    RefInv q (tracePass c q t header) := by
  unfold tracePass
  split
  · rename_i vi frees hs
    have := refInv_rolloverHeader hq h hlt
    rwa [(pollRxStep_stop hs).2] at this
  · rename_i vi ev hs
    obtain ⟨-, rfl⟩ := pollRxStep_emit hs
    exact refInv_emit header hq h hlt

/-- A rollover onto a superbuf the queue does not hold adds its `N` slots as fresh references,
after the nodesc gap path has dropped the one of `prev`. -/
theorem refInv_rollover {q : Nat} {t : RxTrace} {g : SbGrant} {r : RxTrace × List (Nat × Nat)}
    (hq : q < 8) (h : RefInv q t) (hneed : efctRxqNeedRollover (t.vi.rxqPtr q))
    (hg : freshGrant q t g) (hr : traceRollover q t (some g) = some r) :
    RefInv q r.1 ∧ rxqPtrToPktId (r.1.vi.rxqPtr q).next ≤ (r.1.vi.rxqPtr q).end := by
  obtain ⟨hbg, hfree⟩ := hg
  obtain ⟨hP, hle⟩ := ptrInv_rollover hq h.ptr hneed hbg hr
  obtain ⟨hsb, hN0, hN⟩ := hbg
  have hb := grantBase_bounds hq hsb
  simp only [traceRollover, Option.map_eq_some'] at hr
  obtain ⟨⟨s', frees⟩, hroll, rfl⟩ := hr
  obtain ⟨h1, -, -, h4, h5⟩ := rxRollover_fields hq hsb hN hroll
  have hnot := h.law.ne_of_not_held hfree
  have hU : (t.vi.rxqPtr q).end ≠ 0 → unresolvedSlots (t.vi.rxqPtr q) = [(t.vi.rxqPtr q).prev] := by
    intro h0
    obtain ⟨g0, N0, rest0, hgr0, hs0⟩ := h.ptr.shape h0
    have hpn : rxqPtrToPktId (t.vi.rxqPtr q).next = (t.vi.rxqPtr q).end :=
      le_antisymm hs0.le_end (by simpa [efctRxqNeedRollover] using hneed)
    simp only [unresolvedSlots, if_neg h0, hpn, Nat.sub_self, List.range'_zero]
  obtain ⟨hrc, hfr⟩ := rxRollover_spec hq hsb (fun h0 =>
    (h.law.pending_held _ (by simp [pendingRefs, hU h0])).1) hroll
  have hR : ∀ x ∈ List.range' (grantBase q g) (t.vi.q q).liveSuperbufPkts,
      pktIdToRxqIx x = q ∧ pktIdToLocalSuperbufIx x = g.sb := fun x hx => by
    rw [List.mem_range'_1] at hx
    exact slot_fields hsb hx.1 (by omega)
  have hRc : ∀ sb, refsIn sb (List.range' (grantBase q g) (t.vi.q q).liveSuperbufPkts) =
      if sb = g.sb then (t.vi.q q).liveSuperbufPkts else 0 := fun sb => by
    rw [refsIn_of_forall fun x hx => (hR x hx).2, List.length_range']
    split_ifs <;> first | rfl | omega
  have hU' : unresolvedSlots (s'.rxqPtr q) =
      (if (t.vi.rxqPtr q).end = 0 ∨ g.sbseq ≠ (t.vi.rxqPtr q).next >>> 32 + 1 then []
        else [(t.vi.rxqPtr q).prev]) ++ List.range' (grantBase q g) (t.vi.q q).liveSuperbufPkts := by
    rw [unresolvedSlots, if_neg (by omega), h1, h4, h5]
    split_ifs
    · obtain ⟨n, hn⟩ : ∃ n, (t.vi.q q).liveSuperbufPkts = n + 1 := ⟨_, (Nat.succ_pred_eq_of_pos hN0).symm⟩
      rw [List.nil_append, hn, List.range'_succ,
        show grantBase q g + (n + 1) - (grantBase q g + 1) = n by omega]
    · simp
  dsimp only at hP hle ⊢
  have hpend : ∀ fs, pendingRefs q (({ t with
      vi := s'
      grants := (g, (t.vi.q q).liveSuperbufPkts) :: t.grants
      held := Function.update t.held g.sb true } : RxTrace).free q fs) =
      unresolvedSlots (s'.rxqPtr q) ++ t.outstanding := fun fs => by
    simp only [pendingRefs, RxTrace.free_vi, RxTrace.free_outstanding]
  have hRO : ∀ x ∈ List.range' (grantBase q g) (t.vi.q q).liveSuperbufPkts ++ t.outstanding,
      x ∈ t.outstanding ∨ pktIdToRxqIx x = q ∧ pktIdToLocalSuperbufIx x = g.sb := fun x hx => by
    rcases List.mem_append.mp hx with hx | hx
    · exact .inr (hR x hx)
    · exact .inl hx
  have hnew : sbRefcnt q s' g.sb = (t.vi.q q).liveSuperbufPkts := by
    rw [hrc _ hsb, if_pos rfl]; omega
  refine ⟨⟨hP, ?_, ?_, ?_⟩, hle⟩
  · rw [hfr]
    split_ifs with hgap
    · have hmem : (t.vi.rxqPtr q).prev ∈ pendingRefs q t := by simp [pendingRefs, hU hgap.1]
      rw [(RxTrace.free_single _ _ _).2]
      simp only [Function.update_noteq (hnot _ hmem), (h.law.pending_held _ hmem).2,
        h.no_bad_free, Bool.not_true, Bool.or_false]
    · exact h.no_bad_free
    · exact h.no_bad_free
  · rw [hpend]
    by_cases hgap : (t.vi.rxqPtr q).end ≠ 0 ∧ g.sbseq ≠ (t.vi.rxqPtr q).next >>> 32 + 1
    · have hmem : (t.vi.rxqPtr q).prev ∈ pendingRefs q t := by simp [pendingRefs, hU hgap.1]
      have hne := hnot _ hmem
      have hxh := (h.law.pending_held _ hmem).2
      have h1' := h.law.release t.outstanding (sbRefcnt q s') 1 hxh
        (fun y hy => List.mem_append_right _ hy)
        (fun sb => by
          rw [pendingRefs, hU hgap.1, refsIn_append, refsIn_cons, refsIn_nil]
          split_ifs <;> omega)
        (fun sb hs' => by
          have hne' : sb ≠ g.sb := fun he => by
            rw [he, hfree] at hs'
            exact Bool.false_ne_true hs'
          rw [hrc sb (h.law.held_ok sb hs').1, if_neg hne', if_pos hgap])
      have hrc0 := hrc _ (h.law.held_ok _ hxh).1
      rw [if_neg hne, if_pos hgap, if_pos rfl] at hrc0
      rw [hrc0] at h1'
      have h2 := h1'.acquire g.sb (List.range' (grantBase q g)
          (t.vi.q q).liveSuperbufPkts ++ t.outstanding) (sbRefcnt q s')
        (by split_ifs <;> simp [Function.update_noteq (Ne.symm hne), hfree]) hsb hN0 hN hRO
        (fun sb => by rw [refsIn_append, hRc]; split_ifs <;> omega)
        (fun sb _ => by split_ifs with he <;> simp [he, hnew])
      rw [hU', if_pos (.inr hgap.2), List.nil_append, hfr, if_pos hgap, RxTrace.free_vi]
      rw [(RxTrace.free_cond _ q _ (by simp only [Function.update_noteq hne]; exact hxh)).1]
      split_ifs at h2 ⊢
      · rwa [Function.update_comm hne] at h2
      · exact h2
    · rw [if_neg hgap] at hfr
      subst hfr
      have hU2 : unresolvedSlots (s'.rxqPtr q) = unresolvedSlots (t.vi.rxqPtr q) ++
          List.range' (grantBase q g) (t.vi.q q).liveSuperbufPkts := by
        rw [hU']
        by_cases h0 : (t.vi.rxqPtr q).end = 0
        · rw [if_pos (.inl h0)]
          simp [unresolvedSlots, h0]
        · rw [if_neg (fun hs => hgap ⟨h0, hs.resolve_left h0⟩), hU h0]
      have h2 := h.law.acquire g.sb (unresolvedSlots (t.vi.rxqPtr q) ++
          List.range' (grantBase q g) (t.vi.q q).liveSuperbufPkts ++ t.outstanding)
        (sbRefcnt q s') hfree hsb hN0 hN
        (fun x hx => by
          simp only [List.mem_append] at hx
          rcases hx with (hx | hx) | hx
          · exact .inl (List.mem_append_left _ hx)
          · exact .inr (hR x hx)
          · exact .inl (List.mem_append_right _ hx))
        (fun sb => by rw [pendingRefs, refsIn_append, refsIn_append, refsIn_append, hRc]; split_ifs <;> omega)
        (fun sb hsb' => by rw [hrc sb hsb', if_neg hgap]; split_ifs <;> omega)
      rw [hU2]
      exact h2
  · intro g' N' rest' hgr' _ hpn'
    simp only [RxTrace.free_grants, List.cons.injEq, Prod.mk.injEq] at hgr'
    obtain ⟨⟨rfl, -⟩, -⟩ := hgr'
    simp only [RxTrace.free_vi, RxTrace.free_outstanding] at hpn' ⊢
    rw [h1] at hpn'
    split_ifs at hpn' with hskip
    · omega
    · rw [h4, if_neg hskip]
      have h0 : (t.vi.rxqPtr q).end ≠ 0 := fun h0 => hskip (.inl h0)
      exact ⟨hnot _ (by simp [pendingRefs, hU h0]), fun x hx => hnot x (List.mem_append_right _ hx)⟩

theorem refInv_step {nicOk : RxTrace → Nat → Prop} {c : RxHeaderCodes} {q : Nat}
    {t t' : RxTrace} (hq : q < 8) (ht : RefInv q t) (h : RxStep (freshGrant q) nicOk c q t t') :
    RefInv q t' := by
  cases h with
  | poll grant refreshOk evsLen hg =>
    exact tracePollRx_preserves (RefInv q) (freshGrant q)
      (fun _ _ _ ht hn hg hr => refInv_rollover hq ht hn hg hr)
      (fun _ ht => ht.frame rfl rfl rfl rfl rfl fun _ => rfl)
      (fun _ _ ht hlt _ => refInv_pass hq ht hlt) (fun _ ht => ht.ptr.end_lt hq)
      grant refreshOk evsLen ht hg
  | release x hx => exact refInv_release ht hx
  | nicWrite => exact ht.frame rfl rfl rfl rfl rfl fun _ => rfl
  | publish => exact ht.frame rfl rfl rfl rfl rfl fun _ => rfl
  | setDiscards => exact ht.frame rfl rfl rfl rfl rfl fun _ => rfl

theorem refInv_reach {nicOk : RxTrace → Nat → Prop} {c : RxHeaderCodes} {q : Nat} {t : RxTrace}
    (hq : q < 8) (h : RxReach (freshGrant q) nicOk c q t) : RefInv q t := by
  induction h with
  | start s qid =>
    have hend : ((efctViStartRxq s q qid).rxqPtr q).end = 0 := by simp [efctViStartRxq]
    refine RefInv.of_end_zero hend (fun p hp => absurd hp (List.not_mem_nil p)) rfl
      ⟨fun x hx => ?_, fun sb hs => absurd hs Bool.false_ne_true⟩
    simp [pendingRefs, unresolvedSlots, hend] at hx
  | step _ hs ih => exact refInv_step hq ih hs

theorem rx_refcnt_conserved {nicOk : RxTrace → Nat → Prop} {c : RxHeaderCodes} {q : Nat}
    {t : RxTrace} (hq : q < efViMaxEfctRxqs) (reach : RxReach (freshGrant q) nicOk c q t) :
    t.badFree = false ∧
      (∀ x ∈ t.outstanding, pktIdToRxqIx x = q ∧ t.held (pktIdToLocalSuperbufIx x)) ∧
      ∀ sb, t.held sb →
        (t.vi.descriptors (efctRxDescForSb q sb)).refcnt =
          refsIn sb (unresolvedSlots (t.vi.rxqPtr q)) + refsIn sb t.outstanding ∧
        0 < (t.vi.descriptors (efctRxDescForSb q sb)).refcnt ∧
        (t.vi.descriptors (efctRxDescForSb q sb)).refcnt < 2 ^ 16 := by
  have h := refInv_reach hq reach
  refine ⟨h.no_bad_free, fun x hx => h.law.pending_held x (List.mem_append_right _ hx),
    fun sb hs => ?_⟩
  obtain ⟨-, heq, hlt, hpos⟩ := h.law.held_ok sb hs
  rw [sbRefcnt, pendingRefs, refsIn_append] at heq
  rw [pendingRefs, refsIn_append] at hpos
  exact ⟨heq, by rw [heq]; exact hpos, hlt⟩

theorem rx_refcnt_conserved_first_grant :
    ∃ t : RxTrace, (0 : Nat) < efViMaxEfctRxqs ∧
      RxReach (freshGrant 0) (fun _ _ => True) ⟨0, 0, 0, 0, 0, 0, 0, 0, 0⟩ 0 t ∧
      t.badFree = false ∧
      (∀ x ∈ t.outstanding, pktIdToRxqIx x = 0 ∧ t.held (pktIdToLocalSuperbufIx x)) ∧
      ∀ sb, t.held sb →
        (t.vi.descriptors (efctRxDescForSb 0 sb)).refcnt =
          refsIn sb (unresolvedSlots (t.vi.rxqPtr 0)) + refsIn sb t.outstanding ∧
        0 < (t.vi.descriptors (efctRxDescForSb 0 sb)).refcnt ∧
        (t.vi.descriptors (efctRxDescForSb 0 sb)).refcnt < 2 ^ 16 := by
  obtain ⟨t, reach⟩ : ∃ t, RxReach (freshGrant 0) (fun _ _ => True)
      ⟨0, 0, 0, 0, 0, 0, 0, 0, 0⟩ 0 t :=
    ⟨_, .step (.start ⟨fun _ => ⟨0, 0, 0⟩, fun _ => ⟨0, 0, 1, 0, ⟨false, false⟩⟩,
        fun _ => ⟨0, 0, 0, 0, 0⟩, fun _ => -1,
        fun _ => ⟨0, 0, 0, 0, 0, 0, 0, 0, false, false, 0, 0, 0, 0, by decide, by decide⟩,
        defaultRxDiscardMask⟩ 0)
      (.poll (some ⟨0, false, 0, by decide⟩) true 0 fun g hg _ => by
        cases hg; exact ⟨⟨by decide, by decide, by decide⟩, rfl⟩)⟩
  exact ⟨t, by decide, reach, rx_refcnt_conserved (by decide) reach⟩

end EfctVi
