import EfctVi.RxPoll

namespace EfctVi

/-- The `int16_t` that a `uint32_t` converts to. -/
def toInt16 (x : Nat) : Int :=
  if x % 2 ^ 16 < 2 ^ 15 then (x % 2 ^ 16 : Nat) else (x % 2 ^ 16 : Nat) - 2 ^ 16

/-- efct_rx_sb_free_push: the superbuf's descriptor links to the old head of queue `qid`'s free
stack, and `sbid` becomes the head. -/
def efctRxSbFreePush (s : RxState) (qid sbid : Nat) : RxState :=
  let ix := efctRxDescForSb qid sbid
  { s.setDesc ix { s.descriptors ix with sbidNext := s.sbDescFreeHead qid } with
    sbDescFreeHead := Function.update s.sbDescFreeHead qid (toInt16 sbid) }

def efctRxSbFreeNext (s : RxState) (qid sbid : Nat) : Int :=
  (s.descriptors (efctRxDescForSb qid sbid)).sbidNext

/-- The loop of efct_vi_init over `sb_desc_free_head`: every free stack starts empty. -/
def efctViInitFreeHeads (s : RxState) : RxState :=
  { s with sbDescFreeHead := fun _ => -1 }

/-- The collaborator's pop of queue `qid`'s free stack,
`sb_desc_free_head[qid] = efct_rx_sb_free_next(vi, qid, sb_desc_free_head[qid])`, with the
`int16_t` head passed as a `uint32_t`. -/
def freeStackPop (s : RxState) (qid : Nat) : RxState :=
  let next := efctRxSbFreeNext s qid (s.sbDescFreeHead qid % 2 ^ 32).toNat
  { s with sbDescFreeHead := Function.update s.sbDescFreeHead qid next }

/-- Following efct_rx_sb_free_next from `h` on queue `q` visits the indices of `l` in order and
then reaches -1. -/
def FreeChain (s : RxState) (q : Nat) : Int → List Nat → Prop
  | h, [] => h = -1
  | h, sb :: l => h = sb ∧ FreeChain s q (efctRxSbFreeNext s q sb) l

/-- The free stacks together with their entries, newest first (a ghost record). -/
structure FreeSys where
  vi : RxState
  entries : Nat → List Nat

/-- One operation on the free stack of queue `q`: a push of an index not on it, or a pop by the
collaborator of a stack whose head is not -1. -/
inductive FreeStep (q : Nat) : FreeSys → FreeSys → Prop
  | push {sys : FreeSys} (sb : Nat) (hq : q < efViMaxEfctRxqs) (hsb : sb < ciEfctMaxSuperbufs)
      (hnot : sb ∉ sys.entries q) :
      FreeStep q sys
        ⟨efctRxSbFreePush sys.vi q sb, Function.update sys.entries q (sb :: sys.entries q)⟩
  | pop {sys : FreeSys} (hq : q < efViMaxEfctRxqs) (hne : sys.vi.sbDescFreeHead q ≠ -1) :
      FreeStep q sys ⟨freeStackPop sys.vi q, Function.update sys.entries q (sys.entries q).tail⟩

/-- The histories of the free stacks from efct_vi_init on, over any descriptor table. -/
inductive FreeReach (s0 : RxState) : FreeSys → Prop
  | start : FreeReach s0 ⟨efctViInitFreeHeads s0, fun _ => []⟩
  | step {q : Nat} {sys sys' : FreeSys} : FreeReach s0 sys → FreeStep q sys sys' →
      FreeReach s0 sys'

/-- The fields of a descriptor that the receive path owns. -/
def RxDescriptor.SameData (d d' : RxDescriptor) : Prop :=
  d'.refcnt = d.refcnt ∧ d'.superbufPkts = d.superbufPkts ∧ d'.finalTsStatus = d.finalTsStatus ∧
    d'.finalTimestamp = d.finalTimestamp

section Lemmas

variable {s : RxState} {q : Nat}

theorem toInt16_of_lt {x : Nat} (h : x < 2 ^ 15) : toInt16 x = x := by
  simp only [toInt16, Nat.mod_eq_of_lt (h.trans (by decide) : x < 2 ^ 16), if_pos h]

theorem efctRxDescForSb_eq_iff {q sb q' sb' : Nat} (hsb : sb < ciEfctMaxSuperbufs)
    (hsb' : sb' < ciEfctMaxSuperbufs) :
    efctRxDescForSb q' sb' = efctRxDescForSb q sb ↔ q' = q ∧ sb' = sb := by
  rw [efctRxDescForSb_eq hsb, efctRxDescForSb_eq hsb']
  simp only [ciEfctMaxSuperbufs] at hsb hsb' ⊢
  constructor
  · intro h; omega
  · rintro ⟨rfl, rfl⟩; rfl

/-- After a push of `sb` on `q`, its descriptor links to the old head; no other link moves. -/
theorem efctRxSbFreeNext_push {sb q' sb' : Nat} (hsb : sb < ciEfctMaxSuperbufs)
    (hsb' : sb' < ciEfctMaxSuperbufs) :
    efctRxSbFreeNext (efctRxSbFreePush s q sb) q' sb' =
      if q' = q ∧ sb' = sb then s.sbDescFreeHead q else efctRxSbFreeNext s q' sb' := by
  simp only [efctRxSbFreeNext, efctRxSbFreePush, RxState.setDesc]
  split_ifs with h
  · rw [(efctRxDescForSb_eq_iff hsb hsb').mpr h, Function.update_same]
  · rw [Function.update_noteq (mt (efctRxDescForSb_eq_iff hsb hsb').mp h)]

@[simp] theorem efctRxSbFreePush_head (sb : Nat) :
    (efctRxSbFreePush s q sb).sbDescFreeHead = Function.update s.sbDescFreeHead q (toInt16 sb) :=
  rfl

theorem freeStackPop_head :
    (freeStackPop s q).sbDescFreeHead = Function.update s.sbDescFreeHead q
      (efctRxSbFreeNext s q (s.sbDescFreeHead q % 2 ^ 32).toNat) :=
  rfl

@[simp] theorem efctRxSbFreeNext_pop (q' sb : Nat) :
    efctRxSbFreeNext (freeStackPop s q) q' sb = efctRxSbFreeNext s q' sb := rfl

theorem FreeChain.congr {s' : RxState} : ∀ {h : Int} {l : List Nat},
    (∀ sb ∈ l, efctRxSbFreeNext s' q sb = efctRxSbFreeNext s q sb) → FreeChain s q h l →
      FreeChain s' q h l
  | _, [], _, hc => hc
  | _, sb :: _, he, ⟨rfl, hc⟩ =>
    ⟨rfl, he sb (List.mem_cons_self _ _) ▸
      FreeChain.congr (fun x hx => he x (List.mem_cons_of_mem _ hx)) hc⟩

end Lemmas

/-- What every history of the free stacks keeps: each queue's chain of links is its stack. -/
structure FreeInv (sys : FreeSys) : Prop where
  chain : ∀ q < efViMaxEfctRxqs, FreeChain sys.vi q (sys.vi.sbDescFreeHead q) (sys.entries q)
  nodup : ∀ q, (sys.entries q).Nodup
  bound : ∀ q, ∀ sb ∈ sys.entries q, sb < ciEfctMaxSuperbufs

theorem FreeInv.push {sys : FreeSys} {q sb : Nat} (h : FreeInv sys)
    (hsb : sb < ciEfctMaxSuperbufs) (hnot : sb ∉ sys.entries q) :
    FreeInv ⟨efctRxSbFreePush sys.vi q sb, Function.update sys.entries q (sb :: sys.entries q)⟩ where
  chain q' hq' := by
    by_cases hqq : q' = q
    · subst hqq
      simp only [efctRxSbFreePush_head, Function.update_same]
      refine ⟨toInt16_of_lt (hsb.trans (by decide)), ?_⟩
      rw [efctRxSbFreeNext_push hsb hsb, if_pos ⟨rfl, rfl⟩]
      refine (h.chain q' hq').congr fun x hx => ?_
      rw [efctRxSbFreeNext_push hsb (h.bound q' x hx),
        if_neg fun (hx' : q' = q' ∧ x = sb) => hnot (hx'.2 ▸ hx)]
    · simp only [efctRxSbFreePush_head, Function.update_noteq hqq]
      refine (h.chain q' hq').congr fun x hx => ?_
      rw [efctRxSbFreeNext_push hsb (h.bound q' x hx), if_neg fun (hx' : q' = q ∧ x = sb) => hqq hx'.1]
  nodup q' := by
    by_cases hqq : q' = q
    · subst hqq; simpa using ⟨hnot, h.nodup q'⟩
    · simpa [Function.update_noteq hqq] using h.nodup q'
  bound q' x hx := by
    by_cases hqq : q' = q
    · subst hqq
      simp only [Function.update_same, List.mem_cons] at hx
      rcases hx with rfl | hx
      · exact hsb
      · exact h.bound q' x hx
    · exact h.bound q' x (by simpa [Function.update_noteq hqq] using hx)

theorem FreeInv.pop {sys : FreeSys} {q : Nat} (h : FreeInv sys) (hq : q < efViMaxEfctRxqs)
    (hne : sys.vi.sbDescFreeHead q ≠ -1) :
    FreeInv ⟨freeStackPop sys.vi q, Function.update sys.entries q (sys.entries q).tail⟩ where
  chain q' hq' := by
    have hs : ∀ h l, FreeChain sys.vi q' h l → FreeChain (freeStackPop sys.vi q) q' h l :=
      fun _ _ hc => FreeChain.congr (s := sys.vi) (fun _ _ => rfl) hc
    by_cases hqq : q' = q
    · subst hqq
      have hc := h.chain q' hq'
      cases hst : sys.entries q' with
      | nil => rw [hst] at hc; exact absurd hc hne
      | cons sb l =>
        rw [hst] at hc
        obtain ⟨hh, hc⟩ := hc
        simp only [freeStackPop_head, Function.update_same, hst, List.tail_cons, hh]
        rw [Int.emod_eq_of_lt (by omega) (by
          have := h.bound q' sb (by simp [hst])
          simp only [ciEfctMaxSuperbufs] at this; omega), Int.toNat_natCast]
        exact hs _ _ hc
    · simp only [freeStackPop_head, Function.update_noteq hqq]
      exact hs _ _ (h.chain q' hq')
  nodup q' := by
    by_cases hqq : q' = q
    · subst hqq; simpa using (h.nodup q').sublist (List.tail_sublist _)
    · simpa [Function.update_noteq hqq] using h.nodup q'
  bound q' x hx := by
    by_cases hqq : q' = q
    · subst hqq
      simp only [Function.update_same] at hx
      exact h.bound q' x (List.mem_of_mem_tail hx)
    · exact h.bound q' x (by simpa [Function.update_noteq hqq] using hx)

theorem FreeInv.step {q : Nat} {sys sys' : FreeSys} (h : FreeInv sys) (hs : FreeStep q sys sys') :
    FreeInv sys' := by
  cases hs with
  | push sb _ hsb hnot => exact h.push hsb hnot
  | pop hq hne => exact h.pop hq hne

theorem FreeInv.reach {s0 : RxState} {sys : FreeSys} (reach : FreeReach s0 sys) : FreeInv sys := by
  induction reach with
  | start => exact ⟨fun _ _ => rfl, fun _ => List.nodup_nil, fun _ _ hx => absurd hx (List.not_mem_nil _)⟩
  | step _ hs ih => exact ih.step hs

/-- An operation on queue `q` leaves the head and the stack of every other queue, and the data
the receive path keeps in every descriptor. -/
theorem FreeStep.frame {q : Nat} {sys sys' : FreeSys} (hs : FreeStep q sys sys') :
    (∀ q', q' ≠ q → sys'.vi.sbDescFreeHead q' = sys.vi.sbDescFreeHead q' ∧
      sys'.entries q' = sys.entries q') ∧
      ∀ ix, (sys.vi.descriptors ix).SameData (sys'.vi.descriptors ix) := by
  cases hs with
  | push sb =>
    refine ⟨fun q' hq' => ?_, fun ix => ?_⟩
    · simp [efctRxSbFreePush, Function.update_noteq hq']
    · simp only [efctRxSbFreePush, RxState.setDesc]
      by_cases hix : ix = efctRxDescForSb q sb
      · subst hix; simp [RxDescriptor.SameData]
      · simp [RxDescriptor.SameData, Function.update_noteq hix]
  | pop =>
    exact ⟨fun q' hq' => by simp [freeStackPop, Function.update_noteq hq'],
      fun _ => ⟨rfl, rfl, rfl, rfl⟩⟩

/-- From the -1 heads of efct_vi_init, under any pushes and pops, each queue's efct_rx_sb_free_next
chain visits its stack newest first, and a step on one queue leaves the others alone. -/
theorem free_stacks_lifo {s0 : RxState} {sys : FreeSys} (reach : FreeReach s0 sys) :
    (∀ q < efViMaxEfctRxqs, FreeChain sys.vi q (sys.vi.sbDescFreeHead q) (sys.entries q)) ∧
      ∀ q sys', FreeStep q sys sys' →
        (∀ q', q' ≠ q → sys'.vi.sbDescFreeHead q' = sys.vi.sbDescFreeHead q' ∧
          sys'.entries q' = sys.entries q') ∧
        ∀ ix, (sys.vi.descriptors ix).SameData (sys'.vi.descriptors ix) :=
  ⟨(FreeInv.reach reach).chain, fun _ _ hs => hs.frame⟩

theorem free_stacks_lifo_two_pushes_one_pop :
    ∃ sys : FreeSys, FreeReach ⟨fun _ => ⟨0, 0, 0⟩, fun _ => ⟨0, 0, 1, 0, ⟨false, false⟩⟩,
        fun _ => ⟨0, 0, 0, 0, 0⟩, fun _ => 0,
        fun _ => ⟨0, 0, 0, 0, 0, 0, 0, 0, false, false, 0, 0, 0, 0, by decide, by decide⟩,
        defaultRxDiscardMask⟩ sys ∧
      sys.entries 0 = [5] ∧ FreeChain sys.vi 0 (sys.vi.sbDescFreeHead 0) [5] := by
  obtain ⟨sys, reach, he⟩ : ∃ sys : FreeSys, FreeReach ⟨fun _ => ⟨0, 0, 0⟩,
      fun _ => ⟨0, 0, 1, 0, ⟨false, false⟩⟩, fun _ => ⟨0, 0, 0, 0, 0⟩, fun _ => 0,
      fun _ => ⟨0, 0, 0, 0, 0, 0, 0, 0, false, false, 0, 0, 0, 0, by decide, by decide⟩,
      defaultRxDiscardMask⟩ sys ∧ sys.entries 0 = [5] :=
    ⟨_, .step (q := 0) (.step (q := 0) (.step (q := 0) .start
      (.push 5 (by decide) (by decide) (by decide))) (.push 3 (by decide) (by decide) (by decide)))
      (.pop (by decide) (by decide)), rfl⟩
  exact ⟨sys, reach, he, he ▸ (free_stacks_lifo reach).1 0 (by decide)⟩

end EfctVi
