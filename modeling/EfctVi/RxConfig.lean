import Mathlib.Data.List.Nodup
import EfctVi.EventqPoll

namespace EfctVi

/-- Generations another agent publishes are new: no two are equal, and none is the queue's
cached or live generation. -/
def ConfigPublishes.Fresh (pubs : ConfigPublishes) (rxq : EfctRxq) : Prop :=
  pubs.all.Nodup ∧ ∀ g ∈ pubs.all, g ≠ rxq.configGeneration ∧ g ≠ rxq.liveConfigGeneration

instance (pubs : ConfigPublishes) (rxq : EfctRxq) : Decidable (pubs.Fresh rxq) :=
  inferInstanceAs (Decidable (_ ∧ _))

/-- Publishing `l` then `l'` leaves the last of `l'`, or, if `l'` is empty, the last of `l`. -/
theorem getLastD_append {α : Type} (l l' : List α) (d : α) :
    (l ++ l').getLastD d = l'.getLastD (l.getLastD d) := by
  simp only [List.getLastD_eq_getLast?, List.getLast?_append]
  cases l'.getLast? <;> rfl

section Publish

variable {qid : Nat} {s : RxState}

/-- A run of publishes leaves the last generation published live, and the queue otherwise as
it was. -/
theorem publishGens_q (gens : List Nat) :
    (publishGens qid gens s).q qid =
      { s.q qid with liveConfigGeneration := gens.getLastD (s.q qid).liveConfigGeneration } := by
  induction gens generalizing s with
  | nil => rfl
  | cons g gens ih =>
    show (publishGens qid gens _).q qid = _
    rw [ih, List.getLastD_cons]
    simp

theorem efctPollRxHeaders_q (c : RxHeaderCodes) (evsLen : Int) (frees : List (Nat × Nat)) :
    (efctPollRxHeaders c qid evsLen s frees).1.q = s.q :=
  pollRxLoop_q

/-- efct_poll_rx's configuration block, as it leaves the queue: on the refresh path the cached
generation is the live value read before ops->refresh, whatever ops->refresh returns. -/
theorem pollRxAfterRollover_q (c : RxHeaderCodes) (refreshOk : Bool) (pubs : ConfigPublishes)
    (evsLen : Int) (frees : List (Nat × Nat)) :
    (pollRxAfterRollover c qid refreshOk pubs evsLen s frees).1.q qid =
      if efctRxqNeedConfig (s.q qid) then
        { s.q qid with
          configGeneration := pubs.beforeRead.getLastD (s.q qid).liveConfigGeneration
          liveConfigGeneration := (pubs.duringRefresh ++ pubs.afterWrite).getLastD
            (pubs.beforeRead.getLastD (s.q qid).liveConfigGeneration) }
      else
        { s.q qid with liveConfigGeneration := pubs.all.getLastD (s.q qid).liveConfigGeneration } := by
  simp only [getLastD_append]
  unfold pollRxAfterRollover
  split_ifs <;> simp [publishGens_q, efctPollRxHeaders_q]

end Publish

/-- When generations never repeat, the live value moves off the one read exactly when a
generation is published after the read. -/
theorem getLastD_ne_read {a l : List Nat} {d : Nat} (hnodup : (a ++ l).Nodup) (hd : d ∉ l) :
    l.getLastD (a.getLastD d) ≠ a.getLastD d ↔ l ≠ [] := by
  refine ⟨fun h hl => h (by rw [hl]; rfl), fun hl hx => ?_⟩
  obtain ⟨x, hlast⟩ := Option.ne_none_iff_exists'.mp (mt List.getLast?_eq_none_iff.mp hl)
  have hxl : x ∈ l := List.mem_of_getLast?_eq_some hlast
  rw [List.getLastD_eq_getLast?, hlast, Option.getD_some] at hx
  rcases List.mem_cons.mp (List.getLastD_mem_cons a d) with hread | hread
  · exact hd (hread ▸ hx ▸ hxl)
  · exact List.disjoint_of_nodup_append hnodup hread (hx ▸ hxl)

/-- In efct_poll_rx's configuration block, with new generations published at any of its
interruption points, the cached generation ends as the live value read before ops->refresh, and
the queue still needs configuration exactly when a generation was published after that read. -/
theorem config_generation_not_masked (c : RxHeaderCodes) (qid : Nat) (refreshOk : Bool)
    (pubs : ConfigPublishes) (evsLen : Int) (s : RxState) (frees : List (Nat × Nat))
    (hfresh : pubs.Fresh (s.q qid)) :
    let rxq := (pollRxAfterRollover c qid refreshOk pubs evsLen s frees).1.q qid
    rxq.configGeneration =
        (if efctRxqNeedConfig (s.q qid) then pubs.beforeRead.getLastD (s.q qid).liveConfigGeneration
          else (s.q qid).configGeneration) ∧
      (efctRxqNeedConfig rxq = true ↔
        (if efctRxqNeedConfig (s.q qid) then pubs.duringRefresh ++ pubs.afterWrite
          else pubs.all) ≠ []) := by
  obtain ⟨hnodup, hnew⟩ := hfresh
  have hlive : ∀ l ⊆ pubs.all, (s.q qid).liveConfigGeneration ∉ l :=
    fun l hl hin => (hnew _ (hl hin)).2 rfl
  simp only [pollRxAfterRollover_q]
  by_cases hneed : efctRxqNeedConfig (s.q qid) = true
  · simp only [if_pos hneed, true_and]
    simp only [efctRxqNeedConfig, bne_iff_ne, ne_eq]
    rw [ConfigPublishes.all, List.append_assoc] at hnodup hlive
    exact getLastD_ne_read hnodup (hlive _ (List.subset_append_right _ _))
  · have hcached : (s.q qid).liveConfigGeneration = (s.q qid).configGeneration := by
      simpa [efctRxqNeedConfig] using hneed
    simp only [if_neg hneed, true_and]
    simp only [efctRxqNeedConfig, bne_iff_ne, ne_eq]
    rw [← hcached]
    exact getLastD_ne_read (a := []) hnodup (hlive _ (List.Subset.refl _))

/-- Queue 0 has cached generation 0 while the live generation is 1; no packets are posted. -/
def configRaceRx : RxState where
  rxqPtr := fun _ => ⟨0, 0, 0⟩
  q := fun _ => ⟨0, 0, 1, 1, ⟨false, false⟩⟩
  descriptors := fun _ => ⟨0, 0, 0, 0, 0⟩
  sbDescFreeHead := fun _ => -1
  superbuf := fun _ => ⟨0, 1, 0, 0, 0, 0, 0, 0, false, false, 0, 0, 0, 0, by decide, by decide⟩
  rxDiscardMask := ⟨false, false, false, false, false, false, false⟩

/-- A generation published while ops->refresh is in flight: the poll caches the generation 1
it read, and the queue still needs configuration for the generation 2. -/
theorem config_generation_not_masked_publish_in_refresh :
    ConfigPublishes.Fresh ⟨[], [2], []⟩ (configRaceRx.q 0) ∧
      ((pollRxAfterRollover ⟨0, 0, 0, 0, 0, 0, 0, 0, 0⟩ 0 true ⟨[], [2], []⟩ 0 configRaceRx
        []).1.q 0).configGeneration = 1 ∧
      efctRxqNeedConfig ((pollRxAfterRollover ⟨0, 0, 0, 0, 0, 0, 0, 0, 0⟩ 0 true ⟨[], [2], []⟩ 0
        configRaceRx []).1.q 0) = true :=
  have hfresh : ConfigPublishes.Fresh ⟨[], [2], []⟩ (configRaceRx.q 0) := by decide
  have h := config_generation_not_masked ⟨0, 0, 0, 0, 0, 0, 0, 0, 0⟩ 0 true ⟨[], [2], []⟩ 0
    configRaceRx [] hfresh
  ⟨hfresh, h.1, h.2.mpr (by decide)⟩

end EfctVi
