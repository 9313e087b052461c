import ByteTaper.ControlPlane.PolicyUpdateQueue

/-! # Invariants of the policy update queue

What holds in every state that clients, workers and `begin_draining` can reach, whatever the order
of their steps: a shard that is not idle is in the ready list or in the hands of a worker, and the
ready list holds no shard twice. As long as draining has not begun, a shard in the hands of a worker
is not in the ready list, so that no second worker can take it; draining breaks this for a shard
that has waiting jobs while a worker holds it. -/

namespace ByteTaper.ControlPlane

open List Function WorkerPc

variable {cfg : PolicyUpdateQueueConfig} {hash : Text → Nat} {q q' : Queue cfg} {a : QueueAction}

/-- A shard between claim and release has one worker, and no other worker can find it. -/
def Exclusive (q : Queue cfg) : Prop :=
  ∀ w s, (q.workers w).shard? = some s →
    s ∉ q.readyShardIds ∧
      ((q.shards s).state = .processing ∨ (q.shards s).state = .queued) ∧
      ∀ w', (q.workers w').shard? = some s → w' = w

structure QueueInv (q : Queue cfg) : Prop where
  readyNodup : q.readyShardIds.Nodup
  notStopped : ∀ s, (q.shards s).state ≠ .stopped
  idleEmpty : ∀ s, (q.shards s).state = .idle → (q.shards s).jobs = []
  /-- No wake-up is lost: a shard that is not idle waits in the ready list or has a worker. -/
  busySeen : ∀ s, (q.shards s).state ≠ .idle →
    s ∈ q.readyShardIds ∨ ∃ w, (q.workers w).shard? = some s
  readyClaimable : ∀ s ∈ q.readyShardIds, (q.shards s).state ≠ .processing
  claimer : ∀ w, q.queueMu = some (.claiming w) → q.workers w = .idle
  drainer : ∀ i, q.queueMu = some (.draining i) → q.draining = true
  readyBusy : q.draining = false → ∀ s ∈ q.readyShardIds, (q.shards s).state ≠ .idle
  exclusive : q.draining = false → Exclusive q

theorem queueInv_init : QueueInv (.init : Queue cfg) := by
  constructor <;> simp [PolicyUpdateQueue.init, Exclusive, shard?]

/-! ## One step, invariant by invariant -/

section

variable (hi : QueueInv q) (h : QueueStep cfg hash q a q')

include hi h

theorem QueueInv.readyNodup_step : q'.readyShardIds.Nodup := by
  cases h with
  | accept _ _ _ _ s _ hdrain =>
    split
    next hidle =>
      have hs : s ∉ q.readyShardIds := fun hs => hi.readyBusy hdrain s hs hidle
      exact nodup_append.mpr ⟨hi.readyNodup, by simp, by rintro b hb c hc rfl; simp_all⟩
    · exact hi.readyNodup
  | drainMark s | releaseReady w s => exact nodup_pushAbsent hi.readyNodup s
  | claimDrop _ _ _ _ _ hready | claimTake _ _ _ _ hready =>
    exact (nodup_cons.mp (hready ▸ hi.readyNodup)).2
  | _ => exact hi.readyNodup

theorem QueueInv.shard_step (t : Fin cfg.shardCount) : (q'.shards t).state ≠ .stopped ∧
    ((q'.shards t).state = .idle → (q'.shards t).jobs = []) := by
  have ht := And.intro (hi.notStopped t) (hi.idleEmpty t)
  cases h with
  | accept _ _ _ _ s | drainMark s | claimTake _ s | releaseIdle _ s | popSome _ s =>
    by_cases hts : t = s <;> simp_all
  | claimDrop _ s _ _ _ _ hstate =>
    by_cases hts : t = s
    · rcases hstate with ⟨hempty, rfl⟩ | ⟨rfl, -⟩ <;> simp_all
    · simp_all
  | releaseReady w s =>
    by_cases hts : t = s
    · subst hts
      cases q.draining <;> simp
    · simp_all
  | _ => exact ht

end

/-- The shard at the front of the ready list is not in the rest of it. -/
theorem QueueInv.front_notMem (hi : QueueInv q) {s rest} (hready : q.readyShardIds = s :: rest) : s ∉ rest :=
  (nodup_cons.mp (hready ▸ hi.readyNodup)).1

/-- A shard of the ready list has just become queued or draining; or it was there before, in the same
    state, or in the hands of a worker that releases it without jobs. -/
theorem QueueInv.ready_step (hi : QueueInv q) (h : QueueStep cfg hash q a q') {t}
    (ht : t ∈ q'.readyShardIds) :
    (q'.shards t).state = .queued ∨ (q'.shards t).state = .draining ∨
      t ∈ q.readyShardIds ∧ ((q'.shards t).state = (q.shards t).state ∨
        (q'.shards t).state = .idle ∧ ∃ w, (q.workers w).shard? = some t) := by
  cases h with
  | accept _ _ _ _ s =>
    by_cases hts : t = s
    · simp [hts]
    · have hmem : t ∈ q.readyShardIds := by
        split at ht <;> simp_all
      simp [hts, hmem]
  | drainMark s =>
    by_cases hts : t = s
    · simp [hts]
    · simp [hts, (mem_pushAbsent.mp ht).resolve_right hts]
  | claimDrop _ s _ _ _ hready | claimTake _ s _ _ hready =>
    have hne : t ≠ s := fun hts => hi.front_notMem hready (hts ▸ ht)
    simp [hne, hready, ht]
  | popSome _ s => by_cases hts : t = s <;> simp_all
  | releaseIdle w s _ hw =>
    by_cases hts : t = s
    · subst hts
      exact .inr (.inr ⟨ht, .inr ⟨by simp, w, by simp [hw, shard?]⟩⟩)
    · simp_all
  | releaseReady _ s =>
    by_cases hts : t = s
    · subst hts
      cases q.draining <;> simp
    · simp [hts, (mem_pushAbsent.mp ht).resolve_right hts]
  | _ => exact .inr (.inr ⟨ht, .inl rfl⟩)

theorem QueueInv.readyClaimable_step (hi : QueueInv q) (h : QueueStep cfg hash q a q')
    (t : Fin cfg.shardCount) (ht : t ∈ q'.readyShardIds) : (q'.shards t).state ≠ .processing := by
  obtain hnow | hnow | ⟨hmem, hnow | ⟨hnow, -⟩⟩ := hi.ready_step h ht
  all_goals rw [hnow]
  · simp
  · simp
  · exact hi.readyClaimable t hmem
  · simp

variable {s : Fin cfg.shardCount} {pc : WorkerPc cfg.shardCount}

/-- Where a worker stands when another worker has moved. -/
theorem shard_update_of_same {w w' : Nat} (h : pc.shard? = (q.workers w).shard?) :
    (update q.workers w pc w').shard? = (q.workers w').shard? := by
  by_cases hw : w' = w
  · subst hw
    simpa using h
  · simp [hw]

section

variable (h : QueueStep cfg hash q a q')

include h

theorem QueueInv.busySeen_step (hi : QueueInv q) (t : Fin cfg.shardCount)
    (ht : (q'.shards t).state ≠ .idle) :
    t ∈ q'.readyShardIds ∨ ∃ w, (q'.workers w).shard? = some t := by
  have hold := hi.busySeen t
  cases h with
  | accept _ _ _ _ s =>
    by_cases hts : t = s
    · subst hts
      by_cases hidle : (q.shards t).state = .idle
      · simp [hidle]
      · simpa [hidle] using hold hidle
    · have hseen := hold (by simpa [hts] using ht)
      rcases hseen with hmem | hw
      · left
        split <;> simp [hmem]
      · exact Or.inr hw
  | drainMark s =>
    by_cases hts : t = s
    · exact Or.inl (mem_pushAbsent.mpr (Or.inr hts))
    · have hseen := hold (by simpa [hts] using ht)
      exact hseen.imp_left fun hmem => mem_pushAbsent.mpr (Or.inl hmem)
  | claimDrop _ s _ state _ hready hstate =>
    by_cases hts : t = s
    · subst hts
      -- a shard in the ready list is neither processing nor stopped, so it was idle or is now
      have h1 := hi.readyClaimable t (by simp [hready])
      have h2 := hi.notStopped t
      rcases hstate with ⟨-, rfl⟩ | ⟨rfl, h3, h4⟩
      · simp at ht
      · cases hs : (q.shards t).state <;> simp_all
    · have hseen := hold (by simpa [hts] using ht)
      exact hseen.imp_left fun hmem => by simpa [hready, hts] using hmem
  | claimTake w s _ hmu hready =>
    by_cases hts : t = s
    · subst hts
      exact Or.inr ⟨w, by simp [shard?]⟩
    · rcases hold (by simpa [hts] using ht) with hmem | ⟨w', hw'⟩
      · exact Or.inl (by simpa [hready, hts] using hmem)
      · have hne : w' ≠ w := by
          rintro rfl
          simp [hi.claimer w' hmu, shard?] at hw'
        exact Or.inr ⟨w', by simpa [hne] using hw'⟩
  | popNone _ _ hw | finish _ _ _ hw =>
    refine (hold ht).imp_right fun ⟨w', hw'⟩ => ⟨w', ?_⟩
    rwa [shard_update_of_same (by simp [hw, shard?])]
  | popSome _ s _ _ hw =>
    have hstate : (q.shards t).state ≠ .idle := by
      by_cases hts : t = s <;> simp_all
    refine (hold hstate).imp_right fun ⟨w', hw'⟩ => ⟨w', ?_⟩
    rwa [shard_update_of_same (by simp [hw, shard?])]
  | releaseIdle w s _ hw =>
    have hts : t ≠ s := by
      rintro rfl
      simp at ht
    refine (hold (by simpa [hts] using ht)).imp_right fun ⟨w', hw'⟩ => ⟨w', ?_⟩
    have hne : w' ≠ w := by
      rintro rfl
      simp only [hw, shard?, Option.some.injEq] at hw'
      exact hts hw'.symm
    simpa [hne] using hw'
  | releaseReady w s _ hw =>
    by_cases hts : t = s
    · exact Or.inl (mem_pushAbsent.mpr (Or.inr hts))
    rcases hold (by simpa [hts] using ht) with hmem | ⟨w', hw'⟩
    · exact Or.inl (mem_pushAbsent.mpr (Or.inl hmem))
    · have hne : w' ≠ w := by
        rintro rfl
        simp only [hw, shard?, Option.some.injEq] at hw'
        exact hts hw'.symm
      exact Or.inr ⟨w', by simpa [hne] using hw'⟩
  | _ => exact hold ht

theorem QueueInv.claimer_step (hi : QueueInv q) (w : Nat) (hmu : q'.queueMu = some (.claiming w)) :
    q'.workers w = .idle := by
  have hold := hi.claimer w
  cases h with
  | claimBegin _ _ hw =>
    simp only [Option.some.injEq, QueueLockHolder.claiming.injEq] at hmu
    exact hmu ▸ hw
  | popNone w' | popSome w' | finish w' =>
    have hidle := hold hmu
    by_cases hww : w = w' <;> simp_all
  | _ => simp_all

theorem QueueInv.drainer_step (hi : QueueInv q) (i : Nat) (hmu : q'.queueMu = some (.draining i)) :
    q'.draining := by
  have hold := hi.drainer
  cases h <;> simp_all

/-- Nothing ends draining. -/
theorem draining_of_step (hd : q'.draining = false) : q.draining = false := by
  cases h <;> simp_all

theorem QueueInv.readyBusy_step (hi : QueueInv q) (hd : q'.draining = false)
    (t : Fin cfg.shardCount) (ht : t ∈ q'.readyShardIds) : (q'.shards t).state ≠ .idle := by
  have hdq := draining_of_step h hd
  obtain hnow | hnow | ⟨hmem, hnow | ⟨-, w, hw⟩⟩ := hi.ready_step h ht
  · simp [hnow]
  · simp [hnow]
  · rw [hnow]
    exact hi.readyBusy hdq t hmem
  · -- a held shard is not in the ready list
    exact absurd hmem (hi.exclusive hdq w t hw).1

end

/-! ## Mutual exclusion -/

/-- The one step that can put a shard in the hands of a worker back into the ready list is left
    out: `begin_draining` does not reach a shard that has waiting jobs while a worker holds it. -/
def DrainsUnclaimed (q : Queue cfg) (a : QueueAction) : Prop :=
  a = .drainVisit → ∀ s : Fin cfg.shardCount, q.queueMu = some (.draining s) →
    (q.shards s).jobs ≠ [] → ∀ w, (q.workers w).shard? ≠ some s

/-- A step of one worker on its own shard keeps mutual exclusion. -/
theorem Exclusive.update_worker (hx : Exclusive q) {w : Nat}
    (h : pc.shard? = (q.workers w).shard?) :
    Exclusive { q with workers := update q.workers w pc } := by
  intro v s hv
  simp only [shard_update_of_same h] at hv ⊢
  exact hx v s hv

theorem Exclusive.release (hx : Exclusive q) {w : Nat} (hw : (q.workers w).shard? = some s)
    (shard : PolicyUpdateShard) {ready}
    (hready : ∀ t ∈ ready, t ∈ q.readyShardIds ∨ t = s) :
    Exclusive { q with
      shards := update q.shards s shard
      workers := update q.workers w .idle
      readyShardIds := ready } := by
  intro v t hv
  have hne : v ≠ w := by
    rintro rfl
    simp [shard?] at hv
  have hv' : (q.workers v).shard? = some t := by simpa [hne] using hv
  have hts : t ≠ s := by
    rintro rfl
    exact hne ((hx w t hw).2.2 v hv')
  obtain ⟨hnot, hstate, huniq⟩ := hx v t hv'
  refine ⟨fun hmem => ?_, by simpa [hts] using hstate, fun v' hv'' => ?_⟩
  · rcases hready t hmem with hmem | rfl
    · exact hnot hmem
    · exact hts rfl
  · apply huniq
    by_cases hvw : v' = w
    · subst hvw
      simp [shard?] at hv''
    · simpa [hvw] using hv''

section

variable (hi : QueueInv q) (h : QueueStep cfg hash q a q')

include hi h

theorem exclusive_step (hx : Exclusive q) (hguard : DrainsUnclaimed q a) : Exclusive q' := by
  cases h with
  | accept _ _ _ _ s =>
    intro w t hw
    obtain ⟨hnot, hstate, huniq⟩ := hx w t hw
    refine ⟨?_, ?_, huniq⟩
    · split
      next hidle =>
        have hts : t ≠ s := by
          rintro rfl
          simp [hidle] at hstate
        simp [hnot, hts]
      · exact hnot
    · by_cases hts : t = s
      · simp [hts]
      · simpa [hts] using hstate
  | drainMark s hmu hjobs =>
    intro w t hw
    obtain ⟨hnot, hstate, huniq⟩ := hx w t hw
    have hts : t ≠ s := fun hts => hguard rfl s hmu hjobs w (hts ▸ hw)
    refine ⟨fun hmem => ?_, by simpa [hts] using hstate, huniq⟩
    exact hnot ((mem_pushAbsent.mp hmem).resolve_right hts)
  | claimDrop _ _ _ _ _ hready =>
    intro v t hv
    obtain ⟨hnot, hstate, huniq⟩ := hx v t hv
    rw [hready, mem_cons, not_or] at hnot
    exact ⟨hnot.2, by simpa [hnot.1] using hstate, huniq⟩
  | claimTake w s _ _ hready =>
    have hunheld : ∀ v, (q.workers v).shard? ≠ some s := fun v hv =>
      (hx v s hv).1 (by simp [hready])
    intro v t hv
    by_cases hvw : v = w
    · subst hvw
      obtain rfl : s = t := by simpa [shard?] using hv
      refine ⟨hi.front_notMem hready, by simp, fun v' hv' => ?_⟩
      by_contra hne
      exact hunheld v' (by simpa [hne] using hv')
    · have hv' : (q.workers v).shard? = some t := by simpa [hvw] using hv
      obtain ⟨hnot, hstate, huniq⟩ := hx v t hv'
      rw [hready, mem_cons, not_or] at hnot
      refine ⟨hnot.2, by simpa [hnot.1] using hstate, fun v' hv'' => huniq v' ?_⟩
      by_cases hvw' : v' = w
      · subst hvw'
        exact absurd (by simpa [shard?] using hv'') (Ne.symm hnot.1)
      · simpa [hvw'] using hv''
  | popNone _ _ hw | finish _ _ _ hw => exact hx.update_worker (by simp [hw, shard?])
  | popSome w s job _ hw =>
    have hmoved : Exclusive { q with workers := update q.workers w (.executing s job) } :=
      hx.update_worker (by simp [hw, shard?])
    intro v t hv
    obtain ⟨hnot, hstate, huniq⟩ := hmoved v t hv
    refine ⟨hnot, ?_, huniq⟩
    by_cases hts : t = s <;> simp_all
  | releaseIdle _ _ _ hw =>
    exact hx.release (by simp [hw, shard?]) _ fun t ht => Or.inl ht
  | releaseReady _ _ _ hw =>
    exact hx.release (by simp [hw, shard?]) _ fun t ht => mem_pushAbsent.mp ht
  | _ => exact hx

/-- Before draining begins, no step is a visit of `begin_draining`. -/
theorem QueueInv.exclusive_step (hd : q'.draining = false) : Exclusive q' := by
  have hdq := draining_of_step h hd
  refine ControlPlane.exclusive_step hi h (hi.exclusive hdq) fun _ s hmu => ?_
  have := hi.drainer s hmu
  simp_all

theorem QueueInv.step : QueueInv q' where
  readyNodup := hi.readyNodup_step h
  notStopped t := (hi.shard_step h t).1
  idleEmpty t := (hi.shard_step h t).2
  busySeen := hi.busySeen_step h
  readyClaimable := hi.readyClaimable_step h
  claimer := hi.claimer_step h
  drainer := hi.drainer_step h
  readyBusy := hi.readyBusy_step h
  exclusive := hi.exclusive_step h

end

theorem queueInv_reachable (h : (queueSystem cfg hash).Reachable q) : QueueInv q :=
  h.invariant queueInv_init fun _ _ _ hi _ hs => hi.step (queueStep_cases hs)

theorem exclusive_reachable (h : (queueSystem cfg hash).ReachableUnder DrainsUnclaimed q) :
    Exclusive q := by
  have hboth : QueueInv q ∧ Exclusive q := by
    refine h.invariant (P := fun q => QueueInv q ∧ Exclusive q)
      ⟨queueInv_init, queueInv_init.exclusive rfl⟩ ?_
    rintro s a t ⟨hi, hx⟩ hg hs
    exact ⟨hi.step (queueStep_cases hs), ControlPlane.exclusive_step hi (queueStep_cases hs) hx hg⟩
  exact hboth.2

end ByteTaper.ControlPlane
