import ByteTaper.Runtime.WorkerQueueLookups
import ByteTaper.Runtime.WorkerQueueOrder
import ByteTaper.Runtime.WorkerQueueWakeups

/-! # Shutdown

After `worker_queue_shutdown` every worker goes round its own shards until a round has popped nothing,
and stops. A lane that such a round has passed was empty, and it stays empty if nothing is accepted for
the shard once its owner has left its loop. But a client tests `running` before it locks the shard: a
call that is between the two when the queue is shut down is accepted after the last round. -/

namespace ByteTaper.Runtime

open Cache List Function WorkerPc WorkerQueue L2Op
open Transition (System)

variable {cfg : WorkerQueueSettings} {hash : Text → UInt64} {l2 : L2Store}

/-! ## Where a worker stands in its round -/

/-- Nothing has been popped in the round. -/
def Task.idleRound (task : Task) : Bool := task.round.any fun (_, worked) => !worked

def Task.At (owned : List ShardId) (task : Task) : Prop :=
  ∀ index worked, task.round = some (index, worked) → owned[index]? = some task.shard

/-- A round is at the shard it counts, and a worker that executes jobs has popped one. -/
def WorkerPc.RoundOk (owned : List ShardId) : WorkerPc → Prop
  | .draining task _ executed => task.At owned ∧ (task.idleRound = true → executed = 0)
  | .lookingUp task _ _ | .clearing task _ _ | .invalidating task _ _ | .storing task _ _
  | .freeing task _ _ => task.At owned ∧ task.idleRound = false
  | .requeueing task | .pushing task => task.At owned
  | .waiting | .marking _ | .owned _ _ | .stopped => True

def RoundsOk (q : Queue cfg) : Prop := ∀ w, (q.workers w).RoundOk (workerOwnedShards cfg w)

theorem popped_idleRound (task : Task) : task.popped.idleRound = false := by
  cases hround : task.round <;> simp [Task.popped, Task.idleRound, hround]

variable {owned : List ShardId} {task : Task} {q q' : Queue cfg} {w : Fin cfg.workerCount}
  {pc : WorkerPc} {a : QueueAction cfg.workerCount} {s : ShardId}

theorem Task.At.popped (h : task.At owned) : task.popped.At owned := by
  intro index worked hround
  obtain ⟨⟨i, worked'⟩, hi, heq⟩ := Option.map_eq_some_iff.mp hround
  cases heq
  exact h _ _ hi

theorem roundOk_afterTask (owned : List ShardId) (task : Task) :
    (afterTask task).RoundOk owned := by
  unfold afterTask
  split <;> trivial

theorem Task.At.afterLane (h : task.At owned) (lane : Lane) :
    (afterLane task lane).RoundOk owned := by
  cases lane with
  | lookup | invalidate => exact ⟨h, fun _ => rfl⟩
  | store => exact h

theorem RoundsOk.setWorker (h : RoundsOk q) (hworkers : q'.workers = update q.workers w pc)
    (hpc : (q.workers w).RoundOk (workerOwnedShards cfg w) →
      pc.RoundOk (workerOwnedShards cfg w)) : RoundsOk q' := by
  intro v
  rw [hworkers]
  by_cases hv : v = w
  · subst hv
    rw [update_self]
    exact hpc (h v)
  · rw [update_of_ne hv]
    exact h v

theorem RoundsOk.step (h : RoundsOk q) (hstep : QueueStep cfg hash q a q') : RoundsOk q' := by
  cases hstep with
  | enter | rejectLookup | fullLookup | acceptLookup | rejectStore | acceptStore
  | rejectInvalidate | acceptInvalidate | clientPush | shutdown => exact h
  | takeReady | beginDrain | markFailed => exact h.setWorker rfl fun _ => trivial
  | mark =>
    exact h.setWorker rfl fun _ => ⟨nofun, fun _ => rfl⟩
  | ownedNext _ _ _ _ _ hs =>
    refine h.setWorker rfl fun _ => ⟨fun i worked' hround => ?_, fun _ => rfl⟩
    cases hround
    exact hs
  | ownedEnd _ _ worked =>
    exact h.setWorker rfl fun _ => by cases worked <;> trivial
  | laneDone _ _ lane _ hw =>
    refine h.setWorker rfl fun hok => ?_
    rw [hw] at hok
    exact hok.1.afterLane lane
  | popLookup w task executed job rest hw | popInvalidate w task executed job rest hw
  | popStore w task executed job rest hw =>
    refine h.setWorker rfl fun hok => ?_
    rw [hw] at hok
    exact ⟨hok.1.popped, popped_idleRound task⟩
  | lookedUp _ _ _ _ hw | store _ _ _ _ hw =>
    refine h.setWorker rfl fun hok => ?_
    rw [hw] at hok
    exact hok
  | clearMark _ _ _ _ hw | invalidate _ _ _ _ hw =>
    refine h.setWorker rfl fun hok => ?_
    rw [hw] at hok
    exact ⟨hok.1, fun hidle => absurd (hok.2.symm.trans hidle) nofun⟩
  | free _ task _ job hw =>
    obtain ⟨bytes, hfree⟩ := freeBodySlot_eq q task.shard job
    rw [hfree]
    refine h.setWorker rfl fun hok => ?_
    rw [hw] at hok
    exact ⟨hok.1, fun hidle => absurd (hok.2.symm.trans hidle) nofun⟩
  | requeue w task hw =>
    refine h.setWorker rfl fun hok => ?_
    rw [hw] at hok
    cases q.running
    · exact roundOk_afterTask _ task
    · exact hok
  | clear _ task | push _ task =>
    exact h.setWorker rfl fun _ => roundOk_afterTask _ task

/-! ## The lanes that a round has found empty -/

/-- The place of a lane in the order of the drain. -/
def Lane.rank : Lane → Nat
  | .lookup => 0
  | .invalidate => 1
  | .store => 2

/-- How far a round has come that has popped nothing: the shards behind it, and the lanes of the next
    shard. -/
def WorkerPc.passed (owned : List ShardId) : WorkerPc → Option (Nat × Nat)
  | .owned index worked => if worked then none else some (index, 0)
  | .draining task lane _ => idleAt task lane.rank
  | .requeueing task | .pushing task => idleAt task 3
  | .stopped => some (owned.length, 0)
  | _ => none
where
  idleAt (task : Task) (rank : Nat) : Option (Nat × Nat) :=
    match task.round with
    | some (index, false) => some (index, rank)
    | _ => none

/-- The lane is among those that the round has passed. -/
def WorkerPc.HasSeen (owned : List ShardId) (pc : WorkerPc) (s : ShardId) (lane : Lane) : Prop :=
  ∃ index rank i, pc.passed owned = some (index, rank) ∧ owned[i]? = some s ∧
    (i < index ∨ i = index ∧ lane.rank < rank)

/-- The owner of the shard has passed the lane. -/
def Seen (q : Queue cfg) (s : ShardId) (lane : Lane) : Prop :=
  (q.workers (shardOwner cfg s)).HasSeen (workerOwnedShards cfg (shardOwner cfg s)) s lane

def SeenEmpty (q : Queue cfg) : Prop :=
  ∀ s lane, Seen q s lane → (q.shards s).laneEmpty lane = true

theorem not_hasSeen (h : pc.passed owned = none) (s : ShardId) (lane : Lane) :
    ¬ pc.HasSeen owned s lane := by
  rintro ⟨index, rank, i, hpass, -⟩
  rw [h] at hpass
  cases hpass

theorem idleAt_eq_none (h : task.idleRound = false) (rank : Nat) :
    passed.idleAt task rank = none := by
  unfold passed.idleAt
  split
  next hround => simp [Task.idleRound, hround] at h
  next => rfl

theorem passed_of_inLoop (h : pc.inRounds = false) : pc.passed owned = none := by
  have htask : ∀ task rank, pc.task? = some task → passed.idleAt task rank = none :=
    fun task rank ht => idleAt_eq_none (by simp [Task.idleRound, inRounds_of_task ht h]) rank
  cases pc with
  | draining task | requeueing task | pushing task => exact htask task _ rfl
  | owned | stopped => cases h
  | _ => rfl

/-! ### What one move of a worker passes -/

theorem WorkerPc.HasSeen.of_afterLane {lane lane' : Lane} (hat : task.At owned) (executed : Nat)
    (h : (afterLane task lane).HasSeen owned s lane') :
    (draining task lane executed).HasSeen owned s lane' ∨
      task.idleRound ∧ s = task.shard ∧ lane' = lane := by
  obtain ⟨index, rank, i, hpass, hi, hlt⟩ := h
  have hidle : passed.idleAt task (lane.rank + 1) = some (index, rank) := by
    cases lane <;> exact hpass
  obtain ⟨hround, rfl⟩ : task.round = some (index, false) ∧ rank = lane.rank + 1 := by
    unfold passed.idleAt at hidle
    split at hidle <;> cases hidle
    exact ⟨‹_›, rfl⟩
  by_cases hold : i < index ∨ i = index ∧ lane'.rank < lane.rank
  · exact .inl ⟨index, lane.rank, i, by simp [passed, passed.idleAt, hround], hi, hold⟩
  · right
    obtain ⟨rfl, hrank⟩ := hlt.resolve_left fun hlt => hold (.inl hlt)
    refine ⟨by simp [Task.idleRound, hround], ?_, ?_⟩
    · exact Option.some.inj (hi.symm.trans (hat i false hround))
    · cases lane <;> cases lane' <;> simp_all [Lane.rank]

theorem WorkerPc.HasSeen.of_afterTask {lane : Lane} (hpc : pc.passed owned = passed.idleAt task 3)
    (h : (afterTask task).HasSeen owned s lane) : pc.HasSeen owned s lane := by
  obtain ⟨index, rank, i, hpass, hi, hlt⟩ := h
  unfold afterTask at hpass
  split at hpass
  next => cases hpass
  rename_i j worked hround
  cases worked with
  | true => cases hpass
  | false =>
    cases hpass
    refine ⟨j, 3, i, by rw [hpc]; simp [passed.idleAt, hround], hi, ?_⟩
    have hrank : lane.rank < 3 := by cases lane <;> decide
    omega

/-! ### Every step in time keeps what has been seen -/

/-- A lane of the shard that was empty is empty. -/
def LanesShrink (new old : RuntimeShard) : Prop :=
  ∀ lane, old.laneEmpty lane = true → new.laneEmpty lane = true

theorem LanesShrink.update {shards} {t : ShardId} {shard : RuntimeShard}
    (h : LanesShrink shard (shards t)) (s : ShardId) :
    LanesShrink (update shards t shard s) (shards s) := by
  by_cases hs : s = t
  · rw [hs, update_self]
    exact h
  · rw [update_of_ne hs]
    exact fun _ => id

section

variable (h : SeenEmpty q) (hworkers : q'.workers = Function.update q.workers w pc)
  (hlanes : ∀ s, LanesShrink (q'.shards s) (q.shards s))

include h hworkers hlanes

theorem SeenEmpty.setWorker (hpc : ∀ s lane, pc.HasSeen (workerOwnedShards cfg w) s lane →
      (q.workers w).HasSeen (workerOwnedShards cfg w) s lane ∨
        (q.shards s).laneEmpty lane) : SeenEmpty q' := by
  intro s lane hseen
  refine hlanes s lane ?_
  unfold Seen at hseen
  rw [hworkers] at hseen
  by_cases hv : shardOwner cfg s = w
  · subst hv
    rw [update_self] at hseen
    exact (hpc s lane hseen).elim (h s lane) id
  · rw [update_of_ne hv] at hseen
    exact h s lane hseen

/-- A worker that has passed nothing yet. -/
theorem SeenEmpty.leave (hpc : pc.passed (workerOwnedShards cfg w) = none) : SeenEmpty q' :=
  h.setWorker hworkers hlanes fun s lane hseen => absurd hseen (not_hasSeen hpc s lane)

end

theorem SeenEmpty.accept (h : SeenEmpty q) {t : ShardId} {shard : RuntimeShard}
    (hshards : q'.shards = update q.shards t shard) (hworkers : q'.workers = q.workers)
    (hloop : (q.workers (shardOwner cfg t)).inRounds = false) : SeenEmpty q' := by
  intro s lane hseen
  unfold Seen at hseen
  rw [hworkers] at hseen
  by_cases hs : s = t
  · subst hs
    exact absurd hseen (not_hasSeen (passed_of_inLoop hloop) s lane)
  · rw [hshards, update_of_ne hs]
    exact h s lane hseen

/-- An enqueue call takes the lock of its shard before the owner of the shard has left its loop; the key
    of a lookup fits its buffer. -/
def InTime (hash : Text → UInt64) (q : Queue cfg) : QueueAction cfg.workerCount → Prop
  | .enqueueLookup _ job _ =>
    (q.workers (shardOwner cfg (hashKeyToShard hash job.key))).inRounds = false ∧
      job.key.length < kCacheKeyMaxLen
  | .enqueueStore _ job _ =>
    (q.workers (shardOwner cfg (hashKeyToShard hash job.key))).inRounds = false
  | .enqueueInvalidate _ key _ =>
    (q.workers (shardOwner cfg (hashKeyToShard hash key))).inRounds = false
  | _ => True

instance (q : Queue cfg) (a : QueueAction cfg.workerCount) : Decidable (InTime hash q a) :=
  match a with
  | .enqueueLookup _ _ _ => inferInstanceAs (Decidable (_ ∧ _))
  | .enqueueStore _ _ _ | .enqueueInvalidate _ _ _ => inferInstanceAs (Decidable (_ = false))
  | .enter _ | .clientPush _ | .work _ | .shutdown => isTrue trivial

theorem laneQuota_pos (cfg : WorkerQueueSettings) (lane : Lane) : 0 < laneQuota cfg lane := by
  cases lane with
  | lookup => exact cfg.lookupLaneQuota_pos
  | invalidate => exact cfg.invalidateLaneQuota_pos
  | store => exact cfg.storeLaneQuota_pos

theorem SeenEmpty.step (h : SeenEmpty q) (hrounds : RoundsOk q) (htime : InTime hash q a)
    (hstep : QueueStep cfg hash q a q') : SeenEmpty q' := by
  have hsame : ∀ s, LanesShrink (q.shards s) (q.shards s) := fun _ _ => id
  cases hstep with
  | enter | rejectLookup | rejectStore | rejectInvalidate | clientPush | shutdown => exact h
  -- an enqueue that is in time comes before the rounds of the owner have seen its lane
  | fullLookup c job nowMs marked hc hmark => exact h.accept rfl rfl htime.1
  | acceptLookup c job nowMs s keyHash marked hc hs => exact h.accept rfl rfl (hs ▸ htime.1)
  | acceptStore c job nowMs s slot hc hs
  | acceptInvalidate c key nowMs s hc hs => exact h.accept rfl rfl (hs ▸ htime)
  | takeReady | markFailed => exact h.leave rfl hsame rfl
  | mark w s hw => exact h.leave rfl (LanesShrink.update fun lane => by cases lane <;> exact id) rfl
  | beginDrain w =>
    refine h.setWorker rfl hsame ?_
    rintro s lane ⟨index, rank, i, hpass, -, hlt⟩
    cases hpass
    omega
  | laneDone w task lane executed hw hdone =>
    have hok := hrounds w
    rw [hw] at hok
    refine h.setWorker rfl hsame fun s lane' hseen => ?_
    rcases hseen.of_afterLane hok.1 executed with hold | ⟨hidle, rfl, rfl⟩
    · exact .inl (hw ▸ hold)
    · -- nothing was executed, so that the lane was left for being empty
      refine .inr (hdone.resolve_left fun hquota => ?_)
      have hpos := laneQuota_pos cfg lane'
      rw [hok.2 hidle] at hquota
      omega
  | popLookup w task executed job rest hw hpop | popInvalidate w task executed job rest hw hpop
  | popStore w task executed job rest hw hpop =>
    refine h.leave rfl (LanesShrink.update fun lane => ?_) rfl
    cases lane <;> simp [RuntimeShard.laneEmpty, hpop]
  | lookedUp | store => exact h.leave rfl hsame rfl
  | clearMark w task executed job hw =>
    have hok := hrounds w
    rw [hw] at hok
    obtain ⟨_, _, hclear⟩ := pendingClear_eq (q.shards task.shard) job.key job.keyHash
    refine h.leave rfl (LanesShrink.update fun lane => ?_) (idleAt_eq_none hok.2 _)
    rw [hclear]
    cases lane <;> exact id
  | invalidate w task executed job hw =>
    have hok := hrounds w
    rw [hw] at hok
    exact h.leave rfl hsame (idleAt_eq_none hok.2 _)
  | free w task executed job hw =>
    have hok := hrounds w
    rw [hw] at hok
    obtain ⟨bytes, hfree⟩ := freeBodySlot_eq q task.shard job
    rw [hfree]
    refine h.leave rfl (LanesShrink.update fun lane => ?_) (idleAt_eq_none hok.2 _)
    cases lane <;> exact id
  | requeue w task hw =>
    refine h.setWorker rfl (LanesShrink.update fun lane => by cases lane <;> exact id)
      fun s lane hseen => .inl ?_
    rw [hw]
    cases hrun : q.running <;> rw [hrun] at hseen
    · exact HasSeen.of_afterTask rfl hseen
    · exact hseen
  | clear w task hw =>
    refine h.setWorker rfl (LanesShrink.update fun lane => by cases lane <;> exact id)
      fun s lane hseen => .inl ?_
    rw [hw]
    exact HasSeen.of_afterTask rfl hseen
  | push w task hw =>
    refine h.setWorker rfl hsame fun s lane hseen => .inl ?_
    rw [hw]
    exact HasSeen.of_afterTask rfl hseen
  | ownedNext w index worked s hw hs =>
    refine h.setWorker rfl hsame fun s lane hseen => .inl ?_
    rw [hw]
    cases worked <;> exact hseen
  | ownedEnd w index worked hw hs =>
    refine h.setWorker rfl hsame ?_
    -- a round that has found work is followed by another one, which has seen nothing yet
    cases worked with
    | true =>
      rintro s lane ⟨index, rank, i, hpass, -, hlt⟩
      cases hpass
      omega
    | false =>
      rintro s lane ⟨length, rank, i, hpass, hi, hlt⟩
      cases hpass
      rw [hw]
      refine .inl ⟨index, 0, i, rfl, hi, .inl ?_⟩
      have := getElem?_eq_none_iff.mp hs
      omega

/-! ## When all workers have stopped -/

/-- Every worker thread has returned, so `worker_queue_shutdown` has joined them. -/
def Stopped (q : Queue cfg) : Prop := ∀ w, q.workers w = .stopped

instance (q : Queue cfg) : Decidable (Stopped q) := inferInstanceAs (Decidable (∀ _, _))

theorem lanes_empty (h : (queueSystem cfg hash l2).ReachableUnder (InTime hash) q)
    (hstop : Stopped q) (s : ShardId) (lane : Lane) : (q.shards s).laneEmpty lane := by
  have hinit : RoundsOk (queueSystem cfg hash l2).init ∧ SeenEmpty (queueSystem cfg hash l2).init :=
    ⟨fun _ => trivial, fun s lane hseen => absurd hseen (not_hasSeen rfl s lane)⟩
  have hinv : RoundsOk q ∧ SeenEmpty q :=
    h.invariant (P := fun q => RoundsOk q ∧ SeenEmpty q) hinit fun q a q' hq htime hstep =>
      ⟨hq.1.step (queueStep_cases hstep), hq.2.step hq.1 htime (queueStep_cases hstep)⟩
  have hmem : s ∈ workerOwnedShards cfg (shardOwner cfg s) := by
    simp [workerOwnedShards, mem_finRange]
  obtain ⟨i, hi⟩ := mem_iff_getElem?.mp hmem
  refine hinv.2 s lane ?_
  unfold Seen
  rw [hstop]
  exact ⟨_, 0, i, rfl, hi, .inl (List.getElem?_eq_some_iff.mp hi).1⟩

/-- Every accepted job has been executed once, and has given back its body slot or its mark. -/
structure Drained (q : Queue cfg) : Prop where
  writes : q.executed.Perm q.accepted
  lookups : q.executedLookups.Perm q.acceptedLookups
  slots : ∀ s slot, (q.shards s).bodyPool.occupied slot = false
  marks : ∀ s i, (q.shards s).pending i = none

theorem count_onShard {α : Type} [DecidableEq α] (s : ShardId) (job : α)
    (log : List (ShardId × α)) : (onShard s log).count job = log.count (s, job) := by
  induction log with
  | nil => rfl
  | cons entry _ ih =>
    obtain ⟨t, other⟩ := entry
    by_cases hs : t = s
    · simp [onShard, count_cons, hs, ← ih]
    · simp [onShard, hs, ← ih]

/-- Two logs are the same up to order if they are on every shard. -/
theorem perm_of_onShard {α : Type} [DecidableEq α] {log log' : List (ShardId × α)}
    (h : ∀ s, (onShard s log).Perm (onShard s log')) : log.Perm log' := by
  refine perm_iff_count.mpr fun ⟨s, job⟩ => ?_
  rw [← count_onShard, ← count_onShard]
  exact (h s).count_eq job

theorem perm_of_lanes {log log' : List L2Op}
    (h : ∀ put, log.filter (ofLane put) = log'.filter (ofLane put)) : log.Perm log' := by
  refine perm_iff_count.mpr fun op => ?_
  have hop : ofLane op.isPut op := by simp [ofLane]
  rw [← count_filter hop, h, count_filter hop]

theorem allRun_of_stopped (hstop : Stopped q)
    (hempty : ∀ s lane, (q.shards s).laneEmpty lane) : AllRun q := by
  refine ⟨fun s => ⟨?_, ?_⟩, fun w => by rw [hstop w]; rfl⟩
  · exact isEmpty_iff.mp (hempty s .store)
  · exact isEmpty_iff.mp (hempty s .invalidate)

theorem drained_of_empty
    (h : (queueSystem cfg hash l2).ReachableUnder (fun _ a => LookupKeyFits a) q)
    (hstop : Stopped q) (hempty : ∀ s lane, (q.shards s).laneEmpty lane) : Drained q := by
  have hrun := allRun_of_stopped hstop hempty
  have hlook : ∀ s, (q.shards s).lookups = [] :=
    fun s => isEmpty_iff.mp (hempty s .lookup)
  have hmarks := marksInv_reachable (fun _ _ hfits => hfits) h
  refine ⟨perm_of_onShard fun s => perm_of_lanes fun put => ?_, perm_of_onShard fun s => ?_,
    fun s slot => ?_, fun s i => ?_⟩
  · exact hrun.executed_eq (keepsOrder_lane h.reachable put s)
  · have hlog := (hmarks s).log
    simp only [shardLookups, hlook, hstop (shardOwner cfg s), ShardLookups.looking,
      lookupWork, append_nil] at hlog
    rw [hlog]
  · have hslots : (shardWrites q s).slots = [] := by
      simp [shardWrites, ShardWrites.slots, ShardWrites.heldSlots, hrun.1 s,
        hstop (shardOwner cfg s), work]
    have hocc := ((writesInv_reachable h.reachable).slots s).occupied slot
    rw [hslots] at hocc
    simpa [shardWrites] using hocc
  · have hjobs : (shardLookups q s).jobs = [] := by
      simp [shardLookups, ShardLookups.jobs, hlook, hstop (shardOwner cfg s), lookupWork]
    refine Option.eq_none_iff_forall_ne_some.mpr fun mark hmark => ?_
    have hmem := ((hmarks s).marks mark).mp ⟨i, hmark⟩
    rw [hjobs] at hmem
    cases hmem

/-- If as many writes of a class have been executed as accepted, none of them waits. -/
theorem KeepsOrder.none_waiting {p : L2Op → Bool} (h : KeepsOrder p s q)
    (hperm : q.executed.Perm q.accepted) (lane : Lane) :
    ((shardWrites q s).lanes.lane lane).filter p = [] := by
  obtain ⟨i, hi⟩ := h
  have hexec : ((onShard s q.executed).filter p).Perm ((onShard s q.accepted).filter p) :=
    (hperm.filterMap _).filter p
  have hlen := hexec.length_eq
  have hlog : ((onShard s q.accepted).filter p).length = _ := congrArg List.length hi.log
  by_cases hlane : lane = i
  · subst hlane
    refine length_eq_zero_iff.mp ?_
    simp only [length_append, ShardWrites.lanes, shardWrites] at hlog hlen ⊢
    omega
  · exact hi.others lane hlane

/-- The converse: a job that waits when all workers have stopped is never executed. -/
theorem Drained.lanes_empty
    (h : (queueSystem cfg hash l2).ReachableUnder (fun _ a => LookupKeyFits a) q)
    (hdrained : Drained q) (s : ShardId) (lane : Lane) : (q.shards s).laneEmpty lane := by
  have hwait : ∀ put lane, ((shardWrites q s).lanes.lane lane).filter (ofLane put) = [] :=
    fun put => (keepsOrder_lane h.reachable put s).none_waiting hdrained.writes
  cases lane with
  | invalidate =>
    refine isEmpty_iff.mpr ?_
    simpa [ShardWrites.lanes, shardWrites, ofLane, isPut, comp_def,
      filter_map] using hwait false .invalidate
  | store =>
    refine isEmpty_iff.mpr ?_
    simpa [ShardWrites.lanes, shardWrites, ofLane, isPut, comp_def,
      filter_map] using hwait true .store
  | lookup =>
    have hmarks := (marksInv_reachable (fun _ _ hfits => hfits) h s).marks
    refine isEmpty_iff.mpr (eq_nil_iff_forall_not_mem.mpr fun job hmem => ?_)
    have hjob : job ∈ (shardLookups q s).jobs := by
      unfold ShardLookups.jobs
      split
      · exact mem_cons_of_mem _ hmem
      · exact mem_cons_of_mem _ hmem
      · exact hmem
    obtain ⟨i, hi⟩ := (hmarks job.mark).mpr (mem_map_of_mem hjob)
    have hnone := hdrained.marks s i
    rw [show (q.shards s).pending i = _ from hi] at hnone
    cases hnone

theorem InTime.lookupKeyFits (h : InTime hash q a) : LookupKeyFits a := by
  cases a with
  | enqueueLookup => exact h.2
  | _ => trivial

/-- When all workers have stopped, the accepted jobs have been drained if and only if no lane holds
    one. If every enqueue call took the lock of its shard before the owner had left its loop, they
    have been drained. -/
theorem shutdown_drains (cfg : WorkerQueueSettings) (hash : Text → UInt64) (l2 : L2Store) :
    (∀ q, (queueSystem cfg hash l2).ReachableUnder (fun _ a => LookupKeyFits a) q → Stopped q →
      (Drained q ↔ ∀ s lane, (q.shards s).laneEmpty lane = true)) ∧
    ∀ q, (queueSystem cfg hash l2).ReachableUnder (InTime hash) q → Stopped q → Drained q := by
  refine ⟨fun q h hstop => ⟨fun hdrained => hdrained.lanes_empty h, drained_of_empty h hstop⟩,
    fun q h hstop => ?_⟩
  exact drained_of_empty (h.mono fun _ _ => InTime.lookupKeyFits) hstop (lanes_empty h hstop)

/-! ## Runs -/

/-- A round of the only worker over empty shards, from the test of `running` to the end of the
    thread: five steps for a shard. -/
def emptyRound : List (QueueAction oneWorker.workerCount) :=
  List.replicate (5 * kRuntimeShardCount + 2) (.work ⟨0, Nat.zero_lt_one⟩)

/-- A client that has entered before the shutdown locks the shard when the worker has stopped. -/
def lateRun : List (QueueAction oneWorker.workerCount) :=
  [.enter 0, .shutdown] ++ emptyRound ++ [.enqueueInvalidate 0 ['k'] 0]

/-- Its invalidation is accepted, and no worker is left to execute it. -/
theorem late_enqueue_not_drained : ∃ q,
    (queueSystem oneWorker (fun _ => 0) fun _ => none).run lateRun = some q ∧ Stopped q ∧
      q.accepted.map (·.2) = [.delete ['k']] ∧ q.executed = [] :=
  System.exists_run (by decide +kernel)

/-- A lookup and an invalidation are accepted and executed before the shutdown. -/
def timelyRun : List (QueueAction oneWorker.workerCount) :=
  [.enter 0, .enqueueLookup 0 { key := ['k'] } 0, .clientPush 0, .enter 0,
    .enqueueInvalidate 0 ['k'] 0] ++ List.replicate 11 (.work ⟨0, Nat.zero_lt_one⟩) ++
      .shutdown :: emptyRound

theorem shutdown_drains_timelyRun : ∃ q : Queue oneWorker, Stopped q ∧
    q.accepted.map (·.2) = [.delete ['k']] ∧ q.acceptedLookups.map (·.2.key) = [['k']] ∧
      Drained q := by
  have hex : ∃ q, (queueSystem oneWorker (fun _ => 0) fun _ => none).ReachableUnder
      (InTime fun _ => 0) q ∧ Stopped q ∧ q.accepted.map (·.2) = [.delete ['k']] ∧
        q.acceptedLookups.map (·.2.key) = [['k']] :=
    System.exists_guardedRun timelyRun (by decide +kernel)
  obtain ⟨q, hq, hstop, hacc, hlook⟩ := hex
  exact ⟨q, hstop, hacc, hlook, (shutdown_drains _ _ _).2 q hq hstop⟩

end ByteTaper.Runtime
