import ByteTaper.Library.Wakeups
import ByteTaper.Runtime.WorkerQueueWrites

/-! # The ready queues of the workers

A running queue is an instance of the wake-up protocol: the shards are the items, the clients wake them
up, and the workers take them from their ready queues. So a shard with a job is never forgotten, and
there is always room in a ready queue. -/

namespace ByteTaper.Runtime

open Cache Function WorkerPc WorkerQueue RuntimeShardState ClientPc
open Transition (System)

variable {cfg : WorkerQueueSettings} {hash : Text → UInt64} {l2 : L2Store}

/-! ## Out of the final rounds -/

/-- The worker has left its loop for the rounds of a shutdown. -/
def WorkerPc.inRounds : WorkerPc → Bool
  | .owned _ _ | .stopped => true
  | pc => pc.task?.any fun task => task.round.isSome

/-- While the queue runs, every worker is in its loop. -/
def InLoop (q : Queue cfg) : Prop := q.running = true → ∀ w, (q.workers w).inRounds = false

variable {q q' : Queue cfg} {w : Fin cfg.workerCount} {pc : WorkerPc}
  {a : QueueAction cfg.workerCount} {s : ShardId} {shard : RuntimeShard} {state : RuntimeShardState}

theorem InLoop.setWorker (h : InLoop q) (hrunning : q'.running = q.running)
    (hwks : q'.workers = update q.workers w pc)
    (hpc : q.running → (q.workers w).inRounds = false → pc.inRounds = false) :
    InLoop q' := by
  intro hrun v
  rw [hrunning] at hrun
  rw [hwks]
  by_cases hv : v = w
  · subst hv
    rw [update_self]
    exact hpc hrun (h hrun v)
  · rw [update_of_ne hv]
    exact h hrun v

theorem inRounds_afterTask {task : Task} (h : task.round = none) : afterTask task = .waiting := by
  simp [afterTask, h]

theorem inRounds_of_task {task : Task} (h : pc.task? = some task) (hrounds : pc.inRounds = false) :
    task.round = none := by
  cases pc <;> simp_all [inRounds, task?]

theorem InLoop.step (h : InLoop q) (hstep : QueueStep cfg hash q a q') : InLoop q' := by
  cases hstep with
  | enter | rejectLookup | fullLookup | acceptLookup | rejectStore | acceptStore
  | rejectInvalidate | acceptInvalidate | clientPush => exact h
  | shutdown => exact nofun
  | takeReady | mark | markFailed => exact h.setWorker rfl rfl fun _ _ => rfl
  | beginDrain _ _ _ hrun => exact fun hrun' => absurd (hrun.symm.trans hrun') nofun
  | ownedNext _ _ _ _ hw | ownedEnd _ _ _ hw =>
    exact h.setWorker rfl rfl fun _ hrounds => absurd (hw ▸ hrounds) nofun
  | laneDone _ _ lane _ hw =>
    refine h.setWorker rfl rfl fun _ hrounds => ?_
    have hround := inRounds_of_task (by rw [hw]; rfl) hrounds
    cases lane <;> simp [afterLane, inRounds, task?, hround]
  | popLookup w task executed job rest hw | popInvalidate w task executed job rest hw
  | popStore w task executed job rest hw =>
    refine h.setWorker rfl rfl fun _ hrounds => ?_
    have hround := inRounds_of_task (by rw [hw]; rfl) hrounds
    simp [inRounds, task?, Task.popped, hround]
  | lookedUp w task executed job hw | clearMark w task executed job hw
  | invalidate w task executed job hw | store w task executed job hw =>
    refine h.setWorker rfl rfl fun _ hrounds => ?_
    have hround := inRounds_of_task (by rw [hw]; rfl) hrounds
    simp [inRounds, task?, hround]
  | free _ task _ job hw =>
    obtain ⟨bytes, hfree⟩ := freeBodySlot_eq q task.shard job
    rw [hfree]
    refine h.setWorker rfl rfl fun _ hrounds => ?_
    have hround := inRounds_of_task (by rw [hw]; rfl) hrounds
    simp [inRounds, task?, hround]
  | requeue _ _ hw =>
    refine h.setWorker rfl rfl fun hrun hrounds => ?_
    have hround := inRounds_of_task (by rw [hw]; rfl) hrounds
    simp [hrun, inRounds, task?, hround]
  | clear _ _ hw | push _ _ hw =>
    refine h.setWorker rfl rfl fun _ hrounds => ?_
    rw [inRounds_afterTask (inRounds_of_task (by rw [hw]; rfl) hrounds)]
    rfl

/-! ## The queue as an instance of the protocol -/

def RuntimeShardState.phase : RuntimeShardState → Phase
  | .idle => .idle
  | .queued => .queued
  | .processing => .processing

def ClientPc.toPush : ClientPc → Option ShardId
  | .pushing s => some s
  | .outside | .entered => none

def WorkerPc.consumer : WorkerPc → Consumer ShardId
  | .marking s => .taken s
  | .pushing task => .returning task.shard
  | pc =>
    match pc.task? with
    | some task => .busy task.shard
    | none => .idle

def wakeups (q : Queue cfg) : Wakeups ShardId Nat (Fin cfg.workerCount) where
  phase s := (q.shards s).state.phase
  work s := (q.shards s).hasPendingWork
  ready := q.workerReady
  producers c := (q.clients c).toPush
  consumers w := (q.workers w).consumer

theorem wakeups_setShard (q : Queue cfg) (s : ShardId) (shard : RuntimeShard) :
    wakeups (q.setShard s shard) = { wakeups q with
      phase := update (wakeups q).phase s shard.state.phase
      work := update (wakeups q).work s shard.hasPendingWork } := by
  refine Wakeups.ext (funext fun t => ?_) (funext fun t => ?_) rfl rfl rfl
  · exact apply_update (fun (_ : ShardId) shard => shard.state.phase) q.shards s shard t
  · exact apply_update (fun (_ : ShardId) shard => shard.hasPendingWork) q.shards s shard t

theorem wakeups_setWorker (q : Queue cfg) (w : Fin cfg.workerCount) (pc : WorkerPc) :
    wakeups (q.setWorker w pc) = { wakeups q with
      consumers := update (wakeups q).consumers w pc.consumer } := by
  refine Wakeups.ext rfl rfl rfl rfl (funext fun v => ?_)
  exact apply_update (fun (_ : Fin cfg.workerCount) pc => pc.consumer) q.workers w pc v

theorem wakeups_setClient (q : Queue cfg) (c : Nat) (pc : ClientPc) :
    wakeups (q.setClient c pc) = { wakeups q with
      producers := update (wakeups q).producers c pc.toPush } := by
  refine Wakeups.ext rfl rfl rfl (funext fun d => ?_) rfl
  exact apply_update (fun (_ : Nat) pc => pc.toPush) q.clients c pc d

/-- A client moves without a shard to push. -/
theorem wakeups_setClient_same {c : Nat} {pc : ClientPc} (h : pc.toPush = (q.clients c).toPush) :
    wakeups (q.setClient c pc) = wakeups q := by
  rw [wakeups_setClient, h]
  exact congrArg (fun producers => { wakeups q with producers })
    (update_eq_self c (wakeups q).producers)

/-- A worker goes on with what it is doing. -/
theorem wakeups_setWorker_same (h : pc.consumer = (q.workers w).consumer) :
    wakeups (q.setWorker w pc) = wakeups q := by
  rw [wakeups_setWorker, h]
  exact congrArg (fun consumers => { wakeups q with consumers })
    (update_eq_self w (wakeups q).consumers)

/-- A shard is changed, but not its state. -/
theorem wakeups_setShard_touch (h : shard.state = (q.shards s).state) :
    wakeups (q.setShard s shard) = { wakeups q with
      work := update (wakeups q).work s shard.hasPendingWork } := by
  rw [wakeups_setShard, h]
  exact congrArg (fun phase => { wakeups q with
    phase, work := update (wakeups q).work s shard.hasPendingWork })
    (update_eq_self s (wakeups q).phase)

/-- A shard is changed, but neither its state nor its lanes. -/
theorem wakeups_setShard_same (h : shard.state = (q.shards s).state)
    (hwork : shard.hasPendingWork = (q.shards s).hasPendingWork) :
    wakeups (q.setShard s shard) = wakeups q := by
  rw [wakeups_setShard_touch h, hwork]
  exact congrArg (fun work => { wakeups q with work }) (update_eq_self s (wakeups q).work)

/-- The state of a shard is changed, but not its lanes. -/
theorem wakeups_setState (q : Queue cfg) (s : ShardId) (state : RuntimeShardState) :
    wakeups (q.setShard s { q.shards s with state }) = { wakeups q with
      phase := update (wakeups q).phase s state.phase } := by
  rw [wakeups_setShard]
  exact congrArg (fun work => { wakeups q with
    phase := update (wakeups q).phase s state.phase, work })
    (update_eq_self s (wakeups q).work)

/-! ## Every step is one of the protocol -/

/-- The step of the protocol that a step of the queue is, if it is one. -/
def WakeupStep (cfg : WorkerQueueSettings)
    (W W' : Wakeups ShardId Nat (Fin cfg.workerCount)) : Prop :=
  W' = W ∨ W.Step (shardOwner cfg) kRuntimeShardCount W'

/-- A job has been put into a lane of the shard, and the client leaves it. -/
theorem accept_wakeups {c : Nat} (hc : q.clients c = .entered)
    (hstate : shard.state = (q.shards s).queuedState) (hwork : shard.hasPendingWork) :
    (wakeups q).Step (shardOwner cfg) kRuntimeShardCount
      (wakeups ((q.setShard s shard).leaveShard c s (q.shards s))) := by
  have hproducer : (wakeups q).producers c = none := by simp [wakeups, hc, toPush]
  unfold leaveShard
  unfold RuntimeShard.queuedState at hstate
  by_cases hidle : (q.shards s).state = .idle
  · rw [if_pos hidle] at hstate ⊢
    have hphase : (wakeups q).phase s = .idle := by simp [wakeups, hidle, phase]
    rw [wakeups_setClient, wakeups_setShard, hstate, hwork]
    exact .wake c s hproducer hphase
  · rw [if_neg hidle] at hstate ⊢
    have hphase : (wakeups q).phase s ≠ .idle := by
      simp only [wakeups]
      cases hs : (q.shards s).state with
      | idle => exact absurd hs hidle
      | queued | processing => exact nofun
    have hclient : outside.toPush = ((q.setShard s shard).clients c).toPush := by
      rw [setShard_clients, hc]
      rfl
    rw [wakeups_setClient_same hclient, wakeups_setShard_touch hstate]
    exact .touch s _ hphase

/-- A worker pops a job of the shard it is processing. -/
theorem pop_wakeups (hsound : (wakeups q).Sound (shardOwner cfg))
    (hw : (q.workers w).consumer = .busy s) (hpc : pc.consumer = .busy s)
    (hstate : shard.state = (q.shards s).state) :
    (wakeups q).Step (shardOwner cfg) kRuntimeShardCount
      (wakeups ((q.setShard s shard).setWorker w pc)) := by
  have hphase := (hsound.busy_processing hw).2
  have hworker : pc.consumer = ((q.setShard s shard).workers w).consumer := by
    rw [setShard_workers, hpc, hw]
  rw [wakeups_setWorker_same hworker, wakeups_setShard_touch hstate]
  exact .touch s _ (by rw [hphase]; exact nofun)

theorem queueStep_wakeups (hsound : (wakeups q).Sound (shardOwner cfg)) (hloop : InLoop q)
    (hrun : q.running) (hstep : QueueStep cfg hash q a q') (hrun' : q'.running) :
    WakeupStep cfg (wakeups q) (wakeups q') := by
  cases hstep with
  | enter c hc | rejectLookup c job nowMs hc | rejectStore c job nowMs hc
  | rejectInvalidate c key nowMs hc =>
    exact .inl (wakeups_setClient_same (by rw [hc]; rfl))
  | fullLookup _ job _ marked hc hmark =>
    obtain ⟨_, _, hclear⟩ := pendingClear_eq marked job.key
      (hash job.key ^^^ (hash job.key >>> 32)).toUInt32
    obtain ⟨_, _, rfl⟩ := pendingTryMark_eq hmark
    refine .inl ?_
    rw [hclear, wakeups_setClient_same (by rw [setShard_clients, hc]; rfl)]
    exact wakeups_setShard_same rfl rfl
  | acceptLookup c job nowMs s keyHash marked hc
  | acceptStore c job nowMs s slot hc
  | acceptInvalidate c key nowMs s hc => exact .inr (accept_wakeups hc rfl (by
      simp [RuntimeShard.hasPendingWork]))
  | clientPush c s hc =>
    refine .inr ?_
    rw [wakeups_setClient]
    exact .push c s (by simp [wakeups, hc, toPush])
  | shutdown => cases hrun'
  | takeReady w s rest hw hready =>
    refine .inr ?_
    rw [wakeups_setWorker]
    exact .take w s rest (by simp [wakeups, hw, consumer, task?]) hready
  -- while the queue runs, no worker leaves its loop
  | beginDrain w hw hready hstop =>
    rw [hrun] at hstop
    cases hstop
  | mark w s hw hown hstate =>
    refine .inr ?_
    rw [wakeups_setWorker, wakeups_setState]
    exact .begin w s (by simp [wakeups, hw, consumer]) hown (by simp [wakeups, hstate, phase])
  | markFailed w s hw hnot =>
    refine .inr ?_
    rw [wakeups_setWorker]
    refine .drop w s (by simp [wakeups, hw, consumer]) fun h => hnot ⟨h.1, ?_⟩
    cases hs : (q.shards s).state with
    | queued => rfl
    | idle | processing => simp [wakeups, hs, phase] at h
  | laneDone w task lane executed hw =>
    exact .inl (wakeups_setWorker_same (by rw [hw]; cases lane <;> rfl))
  | popLookup w task executed job rest hw | popInvalidate w task executed job rest hw
  | popStore w task executed job rest hw =>
    exact .inr (pop_wakeups hsound (by rw [hw]; rfl) rfl rfl)
  -- the work itself moves no shard between the lists
  | lookedUp w task executed job hw | invalidate w task executed job hw
  | store w task executed job hw =>
    refine .inl (Eq.trans (b := wakeups (q.setWorker w _)) rfl (wakeups_setWorker_same ?_))
    rw [hw]
    rfl
  | clearMark w task executed job hw =>
    obtain ⟨_, _, hclear⟩ := pendingClear_eq (q.shards task.shard) job.key job.keyHash
    refine .inl ?_
    rw [hclear, wakeups_setWorker_same (by rw [setShard_workers, hw]; rfl)]
    exact wakeups_setShard_same rfl rfl
  | free w task executed job hw =>
    obtain ⟨bytes, hfree⟩ := freeBodySlot_eq q task.shard job
    refine .inl ?_
    rw [hfree, wakeups_setWorker_same (by rw [setShard_workers, hw]; rfl)]
    exact wakeups_setShard_same rfl rfl
  | requeue w task hw hwork =>
    refine .inr ?_
    rw [if_pos hrun, wakeups_setWorker, wakeups_setState]
    exact .requeue w task.shard (by simp [wakeups, hw, consumer, task?]) hwork
  | clear w task hw hwork =>
    have hround := inRounds_of_task (by rw [hw]; rfl) (hloop hrun w)
    refine .inr ?_
    rw [inRounds_afterTask hround, wakeups_setWorker, wakeups_setState]
    exact .clear w task.shard (by simp [wakeups, hw, consumer, task?]) hwork
  | push w task hw =>
    have hround := inRounds_of_task (by rw [hw]; rfl) (hloop hrun w)
    refine .inr ?_
    rw [inRounds_afterTask hround, wakeups_setWorker]
    exact .giveBack w task.shard (by simp [wakeups, hw, consumer])
  | ownedNext w index worked s hw | ownedEnd w index worked hw =>
    have hrounds := hloop hrun w
    rw [hw] at hrounds
    cases hrounds

/-! ## Runs -/

/-- A queue that was shut down does not run again. -/
theorem running_of_step (hstep : QueueStep cfg hash q a q') (h : q'.running) : q.running := by
  cases hstep with
  | shutdown => cases h
  | free _ task _ job =>
    obtain ⟨bytes, hfree⟩ := freeBodySlot_eq q task.shard job
    rw [hfree] at h
    exact h
  | _ => exact h

theorem wakeups_init_sound : (wakeups (queueSystem cfg hash l2).init).Sound (shardOwner cfg) where
  items s := by
    refine Wakeups.SoundAt.of_nowhere nofun (fun place => ?_) (iff_of_false nofun nofun) nofun
    cases place with
    | ready => exact List.not_mem_nil
    | producer => exact nofun
    | consumer => exact fun h => h.elim nofun nofun
  mine w s hs := by cases hs
  nodup w := List.nodup_nil
  consumer_owner w s hs := by cases hs

theorem wakeups_sound (h : (queueSystem cfg hash l2).Reachable q) :
    InLoop q ∧ (q.running → (wakeups q).Sound (shardOwner cfg)) := by
  refine h.invariant (P := fun q => InLoop q ∧ (q.running → (wakeups q).Sound (shardOwner cfg)))
    ⟨fun _ _ => rfl, fun _ => wakeups_init_sound⟩ ?_
  intro q a q' ⟨hloop, hsound⟩ _ hstep
  have hcases := queueStep_cases hstep
  refine ⟨hloop.step hcases, fun hrun' => ?_⟩
  have hrun := running_of_step hcases hrun'
  rcases queueStep_wakeups (hsound hrun) hloop hrun hcases hrun' with heq | hwakeup
  · rw [heq]
    exact hsound hrun
  · exact (hsound hrun).step (by simp) hwakeup

/-- The worker is draining the lanes of the shard. -/
def WorkerPc.Processes (pc : WorkerPc) (s : ShardId) : Prop := pc.consumer = .busy s

/-- The client or worker is about to push the shard into the ready queue of its owner. -/
def AboutToPush (q : Queue cfg) (s : ShardId) : Prop :=
  (∃ c, q.clients c = .pushing s) ∨ ∃ w task, q.workers w = .pushing task ∧ task.shard = s

theorem phase_eq_queued : state.phase = .queued ↔ state = .queued := by
  cases state <;> simp [phase]

theorem phase_eq_processing : state.phase = .processing ↔ state = .processing := by
  cases state <;> simp [phase]

/-- While the queue runs, a ready queue holds shards of its worker and no shard twice, a shard is
    drained by one worker at most, and a shard with a job is queued or processing. The wake-up of a
    queued shard is in one place, and there is room when it is pushed. -/
theorem shard_wakeups (cfg : WorkerQueueSettings) (hash : Text → UInt64) (l2 : L2Store)
    (q : Queue cfg) (h : (queueSystem cfg hash l2).Reachable q) (hrun : q.running = true) :
    (∀ w, (q.workerReady w).Nodup ∧ ∀ s ∈ q.workerReady w, shardOwner cfg s = w) ∧
    (∀ s w w', (q.workers w).Processes s → (q.workers w').Processes s → w = w') ∧
    (∀ s, (q.shards s).state = .processing ↔ (q.workers (shardOwner cfg s)).Processes s) ∧
    (∀ s, (q.shards s).hasPendingWork = true →
      (q.shards s).state = .queued ∨ (q.shards s).state = .processing) ∧
    (∀ s, (q.shards s).state = .queued → ∃! place, (wakeups q).At (shardOwner cfg) s place) ∧
    ∀ s, AboutToPush q s →
      (q.workerReady (shardOwner cfg s)).length < kRuntimeShardCount := by
  have hsound := (wakeups_sound h).2 hrun
  refine ⟨fun w => ⟨hsound.nodup w, hsound.mine w⟩, ?_, ?_, ?_, ?_, ?_⟩
  · intro s w w' hw hw'
    exact (hsound.busy_processing hw).1.symm.trans (hsound.busy_processing hw').1
  · intro s
    exact phase_eq_processing.symm.trans (hsound.items s).busy_iff
  · intro s hwork
    have hphase := (hsound.items s).work hwork
    cases hstate : (q.shards s).state with
    | idle => exact absurd (by simp [wakeups, hstate, phase]) hphase
    | queued => exact .inl rfl
    | processing => exact .inr rfl
  · intro s hqueued
    obtain ⟨place, hplace⟩ := (hsound.items s).queued_iff.mp (phase_eq_queued.mpr hqueued)
    exact ⟨place, hplace, fun place' hplace' => (hsound.items s).unique _ _ hplace' hplace⟩
  · intro s hpush
    obtain ⟨place, hplace, hne⟩ : ∃ place, (wakeups q).At (shardOwner cfg) s place ∧
        place ≠ .ready := by
      rcases hpush with ⟨c, hc⟩ | ⟨w, task, hw, rfl⟩
      · exact ⟨.producer c, by simp [Wakeups.At, wakeups, hc, toPush], by simp⟩
      · have hconsumer : (wakeups q).consumers w = .returning task.shard := by
          simp [wakeups, hw, consumer]
        have hown := hsound.consumer_owner w task.shard (by rw [hconsumer]; rfl)
        exact ⟨.consumer, .inr (by rw [hown, hconsumer]), by simp⟩
    have hrdy : s ∉ (wakeups q).ready (shardOwner cfg s) := fun hmem =>
      hne ((hsound.items s).unique _ .ready hplace hmem)
    have hlen := hsound.length_lt hrdy
    rwa [Fintype.card_fin] at hlen

/-- A client has put an invalidation into a shard and not yet pushed the shard: the shard is queued and
    in no ready queue. -/
theorem queued_shard_not_ready : ∃ q,
    (queueSystem oneWorker (fun _ => 0) fun _ => none).run
      [.enter 0, .enqueueInvalidate 0 ['k'] 0] = some q ∧ q.running = true ∧
      (q.shards (hashKeyToShard (fun _ => 0) ['k'])).hasPendingWork = true ∧
      (q.shards (hashKeyToShard (fun _ => 0) ['k'])).state = .queued ∧
      ∀ w, q.workerReady w = [] :=
  System.exists_run (by decide +kernel)

theorem shard_wakeups_queued : ∃ q : Queue oneWorker,
    (q.shards (hashKeyToShard (fun _ => 0) ['k'])).state = .queued ∧
      ∃! place, (wakeups q).At (shardOwner oneWorker) (hashKeyToShard (fun _ => 0) ['k']) place := by
  have hex : ∃ q, (queueSystem oneWorker (fun _ => 0) fun _ => none).run
      [.enter 0, .enqueueInvalidate 0 ['k'] 0, .clientPush 0] = some q ∧ q.running ∧
        (q.shards (hashKeyToShard (fun _ => 0) ['k'])).state = .queued :=
    System.exists_run (by decide +kernel)
  obtain ⟨q, hq, hrun, hqueued⟩ := hex
  have hreach : (queueSystem oneWorker (fun _ => 0) fun _ => none).Reachable q :=
    .of_run (fun _ _ _ => trivial) hq
  exact ⟨q, hqueued, (shard_wakeups oneWorker _ _ q hreach hrun).2.2.2.2.1 _ hqueued⟩

end ByteTaper.Runtime
