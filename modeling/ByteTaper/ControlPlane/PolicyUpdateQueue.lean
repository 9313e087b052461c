import ByteTaper.ControlPlane.PolicyStateKey
import ByteTaper.Library.Transition

/-! # The policy update queue

`policy_update_queue.cpp` and `worker_loop` of `policy_update_worker.cpp`: update jobs wait in
logical shards, a list of ready shards tells the workers where to look, and a worker that has
claimed a shard pops and executes its jobs until it finds none, then releases the shard.

The model is a transition system in which every step is what one thread does under the locks it
takes. `enqueue` and `release_shard` hold the queue lock and the shard lock throughout and are one
step each. `try_claim_shard` and `begin_draining` hold the queue lock over a loop but take the shard
lock of one shard at a time, so that each round of their loops is a step of its own, and pops, which
need the shard lock only, come in between. The log of accepted, started and finished jobs is not in
the source; the results are stated about it. -/

namespace ByteTaper.ControlPlane

open Transition (System)

/-! ## Jobs and shards -/

inductive PolicyUpdateJobState where
  | submitted | queued | processing | candidateBuilt | versionStored | activePromoted | committed
  | failed | cancelled
deriving DecidableEq

/-- An update job, with the fields that the queue and the apply transaction read. -/
structure PolicyUpdateJob where
  jobId : Text
  resourceKey : Text
  logicalShardId : Nat := 0
  state : PolicyUpdateJobState := .submitted
  sourceType : Text := []
  expectedBaseGeneration : UInt64 := 0
  expectedBasePolicyId : Text := []
  source : Text := []
  submittedAtUnixEpochMs : UInt64 := 0
  updatedAtUnixEpochMs : UInt64 := 0
deriving DecidableEq

inductive PolicyUpdateShardState where
  | idle | queued | processing | draining | stopped
deriving DecidableEq

structure PolicyUpdateShard where
  state : PolicyUpdateShardState
  jobs : List PolicyUpdateJob

def kDefaultLogicalShardCount : Nat := 256

structure PolicyUpdateQueueConfig where
  logicalShardCount : Nat
  maxQueueDepthPerShard : Nat
  /-- `job_store` is not null. -/
  hasJobStore : Bool

/-- The constructor replaces a shard count of zero. -/
def PolicyUpdateQueueConfig.shardCount (cfg : PolicyUpdateQueueConfig) : Nat :=
  if cfg.logicalShardCount = 0 then kDefaultLogicalShardCount else cfg.logicalShardCount

theorem PolicyUpdateQueueConfig.shardCount_pos (cfg : PolicyUpdateQueueConfig) :
    0 < cfg.shardCount := by
  unfold shardCount kDefaultLogicalShardCount
  split <;> omega

/-! ## Threads and their steps -/

/-- Who is inside a loop that holds the queue lock. -/
inductive QueueLockHolder where
  /-- `try_claim_shard` of a worker. -/
  | claiming (worker : Nat)
  /-- `begin_draining`, about to visit shard `next`. -/
  | draining (next : Nat)
deriving DecidableEq

/-- Where a worker stands in `worker_loop`. -/
inductive WorkerPc (n : Nat) where
  | idle
  /-- Holds the shard, about to look for the next job. -/
  | holding (shard : Fin n)
  | executing (shard : Fin n) (job : PolicyUpdateJob)
  /-- Has seen the shard empty, about to release it. -/
  | leaving (shard : Fin n)
deriving DecidableEq

/-- The shard a worker is between claim and release of. -/
def WorkerPc.shard? {n : Nat} : WorkerPc n → Option (Fin n)
  | .idle => none
  | .holding shard | .executing shard _ | .leaving shard => some shard

inductive QueueEvent where
  | accepted (job : PolicyUpdateJob)
  | started (job : PolicyUpdateJob)
  | finished (job : PolicyUpdateJob)
  /-- `begin_draining` has returned. -/
  | drained
deriving DecidableEq

structure PolicyUpdateQueue (n : Nat) where
  draining : Bool
  shards : Fin n → PolicyUpdateShard
  readyShardIds : List (Fin n)
  queueMu : Option QueueLockHolder
  workers : Nat → WorkerPc n
  log : List QueueEvent

structure EnqueueJobResult where
  ok : Bool := false
  logicalShardId : Nat := 0
  jobId : Text := []
  error : Text := []
  message : Text := []

/-- Append what is not in the list yet. -/
def pushAbsent {n : Nat} (ready : List (Fin n)) (shardId : Fin n) : List (Fin n) :=
  if shardId ∈ ready then ready else ready ++ [shardId]

theorem mem_pushAbsent {n : Nat} {ready : List (Fin n)} {s t : Fin n} :
    t ∈ pushAbsent ready s ↔ t ∈ ready ∨ t = s := by
  unfold pushAbsent
  split <;> simp_all

theorem nodup_pushAbsent {n : Nat} {ready : List (Fin n)} (h : ready.Nodup) (s : Fin n) :
    (pushAbsent ready s).Nodup := by
  unfold pushAbsent
  split
  · exact h
  next hs => exact List.nodup_append.mpr ⟨h, by simp, by rintro a ha b hb rfl; simp_all⟩

section Operations

variable (cfg : PolicyUpdateQueueConfig) (hash : Text → Nat)

/-- `std::hash` modulo the number of shards. -/
def computeShardId (resourceKey : Text) : Fin cfg.shardCount :=
  ⟨hash resourceKey % cfg.shardCount, Nat.mod_lt _ cfg.shardCount_pos⟩

/-- `storeOk` is the answer of the job store. -/
def persistJobRecord (job : PolicyUpdateJob) (storeOk : Bool) : Bool :=
  cfg.hasJobStore && (parseResourceKey job.resourceKey).isSome && storeOk

variable {cfg}

abbrev Queue (cfg : PolicyUpdateQueueConfig) : Type := PolicyUpdateQueue cfg.shardCount

namespace PolicyUpdateQueue

def init : Queue cfg where
  draining := false
  shards := fun _ => { state := .idle, jobs := [] }
  readyShardIds := []
  queueMu := none
  workers := fun _ => .idle
  log := []

variable (q : Queue cfg)

def setShard (shardId : Fin cfg.shardCount) (shard : PolicyUpdateShard) : Queue cfg :=
  { q with shards := Function.update q.shards shardId shard }

def setWorker (worker : Nat) (pc : WorkerPc cfg.shardCount) : Queue cfg :=
  { q with workers := Function.update q.workers worker pc }

def pushReadyShardUnlocked (shardId : Fin cfg.shardCount) : Queue cfg :=
  { q with readyShardIds := pushAbsent q.readyShardIds shardId }

def enqueue (job : PolicyUpdateJob) (nowMs : UInt64) (storeOk : Bool) :
    EnqueueJobResult × Queue cfg :=
  if job.jobId.isEmpty then ({ error := lit "POLICY_JOB_ID_MISSING" }, q)
  else if job.resourceKey.isEmpty then ({ error := lit "POLICY_JOB_RESOURCE_KEY_MISSING" }, q)
  else
    let shardId := computeShardId cfg hash job.resourceKey
    let shard := q.shards shardId
    if shard.state = .stopped then
      ({ logicalShardId := shardId, error := lit "POLICY_JOB_QUEUE_STOPPED" }, q)
    else if q.draining = true ∨ shard.state = .draining then
      ({ logicalShardId := shardId
         error := lit "POLICY_JOB_QUEUE_DRAINING"
         message := lit "Policy update queue is draining and not accepting new jobs." }, q)
    else if cfg.maxQueueDepthPerShard ≤ shard.jobs.length then
      ({ logicalShardId := shardId
         error := lit "POLICY_JOB_QUEUE_FULL"
         message := lit "Policy update queue for this resource is full." }, q)
    else
      let job := { job with
        logicalShardId := shardId
        state := .queued
        submittedAtUnixEpochMs := nowMs
        updatedAtUnixEpochMs := nowMs }
      if persistJobRecord cfg job storeOk then
        -- the shard becomes Queued even while a worker is processing it; only a shard that was
        -- idle is pushed
        let ready :=
          if shard.state = .idle then q.readyShardIds ++ [shardId] else q.readyShardIds
        ({ ok := true, logicalShardId := shardId, jobId := job.jobId },
         { q.setShard shardId { state := .queued, jobs := shard.jobs ++ [job] } with
           readyShardIds := ready
           log := q.log ++ [.accepted job] })
      else ({ logicalShardId := shardId, error := lit "POLICY_JOB_STORE_FAILED" }, q)

/-- One shard's turn in `begin_draining`. -/
def drainShard (shardId : Fin cfg.shardCount) : Queue cfg :=
  let shard := q.shards shardId
  if shard.jobs.isEmpty then q
  else
    let state :=
      if shard.state = .queued ∨ shard.state = .processing then .draining else shard.state
    let q := q.setShard shardId { shard with state }
    if state = .draining then q.pushReadyShardUnlocked shardId else q

/-- One round of the loop of `try_claim_shard`, which always looks at the front of the ready list:
    what it passes over it erases. -/
def claimVisit (worker : Nat) : Queue cfg :=
  match q.readyShardIds with
  | [] => { q with queueMu := none }
  | shardId :: rest =>
    let shard := q.shards shardId
    if ¬ (shard.state = .queued ∨ shard.state = .draining) ∨ shard.jobs = [] then
      let state :=
        if shard.jobs = [] ∧ (shard.state = .queued ∨ shard.state = .draining) then .idle
        else shard.state
      { q.setShard shardId { shard with state } with readyShardIds := rest }
    else
      { (q.setShard shardId { shard with state := .processing }).setWorker worker
          (.holding shardId) with
        readyShardIds := rest
        queueMu := none }

/-- Take the front job, or leave the inner loop of `worker_loop`. -/
def popJob (worker : Nat) (shardId : Fin cfg.shardCount) : Queue cfg :=
  let shard := q.shards shardId
  match shard.jobs with
  | [] => q.setWorker worker (.leaving shardId)
  | job :: rest =>
    { (q.setShard shardId { shard with jobs := rest }).setWorker worker
        (.executing shardId job) with
      log := q.log ++ [.started job] }

def releaseShard (worker : Nat) (shardId : Fin cfg.shardCount) : Queue cfg :=
  let shard := q.shards shardId
  let released :=
    if shard.jobs.isEmpty then q.setShard shardId { shard with state := .idle }
    else if q.draining then
      (q.setShard shardId { shard with state := .draining }).pushReadyShardUnlocked shardId
    else (q.setShard shardId { shard with state := .queued }).pushReadyShardUnlocked shardId
  released.setWorker worker .idle

end PolicyUpdateQueue

inductive QueueAction where
  | enqueue (job : PolicyUpdateJob) (nowMs : UInt64) (storeOk : Bool)
  | beginDraining
  | drainVisit
  | claimBegin (worker : Nat)
  | claimVisit
  | pop (worker : Nat)
  | finish (worker : Nat)
  | release (worker : Nat)
deriving DecidableEq

variable (cfg)

/-- What a thread does when it takes `action`; `none` while the thread is elsewhere or the queue
    lock is held. -/
def queueStep (q : Queue cfg) (action : QueueAction) : Option (Queue cfg) :=
  match action with
  | .enqueue job nowMs storeOk =>
    match q.queueMu with
    | none => some (q.enqueue hash job nowMs storeOk).2
    | some _ => none
  | .beginDraining =>
    match q.queueMu with
    | none => some { q with draining := true, queueMu := some (.draining 0) }
    | some _ => none
  | .drainVisit =>
    match q.queueMu with
    | some (.draining next) =>
      if h : next < cfg.shardCount then
        some { q.drainShard ⟨next, h⟩ with queueMu := some (.draining (next + 1)) }
      else some { q with queueMu := none, log := q.log ++ [.drained] }
    | _ => none
  | .claimBegin worker =>
    match q.queueMu, q.workers worker with
    | none, .idle => some { q with queueMu := some (.claiming worker) }
    | _, _ => none
  | .claimVisit =>
    match q.queueMu with
    | some (.claiming worker) => some (q.claimVisit worker)
    | _ => none
  | .pop worker =>
    match q.workers worker with
    | .holding shardId => some (q.popJob worker shardId)
    | _ => none
  | .finish worker =>
    match q.workers worker with
    | .executing shardId job =>
      some { q.setWorker worker (.holding shardId) with log := q.log ++ [.finished job] }
    | _ => none
  | .release worker =>
    match q.queueMu, q.workers worker with
    | none, .leaving shardId => some (q.releaseShard worker shardId)
    | _, _ => none

def queueSystem : System (Queue cfg) QueueAction where
  init := .init
  step := queueStep cfg hash

/-! ## What a step can do -/

/-- Every way a step changes the queue, with what the code has tested before. -/
inductive QueueStep (q : Queue cfg) : QueueAction → Queue cfg → Prop where
  | reject (job nowMs storeOk) : QueueStep q (.enqueue job nowMs storeOk) q
  | accept (job nowMs storeOk) (job' : PolicyUpdateJob) (s : Fin cfg.shardCount)
      (hmu : q.queueMu = none) (hdrain : q.draining = false)
      (hkey : computeShardId cfg hash job'.resourceKey = s)
      (hstopped : (q.shards s).state ≠ .stopped) (hdraining : (q.shards s).state ≠ .draining) :
      QueueStep q (.enqueue job nowMs storeOk)
        { q with
          shards := Function.update q.shards s ⟨.queued, (q.shards s).jobs ++ [job']⟩
          readyShardIds :=
            if (q.shards s).state = .idle then q.readyShardIds ++ [s] else q.readyShardIds
          log := q.log ++ [.accepted job'] }
  | drainBegin (hmu : q.queueMu = none) :
      QueueStep q .beginDraining { q with draining := true, queueMu := some (.draining 0) }
  | drainSkip (s : Fin cfg.shardCount) (hmu : q.queueMu = some (.draining s))
      (hskip : (q.shards s).jobs = [] ∨ (q.shards s).state = .idle ∨
        (q.shards s).state = .stopped) :
      QueueStep q .drainVisit { q with queueMu := some (.draining (s + 1)) }
  | drainMark (s : Fin cfg.shardCount) (hmu : q.queueMu = some (.draining s))
      (hjobs : (q.shards s).jobs ≠ []) :
      QueueStep q .drainVisit
        { q with
          shards := Function.update q.shards s ⟨.draining, (q.shards s).jobs⟩
          readyShardIds := pushAbsent q.readyShardIds s
          queueMu := some (.draining (s + 1)) }
  | drainEnd (next : Nat) (hmu : q.queueMu = some (.draining next)) :
      QueueStep q .drainVisit { q with queueMu := none, log := q.log ++ [.drained] }
  | claimBegin (w : Nat) (hmu : q.queueMu = none) (hw : q.workers w = .idle) :
      QueueStep q (.claimBegin w) { q with queueMu := some (.claiming w) }
  | claimNone (w : Nat) (hmu : q.queueMu = some (.claiming w)) (hready : q.readyShardIds = []) :
      QueueStep q .claimVisit { q with queueMu := none }
  | claimDrop (w : Nat) (s : Fin cfg.shardCount) (rest : List (Fin cfg.shardCount))
      (state : PolicyUpdateShardState)
      (hmu : q.queueMu = some (.claiming w)) (hready : q.readyShardIds = s :: rest)
      (hstate : (q.shards s).jobs = [] ∧ state = .idle ∨ state = (q.shards s).state ∧
        state ≠ .queued ∧ state ≠ .draining) :
      QueueStep q .claimVisit
        { q with
          shards := Function.update q.shards s ⟨state, (q.shards s).jobs⟩
          readyShardIds := rest }
  | claimTake (w : Nat) (s : Fin cfg.shardCount) (rest : List (Fin cfg.shardCount))
      (hmu : q.queueMu = some (.claiming w)) (hready : q.readyShardIds = s :: rest)
      (hjobs : (q.shards s).jobs ≠ []) :
      QueueStep q .claimVisit
        { q with
          shards := Function.update q.shards s ⟨.processing, (q.shards s).jobs⟩
          readyShardIds := rest
          workers := Function.update q.workers w (.holding s)
          queueMu := none }
  | popNone (w : Nat) (s : Fin cfg.shardCount) (hw : q.workers w = .holding s)
      (hjobs : (q.shards s).jobs = []) :
      QueueStep q (.pop w) { q with workers := Function.update q.workers w (.leaving s) }
  | popSome (w : Nat) (s : Fin cfg.shardCount) (job : PolicyUpdateJob)
      (rest : List PolicyUpdateJob) (hw : q.workers w = .holding s)
      (hjobs : (q.shards s).jobs = job :: rest) :
      QueueStep q (.pop w)
        { q with
          shards := Function.update q.shards s ⟨(q.shards s).state, rest⟩
          workers := Function.update q.workers w (.executing s job)
          log := q.log ++ [.started job] }
  | finish (w : Nat) (s : Fin cfg.shardCount) (job : PolicyUpdateJob)
      (hw : q.workers w = .executing s job) :
      QueueStep q (.finish w)
        { q with
          workers := Function.update q.workers w (.holding s)
          log := q.log ++ [.finished job] }
  | releaseIdle (w : Nat) (s : Fin cfg.shardCount) (hmu : q.queueMu = none)
      (hw : q.workers w = .leaving s) (hjobs : (q.shards s).jobs = []) :
      QueueStep q (.release w)
        { q with
          shards := Function.update q.shards s ⟨.idle, (q.shards s).jobs⟩
          workers := Function.update q.workers w .idle }
  | releaseReady (w : Nat) (s : Fin cfg.shardCount) (hmu : q.queueMu = none)
      (hw : q.workers w = .leaving s) (hjobs : (q.shards s).jobs ≠ []) :
      QueueStep q (.release w)
        { q with
          shards := Function.update q.shards s
            ⟨if q.draining then .draining else .queued, (q.shards s).jobs⟩
          workers := Function.update q.workers w .idle
          readyShardIds := pushAbsent q.readyShardIds s }

variable {cfg hash}

open PolicyUpdateQueue

section

variable (q : Queue cfg)

theorem enqueue_cases (job : PolicyUpdateJob) (nowMs : UInt64) (storeOk : Bool)
    (hmu : q.queueMu = none) :
    QueueStep cfg hash q (.enqueue job nowMs storeOk) (q.enqueue hash job nowMs storeOk).2 := by
  unfold enqueue
  split
  · exact .reject ..
  split
  · exact .reject ..
  dsimp only
  split
  · exact .reject ..
  rename_i hstop
  split
  · exact .reject ..
  rename_i hdrain
  push Not at hdrain
  split
  · exact .reject ..
  · split
    · exact .accept job nowMs storeOk _ _ hmu (by simpa using hdrain.1) rfl hstop hdrain.2
    · exact .reject ..

theorem drainShard_cases (s : Fin cfg.shardCount) (hmu : q.queueMu = some (.draining s)) :
    QueueStep cfg hash q .drainVisit
      { q.drainShard s with queueMu := some (.draining (s + 1)) } := by
  unfold drainShard
  by_cases hjobs : (q.shards s).jobs = []
  · simp only [hjobs, List.isEmpty_nil, if_true]
    exact .drainSkip s hmu (Or.inl hjobs)
  · have hempty : (q.shards s).jobs.isEmpty = false := by simpa using hjobs
    simp only [hempty, Bool.false_eq_true, if_false, setShard, pushReadyShardUnlocked]
    cases hstate : (q.shards s).state with
    | idle =>
      have hsame : (⟨.idle, (q.shards s).jobs⟩ : PolicyUpdateShard) = q.shards s := by
        rw [← hstate]
      simp only [reduceCtorEq, or_self, if_false, hsame, Function.update_eq_self]
      exact .drainSkip s hmu (Or.inr (Or.inl hstate))
    | stopped =>
      have hsame : (⟨.stopped, (q.shards s).jobs⟩ : PolicyUpdateShard) = q.shards s := by
        rw [← hstate]
      simp only [reduceCtorEq, or_self, if_false, hsame, Function.update_eq_self]
      exact .drainSkip s hmu (Or.inr (Or.inr hstate))
    | queued | processing | draining => exact .drainMark s hmu hjobs

theorem claimVisit_cases (w : Nat) (hmu : q.queueMu = some (.claiming w)) :
    QueueStep cfg hash q .claimVisit (q.claimVisit w) := by
  unfold claimVisit
  split
  next hready => exact .claimNone w hmu hready
  rename_i s rest hready
  dsimp only
  split
  next hpass =>
    refine .claimDrop w s rest _ hmu hready ?_
    split
    next hempty => exact Or.inl ⟨hempty.1, rfl⟩
    next hnot =>
      refine Or.inr ⟨rfl, ?_, ?_⟩ <;> intro hstate <;> simp_all
  next htake =>
    push Not at htake
    exact .claimTake w s rest hmu hready htake.2

theorem popJob_cases (w : Nat) (s : Fin cfg.shardCount) (hw : q.workers w = .holding s) :
    QueueStep cfg hash q (.pop w) (q.popJob w s) := by
  unfold popJob
  dsimp only
  split
  next hjobs => exact .popNone w s hw hjobs
  next job rest hjobs => exact .popSome w s job rest hw hjobs

theorem releaseShard_cases (w : Nat) (s : Fin cfg.shardCount) (hmu : q.queueMu = none)
    (hw : q.workers w = .leaving s) : QueueStep cfg hash q (.release w) (q.releaseShard w s) := by
  unfold releaseShard
  simp only [setWorker, setShard, pushReadyShardUnlocked, List.isEmpty_iff]
  by_cases hjobs : (q.shards s).jobs = []
  · rw [if_pos hjobs]
    exact .releaseIdle w s hmu hw hjobs
  · have hready : QueueStep cfg hash q (.release w) _ := .releaseReady w s hmu hw hjobs
    rw [if_neg hjobs]
    by_cases hdrain : q.draining
    · rw [if_pos hdrain] at hready ⊢
      exact hready
    · rw [if_neg hdrain] at hready ⊢
      exact hready

end

/-- The inversion of `queueStep`: every enabled action is one of the steps listed. -/
theorem queueStep_cases {q q' : Queue cfg} {a : QueueAction}
    (h : queueStep cfg hash q a = some q') : QueueStep cfg hash q a q' := by
  -- an action makes no step unless the mutex and the worker are where it needs them
  cases a <;> dsimp only [queueStep] at h <;> split at h <;> try cases h
  next hmu => exact enqueue_cases q _ _ _ hmu
  next hmu => exact .drainBegin hmu
  next visited hmu =>
    split at h
    next hlt =>
      cases h
      exact drainShard_cases q ⟨visited, hlt⟩ hmu
    · cases h
      exact .drainEnd visited hmu
  next hmu hw => exact .claimBegin _ hmu hw
  next w hmu => exact claimVisit_cases q w hmu
  next s hw => exact popJob_cases q _ s hw
  next s job hw => exact .finish _ s job hw
  next s hmu hw => exact releaseShard_cases q _ s hmu hw

end Operations

end ByteTaper.ControlPlane
