import ByteTaper.Cache.CacheEntry
import ByteTaper.Library.Transition
import Mathlib.Data.List.FinRange

/-! # The runtime worker queue

`worker_queue.cpp`: asynchronous L2 lookups, stores and invalidations. A key belongs to one of 256
shards, and a shard to one worker. A shard has a lane for each kind of job; a worker that takes a
shard from its ready queue drains the lanes in a fixed order, each up to its quota, and queues the
shard again if jobs remain.

Every step is what a client or a worker does under one lock. A client has tested `running` before it
locks a shard, and pushes the shard into the ready queue after it has left the shard lock; a worker
pops under the shard lock and does its I/O outside. The logs of accepted and executed writes and lookups
are not in the source. -/

namespace ByteTaper.Runtime

open Cache
open Transition (System)

def kRuntimeShardCount : Nat := 256
def kRuntimeQueueSlotsPerShard : Nat := 16
def kRuntimePendingSlotsPerShard : Nat := 16
def kWorkerQueueMaxWorkers : Nat := 8
def kAsyncL2StoreDefaultMaxBodySize : Nat := 65536
def kAsyncL2StoreAbsoluteMaxBodySize : Nat := kL2MaxBodySize

abbrev ShardId := Fin kRuntimeShardCount
abbrev BodySlot := Fin kRuntimeQueueSlotsPerShard

/-! ## Configuration -/

/-- A configuration as `worker_queue_init` has accepted it. -/
structure WorkerQueueSettings where
  workerCount : Nat
  asyncStoreMaxBodySize : Nat
  lookupLaneQuota : Nat
  storeLaneQuota : Nat
  invalidateLaneQuota : Nat
  workerCount_pos : 0 < workerCount
  workerCount_le : workerCount ≤ kWorkerQueueMaxWorkers
  lookupLaneQuota_pos : 0 < lookupLaneQuota
  storeLaneQuota_pos : 0 < storeLaneQuota
  invalidateLaneQuota_pos : 0 < invalidateLaneQuota
  asyncStoreMaxBodySize_le : asyncStoreMaxBodySize ≤ kAsyncL2StoreAbsoluteMaxBodySize

/-- One worker, and the default quotas. -/
def oneWorker : WorkerQueueSettings where
  workerCount := 1
  asyncStoreMaxBodySize := kAsyncL2StoreDefaultMaxBodySize
  lookupLaneQuota := 4
  storeLaneQuota := 1
  invalidateLaneQuota := 1
  workerCount_pos := by decide
  workerCount_le := by decide
  lookupLaneQuota_pos := by decide
  storeLaneQuota_pos := by decide
  invalidateLaneQuota_pos := by decide
  asyncStoreMaxBodySize_le := by decide

/-! ## Jobs and shards -/

structure L2LookupJob where
  key : Text
  keyHash : UInt32 := 0
  enqueuedAtMs : UInt64 := 0
deriving DecidableEq

/-- A store job. Until it is accepted its body is in `entry.body`; behind the queue the bytes lie in
    the slot `bodySlot` of the shard's pool. -/
structure L2StoreJob where
  key : Text
  entry : CacheEntry
  bodySlot : Option BodySlot := none
  bodyLen : Nat := 0
  enqueuedAtMs : UInt64 := 0
deriving DecidableEq

structure L2InvalidateJob where
  key : Text
  enqueuedAtMs : UInt64 := 0
deriving DecidableEq

structure StoreBodyPool where
  bodies : BodySlot → Text
  bodySizes : BodySlot → Nat
  occupied : BodySlot → Bool

inductive RuntimeShardState where
  | idle | queued | processing
deriving DecidableEq

inductive Lane where
  | lookup | invalidate | store
deriving DecidableEq

structure RuntimeShard where
  /-- The keys marked pending, with their hashes, by slot. -/
  pending : Fin kRuntimePendingSlotsPerShard → Option (Text × UInt32)
  pendingCount : Nat
  lookups : List L2LookupJob
  stores : List L2StoreJob
  invalidates : List L2InvalidateJob
  bodyPool : StoreBodyPool
  state : RuntimeShardState

namespace RuntimeShard

def init : RuntimeShard where
  pending := fun _ => none
  pendingCount := 0
  lookups := []
  stores := []
  invalidates := []
  bodyPool := { bodies := fun _ => [], bodySizes := fun _ => 0, occupied := fun _ => false }
  state := .idle

variable (shard : RuntimeShard)

def hasPendingWork : Bool :=
  !shard.lookups.isEmpty || !shard.stores.isEmpty || !shard.invalidates.isEmpty

/-- `none` if the key is marked already or every slot is taken. -/
def pendingTryMark (key : Text) (hash : UInt32) : Option RuntimeShard :=
  if ∃ i, shard.pending i = some (key, hash) then none
  else
    match (List.finRange kRuntimePendingSlotsPerShard).find? fun i => (shard.pending i).isNone with
    | none => none
    | some i =>
      some { shard with
        pending := Function.update shard.pending i (some (key.take (kCacheKeyMaxLen - 1), hash))
        pendingCount := shard.pendingCount + 1 }

def pendingClear (key : Text) (hash : UInt32) : RuntimeShard :=
  match (List.finRange kRuntimePendingSlotsPerShard).find? fun i =>
      shard.pending i = some (key, hash) with
  | none => shard
  | some i =>
    { shard with
      pending := Function.update shard.pending i none
      pendingCount := shard.pendingCount - 1 }

def laneEmpty : Lane → Bool
  | .lookup => shard.lookups.isEmpty
  | .invalidate => shard.invalidates.isEmpty
  | .store => shard.stores.isEmpty

/-- An idle shard becomes queued when a job arrives. -/
def queuedState : RuntimeShardState :=
  if shard.state = .idle then .queued else shard.state

end RuntimeShard

/-! ## Threads -/

/-- A write to the L2 store. -/
inductive L2Op where
  | put (entry : CacheEntry)
  | delete (key : Text)
deriving DecidableEq

def L2Op.key : L2Op → Text
  | .put entry => entry.key
  | .delete key => key

def L2Op.apply (l2 : L2Store) : L2Op → L2Store
  | .put entry => l2Put l2 entry
  | .delete key => l2Remove l2 key

/-- What a worker drains: a shard from its ready queue, or the `index`-th of its own shards in a
    round of `worker_drain_owned_once` that has popped a job if `worked`. -/
structure Task where
  shard : ShardId
  round : Option (Nat × Bool)
deriving DecidableEq

/-- A job has been popped. -/
def Task.popped (task : Task) : Task :=
  { task with round := task.round.map fun (index, _) => (index, true) }

/-- Where a worker stands in `worker_loop`. -/
inductive WorkerPc where
  | waiting
  /-- Has popped the shard from the ready queue. -/
  | marking (shard : ShardId)
  /-- About to pop from a lane from which `executed` jobs have been executed. -/
  | draining (task : Task) (lane : Lane) (executed : Nat)
  | lookingUp (task : Task) (executed : Nat) (job : L2LookupJob)
  /-- The lookup is over, its pending mark is not cleared yet. -/
  | clearing (task : Task) (executed : Nat) (job : L2LookupJob)
  | invalidating (task : Task) (executed : Nat) (job : L2InvalidateJob)
  | storing (task : Task) (executed : Nat) (job : L2StoreJob)
  /-- The put is over, the body slot is not free yet. -/
  | freeing (task : Task) (executed : Nat) (job : L2StoreJob)
  | requeueing (task : Task)
  | pushing (task : Task)
  /-- About to drain the `index`-th of the worker's shards. -/
  | owned (index : Nat) (worked : Bool)
  | stopped
deriving DecidableEq

/-- Where a client stands in an enqueue call. -/
inductive ClientPc where
  | outside
  /-- Has seen `running`. -/
  | entered
  /-- Has made the shard queued, and has to push it. -/
  | pushing (shard : ShardId)

structure WorkerQueue (workerCount : Nat) where
  shards : ShardId → RuntimeShard
  running : Bool
  workerReady : Fin workerCount → List ShardId
  storeBodyPoolBytesInUse : Nat
  l2 : L2Store
  workers : Fin workerCount → WorkerPc
  clients : Nat → ClientPc
  accepted : List (ShardId × L2Op)
  executed : List (ShardId × L2Op)
  acceptedLookups : List (ShardId × L2LookupJob)
  executedLookups : List (ShardId × L2LookupJob)

namespace WorkerQueue

variable {n : Nat}

/-- A queue that `worker_queue_start` has started over the store `l2`. -/
def init (l2 : L2Store) : WorkerQueue n where
  shards := fun _ => .init
  running := true
  workerReady := fun _ => []
  storeBodyPoolBytesInUse := 0
  l2 := l2
  workers := fun _ => .waiting
  clients := fun _ => .outside
  accepted := []
  executed := []
  acceptedLookups := []
  executedLookups := []

variable (q : WorkerQueue n)

@[simps] def setShard (shardId : ShardId) (shard : RuntimeShard) : WorkerQueue n :=
  { q with shards := Function.update q.shards shardId shard }

@[simps] def setWorker (worker : Fin n) (pc : WorkerPc) : WorkerQueue n :=
  { q with workers := Function.update q.workers worker pc }

@[simps] def setClient (client : Nat) (pc : ClientPc) : WorkerQueue n :=
  { q with clients := Function.update q.clients client pc }

/-- The ring of a ready queue has room for every shard. -/
@[simps] def readyTryPush (worker : Fin n) (shardId : ShardId) : WorkerQueue n :=
  { q with
    workerReady :=
      if kRuntimeShardCount ≤ (q.workerReady worker).length then q.workerReady
      else Function.update q.workerReady worker (q.workerReady worker ++ [shardId]) }

/-- The client leaves the shard lock: if the shard was idle, it has to be pushed. -/
@[simps!] def leaveShard (client : Nat) (shardId : ShardId) (old : RuntimeShard) : WorkerQueue n :=
  q.setClient client (if old.state = .idle then .pushing shardId else .outside)

end WorkerQueue

section Operations

variable (cfg : WorkerQueueSettings) (hash : Text → UInt64)

abbrev Queue (cfg : WorkerQueueSettings) : Type := WorkerQueue cfg.workerCount

def hashKeyToShard (key : Text) : ShardId :=
  ⟨(hash key).toNat % kRuntimeShardCount, Nat.mod_lt _ (by decide)⟩

def shardOwner (shardId : ShardId) : Fin cfg.workerCount :=
  ⟨shardId % cfg.workerCount, Nat.mod_lt _ cfg.workerCount_pos⟩

/-- `worker_owned_shards`, as `worker_queue_init` fills it. -/
def workerOwnedShards (worker : Fin cfg.workerCount) : List ShardId :=
  (List.finRange kRuntimeShardCount).filter fun s => shardOwner cfg s = worker

variable {cfg}

namespace WorkerQueue

variable (q : Queue cfg) (client : Nat)

def tryEnqueueLookup (job : L2LookupJob) (nowMs : UInt64) : Queue cfg :=
  let shardId := hashKeyToShard hash job.key
  let keyHash := (hash job.key ^^^ (hash job.key >>> 32)).toUInt32
  let shard := q.shards shardId
  match shard.pendingTryMark job.key keyHash with
  | none => q.setClient client .outside
  | some marked =>
    if kRuntimeQueueSlotsPerShard ≤ shard.lookups.length then
      (q.setShard shardId (marked.pendingClear job.key keyHash)).setClient client .outside
    else
      let queued : L2LookupJob := { job with keyHash, enqueuedAtMs := nowMs }
      { (q.setShard shardId { marked with
          lookups := shard.lookups ++ [queued]
          state := shard.queuedState }).leaveShard client shardId shard with
        acceptedLookups := q.acceptedLookups ++ [(shardId, queued)] }

def tryEnqueueStore (job : L2StoreJob) (nowMs : UInt64) : Queue cfg :=
  let shardId := hashKeyToShard hash job.key
  let shard := q.shards shardId
  match (List.finRange kRuntimeQueueSlotsPerShard).find? fun i => !shard.bodyPool.occupied i with
  | none => q.setClient client .outside
  | some slot =>
    if kRuntimeQueueSlotsPerShard ≤ shard.stores.length then q.setClient client .outside
    else if cfg.asyncStoreMaxBodySize < job.entry.body.length then q.setClient client .outside
    else
      let copyLen := job.entry.body.length
      let queued : L2StoreJob := { job with
        entry := { job.entry with body := [] }
        bodySlot := some slot
        bodyLen := copyLen
        enqueuedAtMs := nowMs }
      { (q.setShard shardId { shard with
          stores := shard.stores ++ [queued]
          bodyPool :=
            { bodies := Function.update shard.bodyPool.bodies slot job.entry.body
              bodySizes := Function.update shard.bodyPool.bodySizes slot copyLen
              occupied := Function.update shard.bodyPool.occupied slot true }
          state := shard.queuedState }).leaveShard client shardId shard with
        storeBodyPoolBytesInUse := q.storeBodyPoolBytesInUse + copyLen
        accepted := q.accepted ++ [(shardId, .put job.entry)] }

def enqueueL2Invalidate (key : Text) (nowMs : UInt64) : Queue cfg :=
  let shardId := hashKeyToShard hash key
  let shard := q.shards shardId
  if key.isEmpty then q.setClient client .outside
  else if kRuntimeQueueSlotsPerShard ≤ shard.invalidates.length then q.setClient client .outside
  else
    let job : L2InvalidateJob := { key := key.take (kCacheKeyMaxLen - 1), enqueuedAtMs := nowMs }
    { (q.setShard shardId { shard with
        invalidates := shard.invalidates ++ [job]
        state := shard.queuedState }).leaveShard client shardId shard with
      accepted := q.accepted ++ [(shardId, .delete job.key)] }

/-- The entry a store job puts: its body is what its slot holds. -/
def storedEntry (shardId : ShardId) (job : L2StoreJob) : CacheEntry :=
  match job.bodySlot with
  | none => job.entry
  | some slot =>
    { job.entry with body := ((q.shards shardId).bodyPool.bodies slot).take job.bodyLen }

/-- Give the body slot of a store job back. -/
def freeBodySlot (shardId : ShardId) (job : L2StoreJob) : Queue cfg :=
  match job.bodySlot with
  | none => q
  | some slot =>
    let shard := q.shards shardId
    let sizeFreed := shard.bodyPool.bodySizes slot
    { q.setShard shardId { shard with
        bodyPool := { shard.bodyPool with
          bodySizes := Function.update shard.bodyPool.bodySizes slot 0
          occupied := Function.update shard.bodyPool.occupied slot false } } with
      storeBodyPoolBytesInUse := q.storeBodyPoolBytesInUse - sizeFreed }

/-- Where a worker goes when it has left a shard. -/
def afterTask (task : Task) : WorkerPc :=
  match task.round with
  | none => .waiting
  | some (index, worked) => .owned (index + 1) worked

/-- The next lane, in the order of `process_ready_shard` and `worker_drain_owned_once`. -/
def afterLane (task : Task) : Lane → WorkerPc
  | .lookup => .draining task .invalidate 0
  | .invalidate => .draining task .store 0
  | .store => .requeueing task

variable (cfg) in
def laneQuota : Lane → Nat
  | .lookup => cfg.lookupLaneQuota
  | .invalidate => cfg.invalidateLaneQuota
  | .store => cfg.storeLaneQuota

variable (worker : Fin cfg.workerCount)

/-- Pop a job of the lane and go on to execute it, or go on to the next lane. -/
def popLane (task : Task) (lane : Lane) (executed : Nat) : Queue cfg :=
  let shard := q.shards task.shard
  if executed < laneQuota cfg lane then
    match lane with
    | .lookup =>
      match shard.lookups with
      | [] => q.setWorker worker (afterLane task lane)
      | job :: rest =>
        (q.setShard task.shard { shard with lookups := rest }).setWorker worker
          (.lookingUp task.popped executed job)
    | .invalidate =>
      match shard.invalidates with
      | [] => q.setWorker worker (afterLane task lane)
      | job :: rest =>
        (q.setShard task.shard { shard with invalidates := rest }).setWorker worker
          (.invalidating task.popped executed job)
    | .store =>
      match shard.stores with
      | [] => q.setWorker worker (afterLane task lane)
      | job :: rest =>
        (q.setShard task.shard { shard with stores := rest }).setWorker worker
          (.storing task.popped executed job)
  else q.setWorker worker (afterLane task lane)

/-- `shard_requeue_or_clear` up to the end of its critical section. -/
def requeueOrClear (task : Task) : Queue cfg :=
  let shard := q.shards task.shard
  if shard.hasPendingWork then
    (q.setShard task.shard { shard with state := .queued }).setWorker worker
      (if q.running then .pushing task else afterTask task)
  else (q.setShard task.shard { shard with state := .idle }).setWorker worker (afterTask task)

/-- The next step of a worker; `none` while it waits for a ready shard and when it has stopped. -/
def workerStep : Option (Queue cfg) :=
  match q.workers worker with
  | .waiting =>
    match q.workerReady worker with
    | shardId :: rest =>
      some ({ q with workerReady := Function.update q.workerReady worker rest }.setWorker
        worker (.marking shardId))
    | [] => if q.running then none else some (q.setWorker worker (.owned 0 false))
  | .marking shardId =>
    if shardOwner cfg shardId = worker ∧ (q.shards shardId).state = .queued then
      some ((q.setShard shardId { q.shards shardId with state := .processing }).setWorker worker
        (.draining { shard := shardId, round := none } .lookup 0))
    else some (q.setWorker worker .waiting)
  | .draining task lane executed => some (q.popLane worker task lane executed)
  | .lookingUp task executed job =>
    some { q.setWorker worker (.clearing task executed job) with
      executedLookups := q.executedLookups ++ [(task.shard, job)] }
  | .clearing task executed job =>
    some ((q.setShard task.shard
      ((q.shards task.shard).pendingClear job.key job.keyHash)).setWorker worker
        (.draining task .lookup (executed + 1)))
  | .invalidating task executed job =>
    some { q.setWorker worker (.draining task .invalidate (executed + 1)) with
      l2 := l2Remove q.l2 job.key
      executed := q.executed ++ [(task.shard, .delete job.key)] }
  | .storing task executed job =>
    let entry := q.storedEntry task.shard job
    some { q.setWorker worker (.freeing task executed job) with
      l2 := l2Put q.l2 entry
      executed := q.executed ++ [(task.shard, .put entry)] }
  | .freeing task executed job =>
    some ((q.freeBodySlot task.shard job).setWorker worker
      (.draining task .store (executed + 1)))
  | .requeueing task => some (q.requeueOrClear worker task)
  | .pushing task =>
    some ((q.readyTryPush (shardOwner cfg task.shard) task.shard).setWorker worker
      (afterTask task))
  | .owned index worked =>
    match (workerOwnedShards cfg worker)[index]? with
    | some shardId =>
      some (q.setWorker worker
        (.draining { shard := shardId, round := some (index, worked) } .lookup 0))
    | none => some (q.setWorker worker (if worked then .owned 0 false else .stopped))
  | .stopped => none

end WorkerQueue

inductive QueueAction (workerCount : Nat) where
  /-- The client calls an enqueue function and sees that the queue is running. -/
  | enter (client : Nat)
  | enqueueLookup (client : Nat) (job : L2LookupJob) (nowMs : UInt64)
  | enqueueStore (client : Nat) (job : L2StoreJob) (nowMs : UInt64)
  | enqueueInvalidate (client : Nat) (key : Text) (nowMs : UInt64)
  | clientPush (client : Nat)
  | work (worker : Fin workerCount)
  | shutdown

variable (cfg)

def queueStep (q : Queue cfg) : QueueAction cfg.workerCount → Option (Queue cfg)
  | .enter client =>
    match q.clients client with
    | .outside => if q.running then some (q.setClient client .entered) else none
    | _ => none
  | .enqueueLookup client job nowMs =>
    match q.clients client with
    | .entered => some (q.tryEnqueueLookup hash client job nowMs)
    | _ => none
  | .enqueueStore client job nowMs =>
    match q.clients client with
    | .entered => some (q.tryEnqueueStore hash client job nowMs)
    | _ => none
  | .enqueueInvalidate client key nowMs =>
    match q.clients client with
    | .entered => some (q.enqueueL2Invalidate hash client key nowMs)
    | _ => none
  | .clientPush client =>
    match q.clients client with
    | .pushing shardId =>
      some ((q.readyTryPush (shardOwner cfg shardId) shardId).setClient client .outside)
    | _ => none
  | .work worker => q.workerStep worker
  | .shutdown => some { q with running := false }

def queueSystem (l2 : L2Store) : System (Queue cfg) (QueueAction cfg.workerCount) where
  init := .init l2
  step := queueStep cfg hash

/-! ## What a step can do -/

/-- Every way a step changes the queue, with what the code has tested before. -/
inductive QueueStep (q : Queue cfg) : QueueAction cfg.workerCount → Queue cfg → Prop where
  | enter (c) (hc : q.clients c = .outside) (hrun : q.running = true) :
      QueueStep q (.enter c) (q.setClient c .entered)
  | rejectLookup (c job nowMs) (hc : q.clients c = .entered) :
      QueueStep q (.enqueueLookup c job nowMs) (q.setClient c .outside)
  | fullLookup (c job nowMs) (marked : RuntimeShard) (hc : q.clients c = .entered)
      (hmark : (q.shards (hashKeyToShard hash job.key)).pendingTryMark job.key
        (hash job.key ^^^ (hash job.key >>> 32)).toUInt32 = some marked) :
      QueueStep q (.enqueueLookup c job nowMs)
        ((q.setShard (hashKeyToShard hash job.key) (marked.pendingClear job.key
          (hash job.key ^^^ (hash job.key >>> 32)).toUInt32)).setClient c .outside)
  | acceptLookup (c job nowMs) (s : ShardId) (keyHash : UInt32) (marked : RuntimeShard)
      (hc : q.clients c = .entered) (hs : s = hashKeyToShard hash job.key)
      (hhash : keyHash = (hash job.key ^^^ (hash job.key >>> 32)).toUInt32)
      (hmark : (q.shards s).pendingTryMark job.key keyHash = some marked)
      (hroom : (q.shards s).lookups.length < kRuntimeQueueSlotsPerShard) :
      QueueStep q (.enqueueLookup c job nowMs)
        { (q.setShard s { marked with
            lookups := (q.shards s).lookups ++ [{ job with keyHash, enqueuedAtMs := nowMs }]
            state := (q.shards s).queuedState }).leaveShard c s (q.shards s) with
          acceptedLookups :=
            q.acceptedLookups ++ [(s, { job with keyHash, enqueuedAtMs := nowMs })] }
  | rejectStore (c job nowMs) (hc : q.clients c = .entered) :
      QueueStep q (.enqueueStore c job nowMs) (q.setClient c .outside)
  | acceptStore (c job nowMs) (s : ShardId) (slot : BodySlot) (hc : q.clients c = .entered)
      (hs : s = hashKeyToShard hash job.key)
      (hfree : (q.shards s).bodyPool.occupied slot = false)
      (hroom : (q.shards s).stores.length < kRuntimeQueueSlotsPerShard)
      (hsize : job.entry.body.length ≤ cfg.asyncStoreMaxBodySize) :
      QueueStep q (.enqueueStore c job nowMs)
        { (q.setShard s { q.shards s with
            stores := (q.shards s).stores ++ [{ job with
              entry := { job.entry with body := [] }
              bodySlot := some slot
              bodyLen := job.entry.body.length
              enqueuedAtMs := nowMs }]
            bodyPool :=
              { bodies := Function.update (q.shards s).bodyPool.bodies slot job.entry.body
                bodySizes :=
                  Function.update (q.shards s).bodyPool.bodySizes slot job.entry.body.length
                occupied := Function.update (q.shards s).bodyPool.occupied slot true }
            state := (q.shards s).queuedState }).leaveShard c s (q.shards s) with
          storeBodyPoolBytesInUse := q.storeBodyPoolBytesInUse + job.entry.body.length
          accepted := q.accepted ++ [(s, .put job.entry)] }
  | rejectInvalidate (c key nowMs) (hc : q.clients c = .entered) :
      QueueStep q (.enqueueInvalidate c key nowMs) (q.setClient c .outside)
  | acceptInvalidate (c key nowMs) (s : ShardId) (hc : q.clients c = .entered)
      (hs : s = hashKeyToShard hash key)
      (hroom : (q.shards s).invalidates.length < kRuntimeQueueSlotsPerShard) :
      QueueStep q (.enqueueInvalidate c key nowMs)
        { (q.setShard s { q.shards s with
            invalidates := (q.shards s).invalidates ++
              [{ key := key.take (kCacheKeyMaxLen - 1), enqueuedAtMs := nowMs }]
            state := (q.shards s).queuedState }).leaveShard c s (q.shards s) with
          accepted := q.accepted ++ [(s, .delete (key.take (kCacheKeyMaxLen - 1)))] }
  | clientPush (c) (s : ShardId) (hc : q.clients c = .pushing s) :
      QueueStep q (.clientPush c) ((q.readyTryPush (shardOwner cfg s) s).setClient c .outside)
  | shutdown : QueueStep q .shutdown { q with running := false }
  | takeReady (w) (s : ShardId) (rest : List ShardId) (hw : q.workers w = .waiting)
      (hready : q.workerReady w = s :: rest) :
      QueueStep q (.work w)
        ({ q with workerReady := Function.update q.workerReady w rest }.setWorker w (.marking s))
  | beginDrain (w) (hw : q.workers w = .waiting) (hready : q.workerReady w = [])
      (hrun : q.running = false) : QueueStep q (.work w) (q.setWorker w (.owned 0 false))
  | mark (w) (s : ShardId) (hw : q.workers w = .marking s) (howner : shardOwner cfg s = w)
      (hstate : (q.shards s).state = .queued) :
      QueueStep q (.work w)
        ((q.setShard s { q.shards s with state := .processing }).setWorker w
          (.draining { shard := s, round := none } .lookup 0))
  | markFailed (w) (s : ShardId) (hw : q.workers w = .marking s)
      (hnot : ¬ (shardOwner cfg s = w ∧ (q.shards s).state = .queued)) :
      QueueStep q (.work w) (q.setWorker w .waiting)
  | laneDone (w task lane executed) (hw : q.workers w = .draining task lane executed)
      (hdone : WorkerQueue.laneQuota cfg lane ≤ executed ∨
        (q.shards task.shard).laneEmpty lane = true) :
      QueueStep q (.work w) (q.setWorker w (WorkerQueue.afterLane task lane))
  | popLookup (w task executed job rest) (hw : q.workers w = .draining task .lookup executed)
      (hpop : (q.shards task.shard).lookups = job :: rest) :
      QueueStep q (.work w)
        ((q.setShard task.shard { q.shards task.shard with lookups := rest }).setWorker w
          (.lookingUp task.popped executed job))
  | popInvalidate (w task executed job rest)
      (hw : q.workers w = .draining task .invalidate executed)
      (hpop : (q.shards task.shard).invalidates = job :: rest) :
      QueueStep q (.work w)
        ((q.setShard task.shard { q.shards task.shard with invalidates := rest }).setWorker w
          (.invalidating task.popped executed job))
  | popStore (w task executed job rest) (hw : q.workers w = .draining task .store executed)
      (hpop : (q.shards task.shard).stores = job :: rest) :
      QueueStep q (.work w)
        ((q.setShard task.shard { q.shards task.shard with stores := rest }).setWorker w
          (.storing task.popped executed job))
  | lookedUp (w task executed job) (hw : q.workers w = .lookingUp task executed job) :
      QueueStep q (.work w)
        { q.setWorker w (.clearing task executed job) with
          executedLookups := q.executedLookups ++ [(task.shard, job)] }
  | clearMark (w task executed job) (hw : q.workers w = .clearing task executed job) :
      QueueStep q (.work w)
        ((q.setShard task.shard
          ((q.shards task.shard).pendingClear job.key job.keyHash)).setWorker w
            (.draining task .lookup (executed + 1)))
  | invalidate (w task executed job) (hw : q.workers w = .invalidating task executed job) :
      QueueStep q (.work w)
        { q.setWorker w (.draining task .invalidate (executed + 1)) with
          l2 := l2Remove q.l2 job.key
          executed := q.executed ++ [(task.shard, .delete job.key)] }
  | store (w task executed job) (hw : q.workers w = .storing task executed job) :
      QueueStep q (.work w)
        { q.setWorker w (.freeing task executed job) with
          l2 := l2Put q.l2 (q.storedEntry task.shard job)
          executed := q.executed ++ [(task.shard, .put (q.storedEntry task.shard job))] }
  | free (w task executed job) (hw : q.workers w = .freeing task executed job) :
      QueueStep q (.work w)
        ((q.freeBodySlot task.shard job).setWorker w (.draining task .store (executed + 1)))
  | requeue (w task) (hw : q.workers w = .requeueing task)
      (hwork : (q.shards task.shard).hasPendingWork = true) :
      QueueStep q (.work w)
        ((q.setShard task.shard { q.shards task.shard with state := .queued }).setWorker w
          (if q.running then .pushing task else WorkerQueue.afterTask task))
  | clear (w task) (hw : q.workers w = .requeueing task)
      (hwork : (q.shards task.shard).hasPendingWork = false) :
      QueueStep q (.work w)
        ((q.setShard task.shard { q.shards task.shard with state := .idle }).setWorker w
          (WorkerQueue.afterTask task))
  | push (w task) (hw : q.workers w = .pushing task) :
      QueueStep q (.work w)
        ((q.readyTryPush (shardOwner cfg task.shard) task.shard).setWorker w
          (WorkerQueue.afterTask task))
  | ownedNext (w index worked) (s : ShardId) (hw : q.workers w = .owned index worked)
      (hs : (workerOwnedShards cfg w)[index]? = some s) :
      QueueStep q (.work w)
        (q.setWorker w (.draining { shard := s, round := some (index, worked) } .lookup 0))
  | ownedEnd (w index worked) (hw : q.workers w = .owned index worked)
      (hs : (workerOwnedShards cfg w)[index]? = none) :
      QueueStep q (.work w) (q.setWorker w (if worked then .owned 0 false else .stopped))

variable {cfg hash} {q : Queue cfg} {w : Fin cfg.workerCount} {c : Nat} {task : Task}
  {q' : Queue cfg}

open WorkerQueue

section

variable (hc : q.clients c = .entered) (nowMs : UInt64)

include hc

theorem tryEnqueueLookup_step (job : L2LookupJob) :
    QueueStep cfg hash q (.enqueueLookup c job nowMs) (q.tryEnqueueLookup hash c job nowMs) := by
  unfold tryEnqueueLookup
  cases hmark : (q.shards (hashKeyToShard hash job.key)).pendingTryMark job.key
      (hash job.key ^^^ (hash job.key >>> 32)).toUInt32 with
  | none =>
    simp only [hmark]
    exact .rejectLookup c job nowMs hc
  | some marked =>
    simp only [hmark]
    by_cases hroom : kRuntimeQueueSlotsPerShard ≤
        (q.shards (hashKeyToShard hash job.key)).lookups.length
    · rw [if_pos hroom]
      exact .fullLookup c job nowMs marked hc hmark
    · rw [if_neg hroom]
      exact .acceptLookup c job nowMs _ _ marked hc rfl rfl hmark (Nat.lt_of_not_le hroom)

theorem tryEnqueueStore_step (job : L2StoreJob) :
    QueueStep cfg hash q (.enqueueStore c job nowMs) (q.tryEnqueueStore hash c job nowMs) := by
  simp only [tryEnqueueStore]
  split
  · exact .rejectStore c job nowMs hc
  rename_i slot hslot
  have hfree := List.find?_some hslot
  split
  · exact .rejectStore c job nowMs hc
  · split
    · exact .rejectStore c job nowMs hc
    · exact .acceptStore c job nowMs _ slot hc rfl (by simpa using hfree) (by omega) (by omega)

theorem enqueueL2Invalidate_step (key : Text) :
    QueueStep cfg hash q (.enqueueInvalidate c key nowMs)
      (q.enqueueL2Invalidate hash c key nowMs) := by
  simp only [enqueueL2Invalidate]
  split
  · exact .rejectInvalidate c key nowMs hc
  · split
    · exact .rejectInvalidate c key nowMs hc
    · exact .acceptInvalidate c key nowMs _ hc rfl (by omega)

end

theorem popLane_step {lane : Lane} {executed : Nat}
    (hw : q.workers w = .draining task lane executed) :
    QueueStep cfg hash q (.work w) (q.popLane w task lane executed) := by
  simp only [popLane]
  split
  · split <;> split
    case h_1 hnone | h_1 hnone | h_1 hnone =>
      exact .laneDone w task _ executed hw (.inr (by simp [RuntimeShard.laneEmpty, hnone]))
    next hpop => exact .popLookup w task executed _ _ hw hpop
    next hpop => exact .popInvalidate w task executed _ _ hw hpop
    next hpop => exact .popStore w task executed _ _ hw hpop
  next hquota => exact .laneDone w task lane executed hw (.inl (by omega))

theorem requeueOrClear_step (hw : q.workers w = .requeueing task) :
    QueueStep cfg hash q (.work w) (q.requeueOrClear w task) := by
  simp only [requeueOrClear]
  split
  next hwork => exact .requeue w task hw hwork
  next hwork => exact .clear w task hw (by simpa using hwork)

theorem workerStep_step (h : q.workerStep w = some q') : QueueStep cfg hash q (.work w) q' := by
  simp only [workerStep] at h
  split at h <;> try cases h
  next hw =>
    split at h
    next hready => cases h; exact .takeReady w _ _ hw hready
    next hready =>
      split at h
      · cases h
      next hrun => cases h; exact .beginDrain w hw hready (by simpa using hrun)
  next hw =>
    split at h
    next hown => cases h; exact .mark w _ hw hown.1 hown.2
    next hown => cases h; exact .markFailed w _ hw hown
  next hw => exact popLane_step hw
  next hw => exact .lookedUp w _ _ _ hw
  next hw => exact .clearMark w _ _ _ hw
  next hw => exact .invalidate w _ _ _ hw
  next hw => exact .store w _ _ _ hw
  next hw => exact .free w _ _ _ hw
  next hw => exact requeueOrClear_step hw
  next hw => exact .push w _ hw
  next hw =>
    split at h
    next hs => cases h; exact .ownedNext w _ _ _ hw hs
    next hs => cases h; exact .ownedEnd w _ _ hw hs

theorem queueStep_cases {a} (h : queueStep cfg hash q a = some q') : QueueStep cfg hash q a q' := by
  cases a
  case work => exact workerStep_step h
  case shutdown => cases h; exact .shutdown
  -- a client makes no step unless it is where the action needs it
  all_goals simp only [queueStep] at h; split at h <;> try cases h
  next hc =>
    split at h
    next hrun => cases h; exact .enter _ hc hrun
    next => cases h
  next hc => exact tryEnqueueLookup_step hc _ _
  next hc => exact tryEnqueueStore_step hc _ _
  next hc => exact enqueueL2Invalidate_step hc _ _
  next hc => exact .clientPush _ _ hc

end Operations

end ByteTaper.Runtime
