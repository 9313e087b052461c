import ByteTaper.Runtime.WorkerQueue

/-! # The writes of one shard

A shard is drained by its owner only, so the writes of a shard can be followed on their own: its two
write lanes, its body pool, and what the owner is doing for it. `shardWrites_step` says what a step
of the whole queue is for one shard; the slots of the body pool are then shown to belong to the
queued and executing store jobs. -/

namespace ByteTaper.Runtime

open Cache Function List WorkerPc WorkerQueue StoreBodyPool

/-! ## The owner of a shard -/

/-- The task a worker is in the middle of. -/
def WorkerPc.task? : WorkerPc → Option Task
  | .draining task _ _ => some task
  | .lookingUp task _ _ => some task
  | .clearing task _ _ => some task
  | .invalidating task _ _ => some task
  | .storing task _ _ => some task
  | .freeing task _ _ => some task
  | .requeueing task => some task
  | .pushing task => some task
  | _ => none

variable {cfg : WorkerQueueSettings} {hash : Text → UInt64} {l2 : L2Store}

/-- A worker drains its own shards only. -/
def OwnsTask (q : Queue cfg) : Prop :=
  ∀ w task, (q.workers w).task? = some task → shardOwner cfg task.shard = w

@[simp] theorem task?_afterTask (task : Task) : (afterTask task).task? = none := by
  unfold afterTask
  split <;> rfl

@[simp] theorem task?_afterLane (task : Task) (lane : Lane) :
    (afterLane task lane).task? = some task := by
  cases lane <;> rfl

@[simp] theorem popped_shard (task : Task) : task.popped.shard = task.shard := rfl

variable {w : Fin cfg.workerCount} {s : ShardId} {q q' : Queue cfg} {pc : WorkerPc}

/-- The pool with the slot of a store job given back. -/
def StoreBodyPool.release (pool : StoreBodyPool) (job : L2StoreJob) : StoreBodyPool :=
  match job.bodySlot with
  | none => pool
  | some slot =>
    { pool with
      bodySizes := Function.update pool.bodySizes slot 0
      occupied := Function.update pool.occupied slot false }

theorem freeBodySlot_eq (q : Queue cfg) (s : ShardId) (job : L2StoreJob) :
    ∃ bytes, q.freeBodySlot s job =
      { q.setShard s { q.shards s with bodyPool := (q.shards s).bodyPool.release job } with
        storeBodyPoolBytesInUse := bytes } := by
  unfold freeBodySlot StoreBodyPool.release
  cases job.bodySlot with
  | none => exact ⟨_, by rw [setShard, update_eq_self]⟩
  | some => exact ⟨_, rfl⟩

/-- To keep `OwnsTask` when worker `w` moves to `pc`, look at `pc` only. -/
theorem OwnsTask.setWorker (h : OwnsTask q) (hwks : q'.workers = update q.workers w pc)
    (hpc : ∀ task, pc.task? = some task → shardOwner cfg task.shard = w) : OwnsTask q' := by
  intro v task hv
  rw [hwks] at hv
  by_cases hvw : v = w
  · subst hvw
    exact hpc task (by simpa using hv)
  · exact h v task (by simpa [update_of_ne hvw] using hv)

/-- A worker that goes on with its task keeps `OwnsTask`. -/
theorem OwnsTask.goOn {task : Task} (h : OwnsTask q) (hw : (q.workers w).task? = some task)
    (hwks : q'.workers = update q.workers w pc)
    (hpc : ∀ task', pc.task? = some task' → task'.shard = task.shard) : OwnsTask q' :=
  h.setWorker hwks fun task' ht => by rw [hpc task' ht]; exact h w task hw

theorem OwnsTask.step {a} (h : OwnsTask q) (hstep : QueueStep cfg hash q a q') : OwnsTask q' := by
  cases hstep with
  | enter | rejectLookup | fullLookup | acceptLookup | rejectStore | acceptStore
  | rejectInvalidate | acceptInvalidate | clientPush | shutdown => exact h
  | takeReady | beginDrain | markFailed =>
    exact h.setWorker rfl (by simp [task?])
  | mark _ _ _ hown =>
    exact h.setWorker rfl (by simpa [task?] using hown)
  | ownedNext _ _ _ _ _ hs =>
    have hmem := mem_of_getElem? hs
    exact h.setWorker rfl (by simpa [task?, workerOwnedShards] using hmem)
  | ownedEnd _ _ worked =>
    exact h.setWorker rfl (by cases worked <;> simp [task?])
  | laneDone _ _ _ _ hw | clear _ _ hw | push _ _ hw =>
    exact h.goOn (by rw [hw]; rfl) rfl (by simp)
  | requeue _ _ hw =>
    refine h.goOn (by rw [hw]; rfl) rfl ?_
    cases q.running
    · simp
    · simp [task?]
  | popLookup w task executed job rest hw | popInvalidate w task executed job rest hw
  | popStore w task executed job rest hw =>
    exact h.goOn (by rw [hw]; rfl) rfl (by simp [task?])
  | lookedUp w task executed job hw | clearMark w task executed job hw
  | invalidate w task executed job hw | store w task executed job hw =>
    exact h.goOn (by rw [hw]; rfl) rfl (by simp [task?])
  | free _ task _ job hw =>
    obtain ⟨bytes, hfree⟩ := freeBodySlot_eq q task.shard job
    rw [hfree]
    exact h.goOn (by rw [hw]; rfl) rfl (by simp [task?])

/-! ## One shard -/

/-- What the owner of a shard is writing for it. -/
inductive ShardWork where
  | none
  | invalidating (job : L2InvalidateJob)
  | storing (job : L2StoreJob)
  | freeing (job : L2StoreJob)

def WorkerPc.work (s : ShardId) : WorkerPc → ShardWork
  | .invalidating task _ job => if task.shard = s then .invalidating job else .none
  | .storing task _ job => if task.shard = s then .storing job else .none
  | .freeing task _ job => if task.shard = s then .freeing job else .none
  | _ => .none

/-- The part of a shard, its owner and the logs that its writes use. -/
@[ext] structure ShardWrites where
  invalidates : List L2InvalidateJob
  stores : List L2StoreJob
  bodyPool : StoreBodyPool
  work : ShardWork
  accepted : List L2Op
  executed : List L2Op

/-- The jobs of a log that belong to a shard. -/
def onShard {α : Type} (s : ShardId) (log : List (ShardId × α)) : List α :=
  log.filterMap fun entry => if entry.1 = s then some entry.2 else none

@[simp] theorem onShard_append_self {α : Type} (s : ShardId) (log : List (ShardId × α)) (op : α) :
    onShard s (log ++ [(s, op)]) = onShard s log ++ [op] := by
  simp [onShard]

theorem onShard_append_of_ne {α : Type} {t : ShardId} (h : t ≠ s) (log : List (ShardId × α))
    (op : α) : onShard s (log ++ [(t, op)]) = onShard s log := by
  simp [onShard, h]

def shardWrites (q : Queue cfg) (s : ShardId) : ShardWrites where
  invalidates := (q.shards s).invalidates
  stores := (q.shards s).stores
  bodyPool := (q.shards s).bodyPool
  work := (q.workers (shardOwner cfg s)).work s
  accepted := onShard s q.accepted
  executed := onShard s q.executed

/-- The store job as it is queued with its body in `slot`. -/
def L2StoreJob.queued (job : L2StoreJob) (slot : BodySlot) (nowMs : UInt64) : L2StoreJob :=
  { job with
    entry := { job.entry with body := [] }
    bodySlot := some slot
    bodyLen := job.entry.body.length
    enqueuedAtMs := nowMs }

/-- The pool with a body copied into `slot`. -/
def StoreBodyPool.fill (pool : StoreBodyPool) (slot : BodySlot) (body : Text) : StoreBodyPool where
  bodies := Function.update pool.bodies slot body
  bodySizes := Function.update pool.bodySizes slot body.length
  occupied := Function.update pool.occupied slot true

/-- The entry a store job puts, from the pool of its shard. -/
def StoreBodyPool.entryOf (pool : StoreBodyPool) (job : L2StoreJob) : CacheEntry :=
  match job.bodySlot with
  | none => job.entry
  | some slot => { job.entry with body := (pool.bodies slot).take job.bodyLen }

/-- What a step can do to the writes of a shard. -/
inductive ShardWrites.Step (hash : Text → UInt64) (s : ShardId) {n : Nat} (v : ShardWrites) :
    QueueAction n → ShardWrites → Prop where
  | stay (a) : Step hash s v a v
  | acceptStore (c job nowMs) (slot : BodySlot) (hs : s = hashKeyToShard hash job.key)
      (hfree : v.bodyPool.occupied slot = false)
      (hroom : v.stores.length < kRuntimeQueueSlotsPerShard) :
      Step hash s v (.enqueueStore c job nowMs)
        { v with
          stores := v.stores ++ [job.queued slot nowMs]
          bodyPool := v.bodyPool.fill slot job.entry.body
          accepted := v.accepted ++ [.put job.entry] }
  | acceptInvalidate (c key nowMs) (hs : s = hashKeyToShard hash key)
      (hroom : v.invalidates.length < kRuntimeQueueSlotsPerShard) :
      Step hash s v (.enqueueInvalidate c key nowMs)
        { v with
          invalidates := v.invalidates ++
            [{ key := key.take (kCacheKeyMaxLen - 1), enqueuedAtMs := nowMs }]
          accepted := v.accepted ++ [.delete (key.take (kCacheKeyMaxLen - 1))] }
  | popInvalidate (w job rest) (hpop : v.invalidates = job :: rest) (hwork : v.work = .none) :
      Step hash s v (.work w) { v with invalidates := rest, work := .invalidating job }
  | popStore (w job rest) (hpop : v.stores = job :: rest) (hwork : v.work = .none) :
      Step hash s v (.work w) { v with stores := rest, work := .storing job }
  | invalidate (w job) (hwork : v.work = .invalidating job) :
      Step hash s v (.work w)
        { v with work := .none, executed := v.executed ++ [.delete job.key] }
  | store (w job) (hwork : v.work = .storing job) :
      Step hash s v (.work w)
        { v with
          work := .freeing job
          executed := v.executed ++ [.put (v.bodyPool.entryOf job)] }
  | free (w job) (hwork : v.work = .freeing job) :
      Step hash s v (.work w) { v with work := .none, bodyPool := v.bodyPool.release job }

/-! ## What a step is for one shard -/

/-- The parts of a shard that its writes use are the same. -/
def SameWrites (new old : RuntimeShard) : Prop :=
  new.invalidates = old.invalidates ∧ new.stores = old.stores ∧ new.bodyPool = old.bodyPool

theorem SameWrites.update {shards} {t : ShardId} {shard : RuntimeShard}
    (h : SameWrites shard (shards t)) (s : ShardId) :
    SameWrites (update shards t shard s) (shards s) := by
  by_cases hs : s = t
  · rw [hs, update_self]
    exact h
  · rw [update_of_ne hs]
    exact ⟨rfl, rfl, rfl⟩

theorem pendingClear_eq (shard : RuntimeShard) (key : Text) (hash : UInt32) :
    ∃ pending pendingCount, shard.pendingClear key hash = { shard with pending, pendingCount } := by
  unfold RuntimeShard.pendingClear
  split <;> exact ⟨_, _, rfl⟩

theorem pendingTryMark_eq {shard marked : RuntimeShard} {key : Text} {hash : UInt32}
    (h : shard.pendingTryMark key hash = some marked) :
    ∃ pending pendingCount, marked = { shard with pending, pendingCount } := by
  unfold RuntimeShard.pendingTryMark at h
  split at h
  · cases h
  · split at h
    · cases h
    · exact ⟨_, _, (Option.some.inj h).symm⟩

/-- A step that leaves the writes of `s` and what its owner writes for it. -/
theorem shardWrites_eq (hshard : SameWrites (q'.shards s) (q.shards s))
    (hwork : (q'.workers (shardOwner cfg s)).work s = (q.workers (shardOwner cfg s)).work s)
    (hacc : onShard s q'.accepted = onShard s q.accepted)
    (hexec : onShard s q'.executed = onShard s q.executed) :
    shardWrites q' s = shardWrites q s :=
  ShardWrites.ext hshard.1 hshard.2.1 hshard.2.2 hwork hacc hexec

/-- A worker that does the same for `s` before and after it moves. -/
theorem work_update {workers : Fin cfg.workerCount → WorkerPc}
    (h : pc.work s = (workers w).work s) :
    (update workers w pc (shardOwner cfg s)).work s = (workers (shardOwner cfg s)).work s := by
  by_cases hv : shardOwner cfg s = w
  · rw [hv, update_self, h]
  · rw [update_of_ne hv]

@[simp] theorem work_afterTask (s : ShardId) (task : Task) :
    (afterTask task).work s = .none := by
  unfold afterTask
  split <;> rfl

@[simp] theorem work_afterLane (s : ShardId) (task : Task) (lane : Lane) :
    (afterLane task lane).work s = .none := by
  cases lane <;> rfl

/-- A worker that moves between places where it writes nothing. -/
theorem shardWrites_move (hshard : SameWrites (q'.shards s) (q.shards s))
    (hwks : q'.workers = update q.workers w pc) (hold : (q.workers w).work s = .none)
    (hnew : pc.work s = .none) (hacc : q'.accepted = q.accepted)
    (hexec : q'.executed = q.executed) : shardWrites q' s = shardWrites q s :=
  shardWrites_eq hshard (by rw [hwks, work_update (by rw [hold, hnew])]) (by rw [hacc])
    (by rw [hexec])

theorem storedEntry_eq (q : Queue cfg) (s : ShardId) (job : L2StoreJob) :
    q.storedEntry s job = (q.shards s).bodyPool.entryOf job := by
  unfold storedEntry entryOf
  cases job.bodySlot <;> rfl

theorem ShardWrites.Step.of_eq {n : Nat} {a : QueueAction n} {v v' v'' : ShardWrites}
    (h : v.Step hash s a v') (heq : v'' = v') : v.Step hash s a v'' :=
  heq ▸ h

theorem shardWrites_step {a : QueueAction cfg.workerCount} (hown : OwnsTask q)
    (hstep : QueueStep cfg hash q a q') (s : ShardId) :
    (shardWrites q s).Step hash s a (shardWrites q' s) := by
  have stay : shardWrites q' s = shardWrites q s →
      (shardWrites q s).Step hash s a (shardWrites q' s) := fun h => h ▸ .stay a
  cases hstep with
  | enter | rejectLookup | rejectStore | rejectInvalidate | clientPush | shutdown =>
    exact .stay _
  -- a lookup changes the marks of a shard, none of its writes
  | fullLookup c job nowMs marked hc hmark =>
    obtain ⟨_, _, hclear⟩ := pendingClear_eq marked job.key
      (hash job.key ^^^ (hash job.key >>> 32)).toUInt32
    obtain ⟨_, _, rfl⟩ := pendingTryMark_eq hmark
    refine stay (shardWrites_eq (SameWrites.update ?_ s) rfl rfl rfl)
    rw [hclear]
    exact ⟨rfl, rfl, rfl⟩
  | acceptLookup c job nowMs t keyHash marked hc hs hhash hmark =>
    obtain ⟨_, _, rfl⟩ := pendingTryMark_eq hmark
    refine stay (shardWrites_eq (SameWrites.update ?_ s) rfl rfl rfl)
    exact ⟨rfl, rfl, rfl⟩
  | acceptStore c job nowMs t slot hc hs hfree hroom =>
    by_cases hst : s = t
    · subst hst
      refine (ShardWrites.Step.acceptStore c job nowMs slot hs hfree hroom).of_eq ?_
      simp [shardWrites, L2StoreJob.queued, fill]
    · refine stay ?_
      simp [shardWrites, hst, onShard_append_of_ne (Ne.symm hst)]
  | acceptInvalidate c key nowMs t hc hs hroom =>
    by_cases hst : s = t
    · subst hst
      refine (ShardWrites.Step.acceptInvalidate c key nowMs hs hroom).of_eq ?_
      simp [shardWrites]
    · refine stay ?_
      simp [shardWrites, hst, onShard_append_of_ne (Ne.symm hst)]
  | takeReady w t rest hw | beginDrain w hw | markFailed w t hw
  | ownedNext w index worked t hw | lookedUp w task executed job hw =>
    exact stay (shardWrites_move ⟨rfl, rfl, rfl⟩ rfl (by rw [hw]; rfl) rfl rfl rfl)
  | push w task hw | laneDone w task lane executed hw =>
    exact stay (shardWrites_move ⟨rfl, rfl, rfl⟩ rfl (by rw [hw]; rfl) (by simp) rfl rfl)
  | ownedEnd w index worked hw =>
    exact stay (shardWrites_move ⟨rfl, rfl, rfl⟩ rfl (by rw [hw]; rfl) (by cases worked <;> rfl)
      rfl rfl)
  | mark w t hw | popLookup w task executed job rest hw =>
    refine stay (shardWrites_move (SameWrites.update ?_ s) rfl (by rw [hw]; rfl) rfl rfl rfl)
    exact ⟨rfl, rfl, rfl⟩
  | clearMark w task executed job hw =>
    obtain ⟨_, _, hclear⟩ := pendingClear_eq (q.shards task.shard) job.key job.keyHash
    refine stay (shardWrites_move (SameWrites.update ?_ s) rfl (by rw [hw]; rfl) rfl rfl rfl)
    rw [hclear]
    exact ⟨rfl, rfl, rfl⟩
  | requeue w task hw =>
    refine stay (shardWrites_move (SameWrites.update ?_ s) rfl (by rw [hw]; rfl) ?_ rfl rfl)
    · exact ⟨rfl, rfl, rfl⟩
    · cases q.running
      · simp
      · rfl
  | clear w task hw =>
    refine stay (shardWrites_move (SameWrites.update ?_ s) rfl (by rw [hw]; rfl) (by simp) rfl rfl)
    exact ⟨rfl, rfl, rfl⟩
  -- what the worker is writing is written for `s` only if `s` is the shard of its task, which it owns
  | popInvalidate w task executed job rest hw hpop =>
    obtain rfl := hown w task (by rw [hw]; rfl)
    by_cases hst : task.shard = s
    · subst hst
      refine (ShardWrites.Step.popInvalidate _ job rest hpop ?_).of_eq ?_ <;>
        simp [shardWrites, hw, work]
    · refine stay (shardWrites_move ?_ rfl (by rw [hw]; rfl) (by simp [work, hst]) rfl rfl)
      simp [SameWrites, Ne.symm hst]
  | popStore w task executed job rest hw hpop =>
    obtain rfl := hown w task (by rw [hw]; rfl)
    by_cases hst : task.shard = s
    · subst hst
      refine (ShardWrites.Step.popStore _ job rest hpop ?_).of_eq ?_ <;>
        simp [shardWrites, hw, work]
    · refine stay (shardWrites_move ?_ rfl (by rw [hw]; rfl) (by simp [work, hst]) rfl rfl)
      simp [SameWrites, Ne.symm hst]
  | invalidate w task executed job hw =>
    obtain rfl := hown w task (by rw [hw]; rfl)
    by_cases hst : task.shard = s
    · subst hst
      refine (ShardWrites.Step.invalidate _ job ?_).of_eq ?_ <;>
        simp [shardWrites, hw, work]
    · refine stay (shardWrites_eq ⟨rfl, rfl, rfl⟩ (work_update ?_) rfl (onShard_append_of_ne hst _ _))
      simp [work, hw, hst]
  | store w task executed job hw =>
    obtain rfl := hown w task (by rw [hw]; rfl)
    by_cases hst : task.shard = s
    · subst hst
      refine (ShardWrites.Step.store _ job ?_).of_eq ?_ <;>
        simp [shardWrites, hw, work, storedEntry_eq]
    · refine stay (shardWrites_eq ⟨rfl, rfl, rfl⟩ (work_update ?_) rfl (onShard_append_of_ne hst _ _))
      simp [work, hw, hst]
  | free w task executed job hw =>
    obtain rfl := hown w task (by rw [hw]; rfl)
    obtain ⟨bytes, hfree⟩ := freeBodySlot_eq q task.shard job
    rw [hfree] at stay ⊢
    by_cases hst : task.shard = s
    · subst hst
      refine (ShardWrites.Step.free _ job ?_).of_eq ?_ <;>
        simp [shardWrites, hw, work]
    · refine stay (shardWrites_move ?_ rfl (by simp [hw, work, hst]) rfl rfl rfl)
      simp [SameWrites, Ne.symm hst]

/-! ## Body slots -/

namespace ShardWrites

/-- The slot of the store job that the owner executes or has executed. -/
def heldSlots (v : ShardWrites) : List BodySlot :=
  match v.work with
  | .storing job | .freeing job => job.bodySlot.toList
  | _ => []

/-- The slots of the executing and the queued store jobs. -/
def slots (v : ShardWrites) : List BodySlot :=
  v.heldSlots ++ v.stores.filterMap (·.bodySlot)

/-- The occupied slots are those of the executing and queued store jobs, one slot each. -/
structure SlotInv (v : ShardWrites) : Prop where
  nodup : v.slots.Nodup
  occupied : ∀ slot, v.bodyPool.occupied slot = true ↔ slot ∈ v.slots

theorem SlotInv.of_eq {v v' : ShardWrites} (h : v.SlotInv) (hslots : v'.slots = v.slots)
    (hpool : v'.bodyPool = v.bodyPool) : v'.SlotInv :=
  ⟨hslots ▸ h.nodup, fun x => by rw [hslots, hpool, h.occupied x]⟩

theorem SlotInv.step {n : Nat} {a : QueueAction n} {v v' : ShardWrites} (h : v.SlotInv)
    (hstep : v.Step hash s a v') : v'.SlotInv := by
  cases hstep with
  | stay | acceptInvalidate => exact ⟨h.nodup, h.occupied⟩
  | acceptStore _ job nowMs slot _ hfree =>
    have hnew : slot ∉ v.slots := by
      intro hmem
      rw [(h.occupied slot).mpr hmem] at hfree
      cases hfree
    have hslots : ∀ pool accepted, slots { v with
        stores := v.stores ++ [job.queued slot nowMs], bodyPool := pool, accepted := accepted } =
          v.slots ++ [slot] := by
      intro pool accepted
      simp [slots, heldSlots, L2StoreJob.queued]
    refine ⟨?_, fun x => ?_⟩
    · rw [hslots]
      exact nodup_append.mpr ⟨h.nodup, nodup_singleton _, by
        intro x hx y hy hxy
        rw [mem_singleton.mp hy] at hxy
        exact hnew (hxy ▸ hx)⟩
    · rw [hslots]
      by_cases hx : x = slot
      · simp [fill, hx]
      · simp [fill, hx, h.occupied x]
  | popInvalidate _ _ _ _ hwork | invalidate _ _ hwork | store _ _ hwork =>
    exact h.of_eq (by simp [slots, heldSlots, hwork]) rfl
  | popStore _ job _ hpop hwork =>
    -- the slot moves from the head of the queue to the worker
    refine h.of_eq ?_ rfl
    cases hslot : job.bodySlot <;> simp [slots, heldSlots, hpop, hwork, hslot]
  | free w job hwork =>
    cases hslot : job.bodySlot with
    | none =>
      exact h.of_eq (by simp [slots, heldSlots, hwork, hslot])
        (by simp [StoreBodyPool.release, hslot])
    | some slot =>
      have hslots : v.slots = slot :: v.stores.filterMap (·.bodySlot) := by
        simp [slots, heldSlots, hwork, hslot]
      have hnodup := h.nodup
      rw [hslots, nodup_cons] at hnodup
      refine ⟨hnodup.2, fun x => ?_⟩
      have hocc := h.occupied x
      rw [hslots, mem_cons] at hocc
      change (v.bodyPool.release job).occupied x ↔ x ∈ v.stores.filterMap (·.bodySlot)
      by_cases hx : x = slot
      · simpa [StoreBodyPool.release, hslot, hx] using hnodup.1
      · simpa [StoreBodyPool.release, hslot, hx] using hocc

end ShardWrites

/-- What holds of every reachable queue about its shards and their owners. -/
structure WritesInv (q : Queue cfg) : Prop where
  owns : OwnsTask q
  slots : ∀ s, (shardWrites q s).SlotInv

theorem WritesInv.step {a} (h : WritesInv q) (hstep : QueueStep cfg hash q a q') : WritesInv q' :=
  ⟨h.owns.step hstep, fun s => (h.slots s).step (shardWrites_step h.owns hstep s)⟩

theorem WritesInv.init : WritesInv (queueSystem cfg hash l2).init where
  owns := by
    intro w task hw
    cases hw
  slots := by
    intro s
    refine ⟨nodup_nil, fun slot => ?_⟩
    simp [shardWrites, queueSystem, WorkerQueue.init, RuntimeShard.init, ShardWrites.slots,
      ShardWrites.heldSlots, work]

theorem writesInv_reachable (h : (queueSystem cfg hash l2).Reachable q) : WritesInv q :=
  h.invariant .init fun _ _ _ hq _ hstep => hq.step (queueStep_cases hstep)

end ByteTaper.Runtime
