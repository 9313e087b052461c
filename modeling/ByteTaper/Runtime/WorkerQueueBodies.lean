import ByteTaper.Runtime.WorkerQueueOrder
import Mathlib.Algebra.BigOperators.Fin
import Mathlib.Algebra.Order.BigOperators.Group.Finset

/-! # The bodies of store jobs

A store job that is accepted has its body copied into a slot of the pool of its shard, and gives the
slot back after it was executed. The slots of a pool are those of its jobs, so that the counter of the
bytes in use is the sum of the lengths of their bodies. -/

namespace ByteTaper.Runtime

open Cache List Function StoreBodyPool
open Transition (System)

variable {cfg : WorkerQueueSettings} {hash : Text → UInt64} {l2 : L2Store}

/-! ## The jobs of a shard -/

namespace ShardWrites

/-- The store job that the owner of the shard is executing. -/
def heldJobs (v : ShardWrites) : List L2StoreJob :=
  match v.work with
  | .storing job | .freeing job => [job]
  | _ => []

def jobs (v : ShardWrites) : List L2StoreJob := v.heldJobs ++ v.stores

theorem slots_eq (v : ShardWrites) : v.slots = v.jobs.filterMap (·.bodySlot) := by
  unfold slots jobs heldSlots heldJobs
  cases v.work with
  | storing job | freeing job => cases hslot : job.bodySlot <;> simp [hslot]
  | none | invalidating => simp

/-- The body of the job lies in a slot of its own, with its length. -/
def BodyIn (pool : StoreBodyPool) (job : L2StoreJob) (slot : BodySlot) : Prop :=
  job.bodySlot = some slot ∧ (pool.bodies slot).length = job.bodyLen ∧
    pool.bodySizes slot = job.bodyLen

structure BodiesInv (v : ShardWrites) : Prop where
  slots : v.SlotInv
  bodies : ∀ job ∈ v.jobs, ∃ slot, BodyIn v.bodyPool job slot
  free : ∀ slot, v.bodyPool.occupied slot = false → v.bodyPool.bodySizes slot = 0

variable {v : ShardWrites} {v' : ShardWrites}

theorem BodiesInv.of_eq (h : v.BodiesInv) (hslots : v'.SlotInv) (hjobs : v'.jobs = v.jobs)
    (hpool : v'.bodyPool = v.bodyPool) : v'.BodiesInv :=
  ⟨hslots, by rw [hjobs, hpool]; exact h.bodies, by rw [hpool]; exact h.free⟩

theorem BodiesInv.step {s : ShardId} {n : Nat} {a : QueueAction n} (h : v.BodiesInv)
    (hstep : v.Step hash s a v') : v'.BodiesInv := by
  have hslots := h.slots.step hstep
  cases hstep with
  | stay | acceptInvalidate => exact h.of_eq hslots rfl rfl
  | popInvalidate _ _ _ _ hwork | invalidate _ _ hwork | store _ _ hwork =>
    exact h.of_eq hslots (by simp [jobs, heldJobs, hwork]) rfl
  | popStore _ _ _ hpop hwork =>
    exact h.of_eq hslots (by simp [jobs, heldJobs, hwork, hpop]) rfl
  | acceptStore _ job nowMs slot _ hfree =>
    have hjobs : ∀ pool accepted, jobs { v with
        stores := v.stores ++ [job.queued slot nowMs], bodyPool := pool, accepted := accepted } =
          v.jobs ++ [job.queued slot nowMs] := by
      intro pool accepted
      simp [jobs, heldJobs]
    refine ⟨hslots, fun job' hjob' => ?_, fun slot' hslot' => ?_⟩
    · rw [hjobs, mem_append, mem_singleton] at hjob'
      rcases hjob' with hold | rfl
      · -- the slot is free, so that no other job has its body there
        obtain ⟨slot', hbody⟩ := h.bodies job' hold
        have hne : slot' ≠ slot := by
          rintro rfl
          have hmem := mem_filterMap.mpr ⟨job', hold, hbody.1⟩
          rw [(h.slots.occupied slot').mpr (slots_eq v ▸ hmem)] at hfree
          cases hfree
        exact ⟨slot', by simpa [BodyIn, fill, hne] using hbody⟩
      · exact ⟨slot, by simp [BodyIn, fill, L2StoreJob.queued]⟩
    · by_cases hx : slot' = slot
      · simp [fill, hx] at hslot'
      · simp only [fill, update_of_ne hx] at hslot' ⊢
        exact h.free slot' hslot'
  | free w job hwork =>
    have hjobs : v.jobs = job :: v.stores := by simp [jobs, heldJobs, hwork]
    obtain ⟨slot, hbody⟩ := h.bodies job (by simp [hjobs])
    have hnodup := h.slots.nodup
    rw [slots_eq, hjobs, filterMap_cons_some hbody.1, nodup_cons] at hnodup
    refine ⟨hslots, fun job' hjob' => ?_, fun slot' hslot' => ?_⟩
    · have hold : job' ∈ v.stores := by simpa [jobs, heldJobs] using hjob'
      obtain ⟨slot', hbody'⟩ := h.bodies job' (by simp [hjobs, hold])
      have hne : slot' ≠ slot := by
        rintro rfl
        exact hnodup.1 (mem_filterMap.mpr ⟨job', hold, hbody'.1⟩)
      exact ⟨slot', by simpa [BodyIn, StoreBodyPool.release, hbody.1, hne] using hbody'⟩
    · by_cases hx : slot' = slot
      · simp [StoreBodyPool.release, hbody.1, hx]
      · simp only [StoreBodyPool.release, hbody.1, update_of_ne hx] at hslot' ⊢
        exact h.free slot' hslot'

end ShardWrites

/-! ## The pools -/

def pools (q : Queue cfg) (s : ShardId) : StoreBodyPool := (q.shards s).bodyPool

/-- The bytes in the slots of a pool. -/
def StoreBodyPool.bytes (pool : StoreBodyPool) : Nat := ∑ slot, pool.bodySizes slot

/-- What a step does to the pools and to the counter of the bytes in use. -/
inductive PoolsChange (q q' : Queue cfg) : Prop where
  | stay (hpools : pools q' = pools q)
      (hbytes : q'.storeBodyPoolBytesInUse = q.storeBodyPoolBytesInUse)
  | fill (s : ShardId) (slot : BodySlot) (body : Text)
      (hfree : (pools q s).occupied slot = false) (hsize : body.length ≤ cfg.asyncStoreMaxBodySize)
      (hpools : pools q' = Function.update (pools q) s ((pools q s).fill slot body))
      (hbytes : q'.storeBodyPoolBytesInUse = q.storeBodyPoolBytesInUse + body.length)
  | release (s : ShardId) (job : L2StoreJob) (slot : BodySlot) (hslot : job.bodySlot = some slot)
      (hpools : pools q' = Function.update (pools q) s ((pools q s).release job))
      (hbytes : q'.storeBodyPoolBytesInUse =
        q.storeBodyPoolBytesInUse - (pools q s).bodySizes slot)

theorem pools_setShard (q : Queue cfg) (s : ShardId) (shard : RuntimeShard) :
    pools (q.setShard s shard) = update (pools q) s shard.bodyPool := by
  funext t
  by_cases ht : t = s
  · subst ht
    simp [pools]
  · simp [pools, ht]

variable {q : Queue cfg} {a : QueueAction cfg.workerCount}

/-- A shard is changed, but not its pool. -/
theorem pools_setShard_same {s : ShardId} {shard : RuntimeShard}
    (h : shard.bodyPool = (q.shards s).bodyPool) : pools (q.setShard s shard) = pools q := by
  rw [pools_setShard, h]
  exact update_eq_self s (pools q)

variable {q' : Queue cfg} {pool : StoreBodyPool} {slot : BodySlot}

theorem queueStep_pools (hstep : QueueStep cfg hash q a q') : PoolsChange q q' := by
  cases hstep with
  | fullLookup _ job _ marked _ hmark =>
    obtain ⟨_, _, hclear⟩ := pendingClear_eq marked job.key
      (hash job.key ^^^ (hash job.key >>> 32)).toUInt32
    obtain ⟨_, _, rfl⟩ := pendingTryMark_eq hmark
    rw [hclear]
    exact .stay (pools_setShard_same rfl) rfl
  | acceptLookup _ _ _ _ _ _ _ _ _ hmark =>
    obtain ⟨_, _, rfl⟩ := pendingTryMark_eq hmark
    exact .stay (pools_setShard_same rfl) rfl
  | acceptStore _ job _ s slot _ _ hfree _ hsize =>
    exact .fill s slot job.entry.body hfree hsize (pools_setShard q s _) rfl
  | clearMark _ task _ job =>
    obtain ⟨_, _, hclear⟩ := pendingClear_eq (q.shards task.shard) job.key job.keyHash
    rw [hclear]
    exact .stay (pools_setShard_same rfl) rfl
  | acceptInvalidate | mark | popLookup | popInvalidate | popStore | requeue | clear =>
    exact .stay (pools_setShard_same rfl) rfl
  | free _ task _ job =>
    unfold WorkerQueue.freeBodySlot
    cases hslot : job.bodySlot with
    | none => exact .stay rfl rfl
    | some slot =>
      refine .release task.shard job slot hslot ?_ rfl
      refine (pools_setShard q task.shard _).trans ?_
      simp [StoreBodyPool.release, hslot, pools]
  | enter | rejectLookup | rejectStore | rejectInvalidate | clientPush | shutdown | takeReady
  | beginDrain | markFailed | laneDone | lookedUp | invalidate | store | push | ownedNext
  | ownedEnd => exact .stay rfl rfl

/-- The counter is the sum over the pools, and every slot fits its buffer. -/
structure BytesInv (q : Queue cfg) : Prop where
  shards : ∀ s, (shardWrites q s).BodiesInv
  bytes : q.storeBodyPoolBytesInUse = ∑ s, (pools q s).bytes
  limit : ∀ s slot, (pools q s).bodySizes slot ≤ cfg.asyncStoreMaxBodySize

theorem StoreBodyPool.bytes_fill {body : Text} (h : pool.bodySizes slot = 0) :
    (pool.fill slot body).bytes = pool.bytes + body.length := by
  have hsplit := Finset.add_sum_erase Finset.univ pool.bodySizes (Finset.mem_univ slot)
  unfold bytes fill
  rw [Finset.sum_update_of_mem (Finset.mem_univ slot), ← hsplit, h, Finset.sdiff_singleton_eq_erase]
  omega

theorem StoreBodyPool.bytes_release {job : L2StoreJob} (h : job.bodySlot = some slot) :
    (pool.release job).bytes + pool.bodySizes slot = pool.bytes := by
  have hsplit := Finset.add_sum_erase Finset.univ pool.bodySizes (Finset.mem_univ slot)
  unfold bytes release
  simp only [h]
  rw [Finset.sum_update_of_mem (Finset.mem_univ slot), ← hsplit, Finset.sdiff_singleton_eq_erase]
  omega

/-- The sum over the pools when one of them is replaced. -/
theorem sum_bytes_update (f : ShardId → StoreBodyPool) (t : ShardId) (pool : StoreBodyPool) :
    ∑ s, (update f t pool s).bytes + (f t).bytes = ∑ s, (f s).bytes + pool.bytes := by
  have hrest : ∑ s ∈ Finset.univ.erase t, (update f t pool s).bytes =
      ∑ s ∈ Finset.univ.erase t, (f s).bytes :=
    Finset.sum_congr rfl fun s hs => by rw [update_of_ne (Finset.ne_of_mem_erase hs)]
  have hnew := Finset.add_sum_erase Finset.univ (fun s => (update f t pool s).bytes)
    (Finset.mem_univ t)
  have hold := Finset.add_sum_erase Finset.univ (fun s => (f s).bytes) (Finset.mem_univ t)
  simp only [update_self] at hnew
  omega

theorem BytesInv.step (h : BytesInv q) (hown : OwnsTask q) (hstep : QueueStep cfg hash q a q') :
    BytesInv q' := by
  refine ⟨fun s => (h.shards s).step (shardWrites_step hown hstep s), ?_, ?_⟩
  · cases queueStep_pools hstep with
    | stay hpools hbytes => rw [hpools, hbytes, h.bytes]
    | fill s slot body hfree _ hpools hbytes =>
      have hsum := sum_bytes_update (pools q) s ((pools q s).fill slot body)
      have hzero : (pools q s).bodySizes slot = 0 := (h.shards s).free slot hfree
      rw [bytes_fill hzero] at hsum
      rw [hpools, hbytes, h.bytes]
      omega
    | release s job slot hslot hpools hbytes =>
      have hsum := sum_bytes_update (pools q) s ((pools q s).release job)
      have hpool : ((pools q s).release job).bytes + (pools q s).bodySizes slot =
        (pools q s).bytes := bytes_release hslot
      rw [hpools, hbytes, h.bytes]
      omega
  · intro t slot'
    cases queueStep_pools hstep with
    | stay hpools =>
      rw [hpools]
      exact h.limit t slot'
    | fill s slot _ _ hsize hpools =>
      rw [hpools]
      by_cases ht : t = s
      · subst ht
        by_cases hslot : slot' = slot
        · simpa [fill, hslot] using hsize
        · simpa [fill, hslot] using h.limit t slot'
      · simpa [ht] using h.limit t slot'
    | release s _ slot hslot hpools =>
      rw [hpools]
      by_cases ht : t = s
      · subst ht
        by_cases hslot' : slot' = slot
        · simp [StoreBodyPool.release, hslot, hslot']
        · simpa [StoreBodyPool.release, hslot, hslot'] using h.limit t slot'
      · simpa [ht] using h.limit t slot'

theorem BytesInv.init : BytesInv (queueSystem cfg hash l2).init where
  shards s := ⟨WritesInv.init.slots s, nofun, fun _ _ => rfl⟩
  bytes := by
    simp [queueSystem, WorkerQueue.init, pools, RuntimeShard.init, StoreBodyPool.bytes]
  limit s slot := Nat.zero_le _

theorem bytesInv_reachable (h : (queueSystem cfg hash l2).Reachable q) : BytesInv q := by
  have hboth : WritesInv q ∧ BytesInv q := by
    refine h.invariant (P := fun q => WritesInv q ∧ BytesInv q) ⟨.init, .init⟩ ?_
    intro q a q' hq _ hstep
    have hcases := queueStep_cases hstep
    exact ⟨hq.1.step hcases, hq.2.step hq.1.owns hcases⟩
  exact hboth.2

/-! ## The jobs and the bytes -/

namespace ShardWrites

variable {v : ShardWrites}

/-- Every job has a slot, and no two have the same. -/
theorem BodiesInv.bodySlots (h : v.BodiesInv) : v.jobs.map (·.bodySlot) = v.slots.map some := by
  rw [slots_eq]
  have hsome : ∀ job ∈ v.jobs, ∃ slot, job.bodySlot = some slot :=
    fun job hjob => (h.bodies job hjob).imp fun _ hbody => hbody.1
  generalize v.jobs = jobs at hsome
  induction jobs with
  | nil => rfl
  | cons job _ ih =>
    obtain ⟨slot, hslot⟩ := hsome job (by simp)
    simp [hslot, ih fun job' hjob' => hsome job' (by simp [hjob'])]

/-- The bytes of the pool are those of the bodies. -/
theorem BodiesInv.bytes_eq (h : v.BodiesInv) : v.bodyPool.bytes = (v.jobs.map (·.bodyLen)).sum := by
  have hlens : v.jobs.map (·.bodyLen) = v.slots.map v.bodyPool.bodySizes := by
    rw [slots_eq]
    have hbodies := h.bodies
    generalize v.jobs = jobs at hbodies
    induction jobs with
    | nil => rfl
    | cons job _ ih =>
      obtain ⟨slot, hslot, -, hsize⟩ := hbodies job (by simp)
      simp [hslot, hsize, ih fun job' hjob' => hbodies job' (by simp [hjob'])]
  rw [hlens, ← sum_toFinset _ h.slots.nodup]
  refine (Finset.sum_subset (Finset.subset_univ _) fun slot _ hslot => ?_).symm
  rw [mem_toFinset, ← h.slots.occupied slot] at hslot
  exact h.free slot (by simpa using hslot)

end ShardWrites

/-- The slots in use are those of the store jobs that are queued or executing, one for each of them.
    The counter is the sum of the lengths of their bodies, and what is put into L2 is what was passed
    to the enqueue calls, in their order. -/
theorem storeBodies_accounted (cfg : WorkerQueueSettings) (hash : Text → UInt64) (l2 : L2Store)
    (q : Queue cfg) (h : (queueSystem cfg hash l2).Reachable q) :
    (∀ s, (∀ slot, (q.shards s).bodyPool.occupied slot = true ↔
        ∃ job ∈ (shardWrites q s).jobs, job.bodySlot = some slot) ∧
      ((shardWrites q s).jobs.map (·.bodySlot)).Nodup ∧
      ∀ job ∈ (shardWrites q s).jobs, job.bodySlot.isSome = true) ∧
    q.storeBodyPoolBytesInUse = ∑ s, ((shardWrites q s).jobs.map (·.bodyLen)).sum ∧
    q.storeBodyPoolBytesInUse ≤
      kRuntimeShardCount * (kRuntimeQueueSlotsPerShard * cfg.asyncStoreMaxBodySize) ∧
    ∀ s, (onShard s q.executed).filter L2Op.isPut <+: (onShard s q.accepted).filter L2Op.isPut := by
  have hinv := bytesInv_reachable h
  refine ⟨fun s => ⟨fun slot => ?_, ?_, fun job hjob => ?_⟩, ?_, ?_, fun s => ?_⟩
  · rw [← mem_filterMap, ← ShardWrites.slots_eq]
    exact (hinv.shards s).slots.occupied slot
  · rw [(hinv.shards s).bodySlots]
    exact (hinv.shards s).slots.nodup.map (Option.some_injective _)
  · obtain ⟨slot, hslot, -⟩ := (hinv.shards s).bodies job hjob
    simp [hslot]
  · rw [hinv.bytes]
    exact Finset.sum_congr rfl fun s _ => (hinv.shards s).bytes_eq
  · rw [hinv.bytes]
    have hpool : ∀ s, (pools q s).bytes ≤
        kRuntimeQueueSlotsPerShard * cfg.asyncStoreMaxBodySize := by
      intro s
      refine (Finset.sum_le_card_nsmul _ _ _ fun slot _ => hinv.limit s slot).trans ?_
      simp
    refine (Finset.sum_le_card_nsmul _ _ _ fun s _ => hpool s).trans ?_
    simp
  · obtain ⟨i, hi⟩ := keepsOrder_lane h true s
    have hput : L2Op.ofLane true = L2Op.isPut := by
      funext op
      simp [L2Op.ofLane]
    rw [← hput]
    exact hi.executed_initial

theorem storeBodies_accounted_queued : ∃ q : Queue oneWorker,
    (shardWrites q (hashKeyToShard (fun _ => 0) sampleStore.key)).jobs.length = 1 ∧
      q.storeBodyPoolBytesInUse = ∑ s, ((shardWrites q s).jobs.map (·.bodyLen)).sum := by
  have hex : ∃ q, (queueSystem oneWorker (fun _ => 0) fun _ => none).run
      [.enter 0, .enqueueStore 0 sampleStore 0] = some q ∧
        (shardWrites q (hashKeyToShard (fun _ => 0) sampleStore.key)).jobs.length = 1 :=
    System.exists_run (by decide +kernel)
  obtain ⟨q, hrun, hjobs⟩ := hex
  have hreach : (queueSystem oneWorker (fun _ => 0) fun _ => none).Reachable q :=
    .of_run (fun _ _ _ => trivial) hrun
  exact ⟨q, hjobs, (storeBodies_accounted oneWorker _ _ q hreach).2.1⟩

end ByteTaper.Runtime
