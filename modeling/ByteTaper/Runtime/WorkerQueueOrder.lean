import ByteTaper.Library.Lanes
import ByteTaper.Runtime.WorkerQueueWrites

/-! # The order of L2 writes

The writes of a shard are a server with two lanes, one for invalidations and one for stores. So
the stores of a shard reach RocksDB in the order they were accepted, and so do its invalidations;
between the two lanes there is no order. The content of the L2 store at a key is the one of the
accepted writes in their order as long as no two writes of the key wait in different lanes. -/

namespace ByteTaper.Runtime

open Cache List ShardWrites StoreBodyPool L2Op
open Transition (System)

variable {cfg : WorkerQueueSettings} {hash : Text → UInt64} {l2 : L2Store}

/-! ## A shard is a server with two lanes -/

/-- The write that the action enqueues, and the lane it is for. -/
def writeOf {n : Nat} : QueueAction n → Option (Lane × L2Op)
  | .enqueueStore _ job _ => some (.store, .put job.entry)
  | .enqueueInvalidate _ key _ => some (.invalidate, .delete (key.take (kCacheKeyMaxLen - 1)))
  | _ => none

/-- The key by which the action chooses its shard. -/
def writeKey {n : Nat} : QueueAction n → Option Text
  | .enqueueStore _ job _ => some job.key
  | .enqueueInvalidate _ key _ => some key
  | _ => none

namespace ShardWrites

def current (v : ShardWrites) : Option L2Op :=
  match v.work with
  | .invalidating job => some (.delete job.key)
  | .storing job => some (.put (v.bodyPool.entryOf job))
  | _ => none

def lanes (v : ShardWrites) : Lanes Lane L2Op where
  accepted := v.accepted
  executed := v.executed
  current := v.current
  lane
    | .lookup => []
    | .invalidate => v.invalidates.map fun job => .delete job.key
    | .store => v.stores.map fun job => .put (v.bodyPool.entryOf job)

end ShardWrites

@[simp] theorem entryOf_queued (pool : StoreBodyPool) (job : L2StoreJob) (slot : BodySlot)
    (nowMs : UInt64) :
    (pool.fill slot job.entry.body).entryOf (job.queued slot nowMs) = job.entry := by
  simp [entryOf, fill, L2StoreJob.queued]

@[simp] theorem entryOf_release (pool : StoreBodyPool) (freed job : L2StoreJob) :
    (pool.release freed).entryOf job = pool.entryOf job := by
  unfold entryOf StoreBodyPool.release
  cases freed.bodySlot <;> rfl

variable {s : ShardId} {q : Queue cfg} {key : Text}

theorem ShardWrites.lanes_step {n : Nat} {a : QueueAction n} {v v' : ShardWrites}
    (hslots : v.SlotInv) (hstep : v.Step hash s a v') :
    v'.lanes = v.lanes ∨
      v.lanes.Step (writeOf a) v'.lanes ∧ ∀ key ∈ writeKey a, s = hashKeyToShard hash key := by
  cases hstep with
  | stay => exact .inl rfl
  | acceptStore _ job _ slot hs hfree =>
    have hother : ∀ other : L2StoreJob, (∀ x ∈ other.bodySlot, x ∈ v.slots) →
        (v.bodyPool.fill slot job.entry.body).entryOf other = v.bodyPool.entryOf other := by
      intro other hmem
      unfold entryOf
      cases hslot : other.bodySlot with
      | none => rfl
      | some taken =>
        have hne : taken ≠ slot := by
          rintro rfl
          rw [(hslots.occupied taken).mpr (hmem taken hslot)] at hfree
          cases hfree
        simp [fill, Function.update_of_ne hne]
    have hqueued : v.stores.map (fun other => L2Op.put
        ((v.bodyPool.fill slot job.entry.body).entryOf other)) =
          v.stores.map (fun other => .put (v.bodyPool.entryOf other)) := by
      refine map_congr_left fun other hmem => ?_
      rw [hother other fun x hx => ?_]
      exact mem_append_right _ (mem_filterMap.mpr ⟨other, hmem, hx⟩)
    have hcur : ∀ stores accepted, current { v with
        stores := stores
        bodyPool := v.bodyPool.fill slot job.entry.body
        accepted := accepted } = v.current := by
      intro stores accepted
      cases hwork : v.work with
      | storing job' =>
        simp only [current, hwork]
        rw [hother job' fun x hx => ?_]
        exact mem_append_left _ (by simpa [heldSlots, hwork] using hx)
      | none | invalidating | freeing => simp [current, hwork]
    refine .inr ⟨(Lanes.Step.accept Lane.store (L2Op.put job.entry)).of_eq ?_,
      by simpa [writeKey] using hs⟩
    refine Lanes.ext rfl rfl (hcur _ _) (funext fun i => ?_)
    cases i <;> simp [lanes, hqueued]
  | acceptInvalidate _ key _ hs =>
    refine .inr ⟨(Lanes.Step.accept Lane.invalidate
      (delete (key.take (kCacheKeyMaxLen - 1)))).of_eq ?_, by simpa [writeKey] using hs⟩
    refine Lanes.ext rfl rfl rfl (funext fun i => ?_)
    cases i <;> simp [lanes]
  | popInvalidate w job rest hpop hwork =>
    refine .inr ⟨(Lanes.Step.take Lane.invalidate (delete job.key)
      (rest.map fun job => .delete job.key) ?_ ?_).of_eq ?_, by simp [writeKey]⟩
    · simp [lanes, hpop]
    · simp [lanes, current, hwork]
    · refine Lanes.ext rfl rfl rfl (funext fun i => ?_)
      cases i <;> simp [lanes]
  | popStore w job rest hpop hwork =>
    refine .inr ⟨(Lanes.Step.take Lane.store (L2Op.put (v.bodyPool.entryOf job))
      (rest.map fun job => .put (v.bodyPool.entryOf job)) ?_ ?_).of_eq ?_, by simp [writeKey]⟩
    · simp [lanes, hpop]
    · simp [lanes, current, hwork]
    · refine Lanes.ext rfl rfl rfl (funext fun i => ?_)
      cases i <;> simp [lanes]
  | invalidate w job hwork =>
    refine .inr ⟨(Lanes.Step.execute (delete job.key) ?_).of_eq rfl, by simp [writeKey]⟩
    simp [lanes, current, hwork]
  | store w job hwork =>
    refine .inr ⟨(Lanes.Step.execute (L2Op.put (v.bodyPool.entryOf job)) ?_).of_eq rfl,
      by simp [writeKey]⟩
    simp [lanes, current, hwork]
  | free _ _ hwork =>
    left
    simp [lanes, current, hwork]

/-! ## Classes of writes that keep their order -/

/-- The writes of the class `p` on the shard have kept their order. -/
def KeepsOrder (p : L2Op → Bool) (s : ShardId) (q : Queue cfg) : Prop :=
  ∃ i, (shardWrites q s).lanes.Ordered p i

theorem KeepsOrder.init (p : L2Op → Bool) (s : ShardId) :
    KeepsOrder p s (queueSystem cfg hash l2).init := by
  refine ⟨.store, fun j _ => ?_, ?_⟩
  · cases j <;> rfl
  · rfl

theorem KeepsOrder.step {p : L2Op → Bool} {q' : Queue cfg} {a}
    (h : KeepsOrder p s q) (hinv : WritesInv q)
    (hfits : (∀ key ∈ writeKey a, s = hashKeyToShard hash key) →
      (shardWrites q s).lanes.Admits p (writeOf a)) (hstep : QueueStep cfg hash q a q') :
    KeepsOrder p s q' := by
  obtain ⟨i, hi⟩ := h
  rcases lanes_step (hinv.slots s) (shardWrites_step hinv.owns hstep s) with
    heq | ⟨hlane, hkey⟩
  · exact ⟨i, heq ▸ hi⟩
  · exact hi.step (hfits hkey) hlane

def L2Op.isPut : L2Op → Bool
  | .put _ => true
  | .delete _ => false

/-- The writes of one lane: the stores if `put`, else the invalidations. -/
def L2Op.ofLane (put : Bool) (op : L2Op) : Bool := op.isPut = put

theorem keepsOrder_lane (h : (queueSystem cfg hash l2).Reachable q) (put : Bool) (s : ShardId) :
    KeepsOrder (ofLane put) s q := by
  have hboth : WritesInv q ∧ KeepsOrder (ofLane put) s q := by
    refine h.invariant (P := fun q => WritesInv q ∧ _)
      ⟨.init, .init _ s⟩ (fun q a q' hq _ hstep => ?_)
    have hcases := queueStep_cases hstep
    refine ⟨hq.1.step hcases, hq.2.step hq.1 (fun _ => ?_) hcases⟩
    -- a lane holds no write of the other kind
    cases a with
    | enqueueStore | enqueueInvalidate =>
      intro hp j hj
      cases j <;> simp_all [lanes, ofLane, isPut]
    | _ => trivial
  exact hboth.2

/-! ## The content of the L2 store -/

/-- The store after the writes of a log. -/
def applyLog (l2 : L2Store) (log : List (ShardId × L2Op)) : L2Store :=
  log.foldl (fun store entry => entry.2.apply store) l2

theorem l2_eq_applyLog (h : (queueSystem cfg hash l2).Reachable q) :
    q.l2 = applyLog l2 q.executed := by
  refine h.invariant (P := fun q => q.l2 = applyLog l2 q.executed) rfl fun q a q' hq _ hstep => ?_
  cases queueStep_cases hstep with
  | invalidate | store =>
    simp [applyLog, hq, apply]
  | free _ task _ job =>
    obtain ⟨bytes, hfree⟩ := freeBodySlot_eq q task.shard job
    rw [hfree]
    exact hq
  | _ => exact hq

theorem apply_of_ne {op : L2Op} (h : op.key ≠ key) (store : L2Store) :
    op.apply store key = store key := by
  cases op with
  | put =>
    simp only [apply, l2Put]
    split
    · rfl
    · exact if_neg fun heq => h heq.symm
  | delete => exact if_neg fun heq => h heq.symm

theorem apply_congr (op : L2Op) {store store' : L2Store} (h : store key = store' key) :
    op.apply store key = op.apply store' key := by
  cases op with
  | put =>
    simp only [apply, l2Put]
    split
    · exact h
    · simp [h]
  | delete => simp [apply, l2Remove, h]

/-- The content at a key depends on the writes of the key only. -/
theorem applyLog_filter (key : Text) (log : List (ShardId × L2Op)) {store store' : L2Store}
    (h : store key = store' key) :
    applyLog store log key = ((log.map (·.2)).filter (·.key = key)).foldl apply store' key := by
  induction log generalizing store store' with
  | nil => exact h
  | cons entry _ ih =>
    by_cases hk : entry.2.key = key
    · simpa [applyLog, hk] using ih (apply_congr entry.2 h)
    · simpa [applyLog, hk] using ih ((apply_of_ne hk store).trans h)

/-! ## Keys whose writes do not wait in both lanes -/

/-- A write is accepted only while no write of its key waits in the other lane; a store job is for
    its own entry, and the key of an invalidation fits the buffer of its job. -/
def KeysApart (hash : Text → UInt64) (q : Queue cfg) : QueueAction cfg.workerCount → Prop
  | .enqueueStore _ job _ =>
    job.entry.key = job.key ∧
      ∀ waiting ∈ (q.shards (hashKeyToShard hash job.key)).invalidates, waiting.key ≠ job.key
  | .enqueueInvalidate _ key _ =>
    key.length < kCacheKeyMaxLen ∧
      ∀ waiting ∈ (q.shards (hashKeyToShard hash key)).stores, waiting.entry.key ≠ key
  | _ => True

instance (q : Queue cfg) (a : QueueAction cfg.workerCount) : Decidable (KeysApart hash q a) :=
  match a with
  | .enqueueStore _ _ _ => inferInstanceAs (Decidable (_ ∧ _))
  | .enqueueInvalidate _ _ _ => inferInstanceAs (Decidable (_ ∧ _))
  | .enter _ | .enqueueLookup _ _ _ | .clientPush _ | .work _ | .shutdown => isTrue trivial

theorem take_key (h : key.length < kCacheKeyMaxLen) : key.take (kCacheKeyMaxLen - 1) = key :=
  take_of_length_le (by omega)

@[simp] theorem entryOf_key (pool : StoreBodyPool) (job : L2StoreJob) :
    (pool.entryOf job).key = job.entry.key := by
  unfold entryOf
  cases job.bodySlot <;> rfl

theorem keepsOrder_key (h : (queueSystem cfg hash l2).ReachableUnder (KeysApart hash) q)
    (key : Text) (s : ShardId) : KeepsOrder (fun op => op.key = key) s q := by
  have hboth : WritesInv q ∧ KeepsOrder (fun op => op.key = key) s q := by
    refine h.invariant (P := fun q => WritesInv q ∧ _) ⟨.init, .init _ s⟩
      fun q a q' hq hapart hstep => ?_
    have hcases := queueStep_cases hstep
    refine ⟨hq.1.step hcases, hq.2.step hq.1 (fun hkey => ?_) hcases⟩
    cases a with
    | enqueueStore _ job =>
      obtain rfl := hkey job.key rfl
      intro hp j hj
      have hp : job.entry.key = key := of_decide_eq_true hp
      cases j with
      | lookup => rfl
      | store => exact absurd rfl hj
      | invalidate =>
        simp only [lanes, filter_eq_nil_iff, mem_map]
        rintro _ ⟨waiting, hmem, rfl⟩
        simpa [L2Op.key, ← hp, hapart.1] using hapart.2 waiting hmem
    | enqueueInvalidate _ invalidated =>
      obtain rfl := hkey invalidated rfl
      intro hp j hj
      have hp : invalidated = key := by simpa [L2Op.key, take_key hapart.1] using hp
      cases j with
      | lookup => rfl
      | invalidate => exact absurd rfl hj
      | store =>
        simp only [lanes, filter_eq_nil_iff, mem_map]
        rintro _ ⟨waiting, hmem, rfl⟩
        simpa [L2Op.key, ← hp] using hapart.2 waiting hmem
    | _ => trivial
  exact hboth.2

/-! ## Writes go to the shard of their key -/

def Routed (hash : Text → UInt64) (log : List (ShardId × L2Op)) : Prop :=
  ∀ entry ∈ log, entry.1 = hashKeyToShard hash entry.2.key

theorem mem_onShard {α : Type} {op : α} {log} : op ∈ onShard s log ↔ (s, op) ∈ log := by
  simp [onShard]

theorem Routed.filter_key {log} (h : Routed hash log) (key : Text) :
    (log.map (·.2)).filter (·.key = key) =
      (onShard (hashKeyToShard hash key) log).filter (·.key = key) := by
  induction log with
  | nil => rfl
  | cons entry _ ih =>
    have ih := ih fun e he => h e (mem_cons_of_mem _ he)
    have hent := h entry mem_cons_self
    by_cases hk : entry.2.key = key
    · simpa [onShard, hk, hk ▸ hent] using ih
    · by_cases hs : entry.1 = hashKeyToShard hash key
      · simpa [onShard, hk, hs] using ih
      · simpa [onShard, hk, hs] using ih

theorem routed_accepted (h : (queueSystem cfg hash l2).ReachableUnder (KeysApart hash) q) :
    Routed hash q.accepted := by
  refine h.invariant (P := fun q => Routed hash q.accepted) ?_ fun q a q' hq hapart hstep => ?_
  · intro entry hmem
    cases hmem
  have hsnoc : ∀ entry, entry.1 = hashKeyToShard hash entry.2.key →
      Routed hash (q.accepted ++ [entry]) := by
    intro entry hent
    exact forall_mem_append.mpr ⟨hq, forall_mem_singleton.mpr hent⟩
  cases queueStep_cases hstep with
  | acceptStore _ _ _ _ _ _ hs => exact hsnoc _ (by simpa [L2Op.key, hapart.1] using hs)
  | acceptInvalidate _ key _ _ _ hs =>
    exact hsnoc _ (by simpa [L2Op.key, take_key hapart.1] using hs)
  | free _ task _ job =>
    obtain ⟨bytes, hfree⟩ := freeBodySlot_eq q task.shard job
    rw [hfree]
    exact hq
  | _ => exact hq

/-- What has been executed was accepted, for the same shard. -/
theorem mem_accepted_of_executed (h : (queueSystem cfg hash l2).Reachable q)
    {entry : ShardId × L2Op} (hmem : entry ∈ q.executed) : entry ∈ q.accepted := by
  obtain ⟨i, hi⟩ := keepsOrder_lane h entry.2.isPut entry.1
  have hexec : entry.2 ∈ (onShard entry.1 q.executed).filter (ofLane entry.2.isPut) :=
    mem_filter.mpr ⟨mem_onShard.mpr hmem, by simp [ofLane]⟩
  exact mem_onShard.mp (mem_filter.mp (hi.executed_initial.subset hexec)).1

/-! ## Once all jobs have run -/

def WorkerPc.executing : WorkerPc → Bool
  | .invalidating _ _ _ | .storing _ _ _ => true
  | _ => false

theorem work_of_not_executing {pc : WorkerPc} (h : pc.executing = false) (s : ShardId) :
    pc.work s = .none ∨ ∃ job, pc.work s = .freeing job := by
  cases pc with
  | freeing task _ job =>
    by_cases hs : task.shard = s
    · exact .inr ⟨job, if_pos hs⟩
    · exact .inl (if_neg hs)
  | invalidating | storing => cases h
  | _ => exact .inl rfl

/-- No write waits and no worker is executing one. -/
def AllRun (q : Queue cfg) : Prop :=
  (∀ s, (q.shards s).stores = [] ∧ (q.shards s).invalidates = []) ∧
    ∀ w, (q.workers w).executing = false

instance (q : Queue cfg) : Decidable (AllRun q) := inferInstanceAs (Decidable (_ ∧ _))

theorem AllRun.executed_eq (h : AllRun q) {p : L2Op → Bool} (horder : KeepsOrder p s q) :
    (onShard s q.executed).filter p = (onShard s q.accepted).filter p := by
  obtain ⟨i, hi⟩ := horder
  refine hi.done ?_ ?_
  · rcases work_of_not_executing (h.2 (shardOwner cfg s)) s with hwork | ⟨job, hwork⟩ <;>
      simp [lanes, current, shardWrites, hwork]
  · cases i <;> simp [lanes, shardWrites, h.1 s]

/-- The stores of a shard are executed in the order of their acceptance, and so are its
    invalidations. If no write is accepted while one of its key waits in the other lane, then, once
    all have run, every key holds what the accepted writes leave when they are applied in order. -/
theorem l2Writes_ordered (cfg : WorkerQueueSettings) (hash : Text → UInt64) (l2 : L2Store) :
    (∀ q, (queueSystem cfg hash l2).Reachable q →
      q.l2 = applyLog l2 q.executed ∧
      ∀ put s, (onShard s q.executed).filter (L2Op.ofLane put) <+:
          (onShard s q.accepted).filter (L2Op.ofLane put) ∧
        (AllRun q → (onShard s q.executed).filter (L2Op.ofLane put) =
          (onShard s q.accepted).filter (L2Op.ofLane put))) ∧
    ∀ q, (queueSystem cfg hash l2).ReachableUnder (KeysApart hash) q → AllRun q →
      ∀ key, q.l2 key = applyLog l2 q.accepted key := by
  refine ⟨fun q h => ⟨l2_eq_applyLog h, fun put s => ?_⟩, fun q h hrun key => ?_⟩
  · have horder := keepsOrder_lane h put s
    exact ⟨horder.choose_spec.executed_initial, fun hrun => hrun.executed_eq horder⟩
  · have hacc := routed_accepted h
    have hexec : Routed hash q.executed := fun entry hmem =>
      hacc entry (mem_accepted_of_executed h.reachable hmem)
    rw [l2_eq_applyLog h.reachable, applyLog_filter key _ rfl, applyLog_filter key _ rfl,
      hexec.filter_key, hacc.filter_key, hrun.executed_eq (keepsOrder_key h key _)]

/-! ## Runs -/

def sampleEntry : CacheEntry where
  key := ['k']
  statusCode := 200
  body := ['v']

def sampleStore : L2StoreJob where
  key := ['k']
  entry := sampleEntry

/-- A store and an invalidation of its key are accepted before the worker comes to the shard. -/
def overtakingRun : List (QueueAction 1) :=
  [.enter 0, .enqueueStore 0 sampleStore 0, .clientPush 0, .enter 0, .enqueueInvalidate 0 ['k'] 0] ++
    List.replicate 11 (.work 0)

/-- The invalidation is executed first, and the store accepted before it survives. -/
theorem l2Writes_overtake : ∃ q,
    (queueSystem oneWorker (fun _ => 0) fun _ => none).run overtakingRun = some q ∧
      AllRun q ∧ q.accepted.map (·.2) = [.put sampleEntry, .delete ['k']] ∧
      q.l2 ['k'] = some sampleEntry ∧ applyLog (fun _ => none) q.accepted ['k'] = none :=
  System.exists_run (by decide +kernel)

/-- The invalidation is accepted after the store has run. -/
def orderlyRun : List (QueueAction oneWorker.workerCount) :=
  [.enter 0, .enqueueStore 0 sampleStore 0, .clientPush 0] ++
    List.replicate 9 (.work ⟨0, by decide⟩) ++
      [.enter 0, .enqueueInvalidate 0 ['k'] 0, .clientPush 0] ++
        List.replicate 8 (.work ⟨0, by decide⟩)

theorem l2Writes_ordered_orderlyRun : ∃ q : Queue oneWorker,
    q.accepted.map (·.2) = [.put sampleEntry, .delete ['k']] ∧ AllRun q ∧
      q.l2 ['k'] = applyLog (fun _ => none) q.accepted ['k'] := by
  have hex : ∃ q, (queueSystem oneWorker (fun _ => 0) fun _ => none).ReachableUnder
      (KeysApart fun _ => 0) q ∧
        q.accepted.map (·.2) = [.put sampleEntry, .delete ['k']] ∧ AllRun q :=
    System.exists_guardedRun orderlyRun (by decide +kernel)
  obtain ⟨q, hq, hacc, hrun⟩ := hex
  exact ⟨q, hacc, hrun, (l2Writes_ordered _ _ _).2 q hq hrun _⟩

end ByteTaper.Runtime
