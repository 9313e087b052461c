import ByteTaper.Library.OpenAddressing
import ByteTaper.Runtime.WorkerQueueWrites

/-! # The lookups of one shard

The counterpart of the writes: the lookup lane of a shard, its pending marks, and the lookup that its
owner is executing. A key is marked from the acceptance of a lookup until the lookup has been executed,
so that no two lookups of the shard are for the same key. -/

namespace ByteTaper.Runtime

open Cache List Function OpenAddressing WorkerPc RuntimeShard WorkerQueue
open Transition (System)

variable {cfg : WorkerQueueSettings} {hash : Text → UInt64} {l2 : L2Store}

/-! ## Pending marks -/

abbrev PendingMarks := Fin kRuntimePendingSlotsPerShard → Option (Text × UInt32)

/-- The marks without the first one for a key. -/
def clearMark (pending : PendingMarks) (key : Text) (hash : UInt32) : PendingMarks :=
  match (List.finRange kRuntimePendingSlotsPerShard).find? fun i =>
      pending i = some (key, hash) with
  | none => pending
  | some i => Function.update pending i none

theorem pendingClear_marks (shard : RuntimeShard) (key : Text) (hash : UInt32) :
    (shard.pendingClear key hash).pending = clearMark shard.pending key hash ∧
      (shard.pendingClear key hash).lookups = shard.lookups := by
  unfold pendingClear clearMark
  cases (List.finRange kRuntimePendingSlotsPerShard).find? fun i =>
    shard.pending i = some (key, hash) <;> exact ⟨rfl, rfl⟩

variable {shard : RuntimeShard} {key : Text} {q q' : Queue cfg} {s : ShardId}
  {w : Fin cfg.workerCount}

theorem pendingTryMark_marks {marked : RuntimeShard} {hash : UInt32}
    (hkey : key.length < kCacheKeyMaxLen) (h : shard.pendingTryMark key hash = some marked) :
    (∀ j, shard.pending j ≠ some (key, hash)) ∧ ∃ i, shard.pending i = none ∧ marked = { shard with
        pending := update shard.pending i (some (key, hash))
        pendingCount := shard.pendingCount + 1 } := by
  have htake : key.take (kCacheKeyMaxLen - 1) = key := take_of_length_le (by omega)
  unfold pendingTryMark at h
  split at h
  · cases h
  rename_i hnew
  split at h
  · cases h
  next i hfree =>
    cases h
    refine ⟨fun j hj => hnew ⟨j, hj⟩, i, ?_, by rw [htake]⟩
    simpa using find?_some hfree

/-- Each slot holds a mark of its own. -/
def Distinct (pending : PendingMarks) : Prop :=
  ∀ i j mark, pending i = some mark → pending j = some mark → i = j

theorem clearMark_eq {pending : PendingMarks} {hash : UInt32}
    {i} (hi : pending i = some (key, hash))
    (honly : ∀ j, pending j = some (key, hash) → j = i) :
    clearMark pending key hash = update pending i none := by
  unfold clearMark
  split
  next hnone => exact absurd hi (by simpa using find?_eq_none.mp hnone i (mem_finRange i))
  next j hj => rw [honly j (by simpa using find?_some hj)]

/-! ## One shard -/

inductive LookupWork where
  | none
  | looking (job : L2LookupJob)
  /-- The lookup has been executed, and its mark is not cleared yet. -/
  | clearing (job : L2LookupJob)

def WorkerPc.lookupWork (s : ShardId) : WorkerPc → LookupWork
  | .lookingUp task _ job => if task.shard = s then .looking job else .none
  | .clearing task _ job => if task.shard = s then .clearing job else .none
  | _ => .none

/-- The part of a shard, its owner and the logs that its lookups use. -/
@[ext] structure ShardLookups where
  pending : PendingMarks
  lookups : List L2LookupJob
  work : LookupWork
  accepted : List L2LookupJob
  executed : List L2LookupJob

def shardLookups (q : Queue cfg) (s : ShardId) : ShardLookups where
  pending := (q.shards s).pending
  lookups := (q.shards s).lookups
  work := (q.workers (shardOwner cfg s)).lookupWork s
  accepted := onShard s q.acceptedLookups
  executed := onShard s q.executedLookups

def L2LookupJob.mark (job : L2LookupJob) : Text × UInt32 := (job.key, job.keyHash)

/-- What a step can do to the lookups of a shard. -/
inductive ShardLookups.Step (v : ShardLookups) : ShardLookups → Prop where
  | stay : Step v v
  | accept (job : L2LookupJob) (i) (hnew : ∀ j, v.pending j ≠ some job.mark)
      (hfree : v.pending i = none) :
      Step v { v with
        pending := Function.update v.pending i (some job.mark)
        lookups := v.lookups ++ [job]
        accepted := v.accepted ++ [job] }
  | take (job rest) (hpop : v.lookups = job :: rest) (hwork : v.work = .none) :
      Step v { v with lookups := rest, work := .looking job }
  | execute (job) (hwork : v.work = .looking job) :
      Step v { v with work := .clearing job, executed := v.executed ++ [job] }
  | clear (job) (hwork : v.work = .clearing job) :
      Step v { v with work := .none, pending := clearMark v.pending job.key job.keyHash }

namespace ShardLookups

/-- The lookup that the owner of the shard has popped and not yet executed. -/
def looking (v : ShardLookups) : List L2LookupJob :=
  match v.work with
  | .looking job => [job]
  | _ => []

/-- The lookups that hold a mark. -/
def jobs (v : ShardLookups) : List L2LookupJob :=
  match v.work with
  | .looking job | .clearing job => job :: v.lookups
  | .none => v.lookups

/-- The marks are those of the lookups, and every accepted lookup is executed once or waits. -/
structure MarksInv (v : ShardLookups) : Prop where
  distinct : Distinct v.pending
  nodup : (v.jobs.map L2LookupJob.mark).Nodup
  marks : ∀ mark, (∃ i, v.pending i = some mark) ↔ mark ∈ v.jobs.map L2LookupJob.mark
  log : v.accepted = v.executed ++ v.looking ++ v.lookups

variable {v v' : ShardLookups}

section

variable (h : v.MarksInv) (hlog : v'.accepted = v'.executed ++ v'.looking ++ v'.lookups)

include h hlog

theorem MarksInv.of_eq (hjobs : v'.jobs = v.jobs) (hpend : v'.pending = v.pending) :
    v'.MarksInv where
  distinct := hpend ▸ h.distinct
  nodup := hjobs ▸ h.nodup
  marks := by
    rw [hjobs, hpend]
    exact h.marks
  log := hlog

/-- A new mark in a free slot. -/
theorem MarksInv.accept {job : L2LookupJob} {i}
    (hnew : ∀ j, v.pending j ≠ some job.mark) (hfree : v.pending i = none)
    (hjobs : v'.jobs = v.jobs ++ [job])
    (hpend : v'.pending = update v.pending i (some job.mark)) : v'.MarksInv := by
  have hslot : ∀ j mark, v'.pending j = some mark →
      (j = i ∧ mark = job.mark) ∨ (j ≠ i ∧ v.pending j = some mark) := by
    intro j mark hj
    rw [hpend] at hj
    by_cases hji : j = i
    · subst hji
      rw [update_self] at hj
      exact .inl ⟨rfl, (Option.some.inj hj).symm⟩
    · rw [update_of_ne hji] at hj
      exact .inr ⟨hji, hj⟩
  refine ⟨fun j k mark hj hk => ?_, ?_, fun mark => ?_, hlog⟩
  · rcases hslot j mark hj with ⟨rfl, rfl⟩ | ⟨-, hj⟩
    · rcases hslot k _ hk with ⟨rfl, -⟩ | ⟨-, hk⟩
      · rfl
      · exact absurd hk (hnew k)
    · rcases hslot k _ hk with ⟨rfl, rfl⟩ | ⟨-, hk⟩
      · exact absurd hj (hnew j)
      · exact h.distinct j k mark hj hk
  · rw [hjobs, map_append]
    refine h.nodup.append (nodup_singleton _) ?_
    simp only [map_cons, map_nil, disjoint_singleton]
    intro hmem
    obtain ⟨j, hj⟩ := (h.marks job.mark).mpr hmem
    exact hnew j hj
  · rw [hjobs, map_append, mem_append, ← h.marks]
    constructor
    · rintro ⟨j, hj⟩
      rcases hslot j mark hj with ⟨-, rfl⟩ | ⟨-, hj⟩
      · exact .inr (by simp)
      · exact .inl ⟨j, hj⟩
    · rintro (⟨j, hj⟩ | hmark)
      · refine ⟨j, ?_⟩
        have hji : j ≠ i := by
          rintro rfl
          rw [hfree] at hj
          cases hj
        rw [hpend, update_of_ne hji, hj]
      · refine ⟨i, ?_⟩
        rw [hpend, update_self, mem_singleton.mp hmark]

/-- The mark of the first job is cleared. -/
theorem MarksInv.clear {job : L2LookupJob} (hold : v.jobs = job :: v'.jobs)
    (hpend : v'.pending = clearMark v.pending job.key job.keyHash) : v'.MarksInv := by
  obtain ⟨i, hi⟩ := (h.marks job.mark).mpr (by simp [hold])
  rw [clearMark_eq hi fun j hj => h.distinct j i _ hj hi] at hpend
  have hnodup := h.nodup
  rw [hold, map_cons, nodup_cons] at hnodup
  have hslot : ∀ j mark, v'.pending j = some mark ↔ j ≠ i ∧ v.pending j = some mark := by
    intro j mark
    rw [hpend]
    by_cases hji : j = i
    · simp [hji]
    · simp [hji]
  refine ⟨fun j k mark hj hk => ?_, hnodup.2, fun mark => ?_, hlog⟩
  · exact h.distinct j k mark ((hslot j mark).mp hj).2 ((hslot k mark).mp hk).2
  · have hmarks := h.marks mark
    rw [hold, map_cons, mem_cons] at hmarks
    constructor
    · rintro ⟨j, hj⟩
      obtain ⟨hji, hj⟩ := (hslot j mark).mp hj
      refine (hmarks.mp ⟨j, hj⟩).resolve_left fun hmark => hji ?_
      exact h.distinct j i _ (hmark ▸ hj) hi
    · intro hmem
      obtain ⟨j, hj⟩ := hmarks.mpr (.inr hmem)
      refine ⟨j, (hslot j mark).mpr ⟨fun hji => ?_, hj⟩⟩
      subst hji
      rw [hi] at hj
      exact hnodup.1 (Option.some.inj hj ▸ hmem)

end

theorem MarksInv.step (h : v.MarksInv) (hstep : v.Step v') : v'.MarksInv := by
  cases hstep with
  | stay => exact h
  | accept _ _ hnew hfree =>
    refine h.accept (by simp [h.log, looking]) hnew hfree ?_ rfl
    unfold jobs
    cases v.work <;> rfl
  | take _ _ hpop hwork =>
    exact h.of_eq (by simp [h.log, looking, hwork, hpop]) (by simp [jobs, hwork, hpop]) rfl
  | execute _ hwork =>
    exact h.of_eq (by simp [h.log, looking, hwork]) (by simp [jobs, hwork]) rfl
  | clear _ hwork =>
    exact h.clear (by simp [h.log, looking, hwork]) (by simp [jobs, hwork]) rfl

end ShardLookups

/-! ## What a step is for one shard -/

/-- The parts of a shard that its lookups use are the same. -/
def SameLookups (new old : RuntimeShard) : Prop :=
  new.pending = old.pending ∧ new.lookups = old.lookups

theorem SameLookups.update {shards} {t : ShardId} (h : SameLookups shard (shards t)) (s : ShardId) :
    SameLookups (update shards t shard s) (shards s) := by
  by_cases hs : s = t
  · rw [hs, update_self]
    exact h
  · rw [update_of_ne hs]
    exact ⟨rfl, rfl⟩

/-- A lookup that is marked and then refused leaves no mark. -/
theorem mark_clear_sameLookups {marked : RuntimeShard} {hash : UInt32}
    (hkey : key.length < kCacheKeyMaxLen) (h : shard.pendingTryMark key hash = some marked) :
    SameLookups (marked.pendingClear key hash) shard := by
  obtain ⟨hnew, i, hfree, rfl⟩ := pendingTryMark_marks hkey h
  obtain ⟨hpend, hsame⟩ := pendingClear_marks _ key hash
  refine ⟨?_, hsame⟩
  rw [hpend, clearMark_eq (i := i) (update_self ..), update_idem, ← hfree, update_eq_self]
  intro j hj
  by_contra hji
  rw [update_of_ne hji] at hj
  exact hnew j hj

/-- A step that leaves the lookups of `s` and what its owner looks up for it. -/
theorem shardLookups_eq (hshard : SameLookups (q'.shards s) (q.shards s))
    (hwork : (q'.workers (shardOwner cfg s)).lookupWork s =
      (q.workers (shardOwner cfg s)).lookupWork s)
    (hacc : onShard s q'.acceptedLookups = onShard s q.acceptedLookups)
    (hexec : onShard s q'.executedLookups = onShard s q.executedLookups) :
    shardLookups q' s = shardLookups q s :=
  ShardLookups.ext hshard.1 hshard.2 hwork hacc hexec

theorem lookupWork_update {workers : Fin cfg.workerCount → WorkerPc} {pc : WorkerPc}
    (h : pc.lookupWork s = (workers w).lookupWork s) :
    (update workers w pc (shardOwner cfg s)).lookupWork s =
      (workers (shardOwner cfg s)).lookupWork s := by
  by_cases hv : shardOwner cfg s = w
  · rw [hv, update_self, h]
  · rw [update_of_ne hv]

@[simp] theorem lookupWork_afterTask (s : ShardId) (task : Task) :
    (afterTask task).lookupWork s = .none := by
  unfold afterTask
  split <;> rfl

@[simp] theorem lookupWork_afterLane (s : ShardId) (task : Task) (lane : Lane) :
    (afterLane task lane).lookupWork s = .none := by
  cases lane <;> rfl

/-- A worker that moves between places where it looks nothing up. -/
theorem shardLookups_move {pc : WorkerPc} (hshard : SameLookups (q'.shards s) (q.shards s))
    (hwks : q'.workers = update q.workers w pc)
    (hold : (q.workers w).lookupWork s = .none) (hnew : pc.lookupWork s = .none)
    (hacc : q'.acceptedLookups = q.acceptedLookups)
    (hexec : q'.executedLookups = q.executedLookups) : shardLookups q' s = shardLookups q s :=
  shardLookups_eq hshard (by rw [hwks, lookupWork_update (by rw [hold, hnew])])
    (by rw [hacc]) (by rw [hexec])

/-- The key of a lookup fits its buffer. -/
def LookupKeyFits {n : Nat} : QueueAction n → Prop
  | .enqueueLookup _ job _ => job.key.length < kCacheKeyMaxLen
  | _ => True

theorem ShardLookups.Step.of_eq {v v' v'' : ShardLookups} (h : v.Step v') (heq : v'' = v') :
    v.Step v'' :=
  heq ▸ h

open ShardLookups

theorem shardLookups_step {a : QueueAction cfg.workerCount} (hown : OwnsTask q)
    (hfits : LookupKeyFits a) (hstep : QueueStep cfg hash q a q') (s : ShardId) :
    (shardLookups q s).Step (shardLookups q' s) := by
  have stay : shardLookups q' s = shardLookups q s →
      (shardLookups q s).Step (shardLookups q' s) := fun h => h ▸ .stay
  cases hstep with
  | enter | rejectLookup | rejectStore | rejectInvalidate | clientPush | shutdown =>
    exact .stay
  | fullLookup _ _ _ _ _ hmark =>
    exact stay (shardLookups_eq ((mark_clear_sameLookups hfits hmark).update s) rfl rfl rfl)
  | acceptLookup _ job nowMs t keyHash _ _ _ _ hmark =>
    by_cases hst : s = t
    · subst hst
      obtain ⟨hnew, i, hfree, rfl⟩ := pendingTryMark_marks hfits hmark
      refine (Step.accept { job with keyHash, enqueuedAtMs := nowMs } i hnew hfree).of_eq ?_
      simp [shardLookups, L2LookupJob.mark]
    · refine stay ?_
      simp [shardLookups, hst, onShard_append_of_ne (Ne.symm hst)]
  -- the other lanes have no marks
  | acceptStore c job nowMs t slot hc hs | acceptInvalidate c key nowMs t hc hs =>
    refine stay (shardLookups_eq (SameLookups.update ?_ s) rfl rfl rfl)
    exact ⟨rfl, rfl⟩
  | takeReady w t rest hw | beginDrain w hw | markFailed w t hw | ownedNext w index worked t hw
  | invalidate w task executed job hw | store w task executed job hw =>
    exact stay (shardLookups_move ⟨rfl, rfl⟩ rfl (by rw [hw]; rfl) rfl rfl rfl)
  | push w task hw | laneDone w task lane executed hw =>
    exact stay (shardLookups_move ⟨rfl, rfl⟩ rfl (by rw [hw]; rfl) (by simp) rfl rfl)
  | ownedEnd w index worked hw =>
    exact stay (shardLookups_move ⟨rfl, rfl⟩ rfl (by rw [hw]; rfl) (by cases worked <;> rfl)
      rfl rfl)
  | mark w t hw
  | popInvalidate w task executed job rest hw | popStore w task executed job rest hw =>
    refine stay (shardLookups_move (SameLookups.update ?_ s) rfl (by rw [hw]; rfl) rfl rfl
      rfl)
    exact ⟨rfl, rfl⟩
  | requeue w task hw =>
    refine stay (shardLookups_move (SameLookups.update ?_ s) rfl (by rw [hw]; rfl) ?_ rfl rfl)
    · exact ⟨rfl, rfl⟩
    · cases q.running
      · simp
      · rfl
  | clear w task hw =>
    refine stay (shardLookups_move (SameLookups.update ?_ s) rfl (by rw [hw]; rfl)
      (by simp) rfl rfl)
    exact ⟨rfl, rfl⟩
  | free w task executed job hw =>
    obtain ⟨bytes, hfree⟩ := freeBodySlot_eq q task.shard job
    rw [hfree] at stay ⊢
    refine stay (shardLookups_move (SameLookups.update ?_ s) rfl (by rw [hw]; rfl) rfl rfl rfl)
    exact ⟨rfl, rfl⟩
  -- a lookup is taken, executed and cleared by the owner of its shard
  | popLookup w task executed job rest hw hpop =>
    obtain rfl := hown w task (by rw [hw]; rfl)
    by_cases hst : task.shard = s
    · subst hst
      refine (Step.take job rest hpop ?_).of_eq ?_ <;>
        simp [shardLookups, hw, lookupWork]
    · refine stay (shardLookups_move ?_ rfl (by rw [hw]; rfl) (by simp [lookupWork, hst])
        rfl rfl)
      simp [SameLookups, Ne.symm hst]
  | lookedUp w task executed job hw =>
    obtain rfl := hown w task (by rw [hw]; rfl)
    by_cases hst : task.shard = s
    · subst hst
      refine (Step.execute job ?_).of_eq ?_ <;>
        simp [shardLookups, hw, lookupWork]
    · refine stay (shardLookups_eq ⟨rfl, rfl⟩ (lookupWork_update ?_) rfl
        (onShard_append_of_ne hst _ _))
      simp [lookupWork, hw, hst]
  | clearMark w task executed job hw =>
    obtain rfl := hown w task (by rw [hw]; rfl)
    obtain ⟨hpend, hlook⟩ := pendingClear_marks (q.shards task.shard) job.key job.keyHash
    by_cases hst : task.shard = s
    · subst hst
      refine (Step.clear job ?_).of_eq ?_ <;>
        simp [shardLookups, hw, lookupWork, hpend, hlook]
    · refine stay (shardLookups_eq ?_ (lookupWork_update ?_) rfl rfl)
      · simp [SameLookups, Ne.symm hst]
      · simp [lookupWork, hw, hst]

theorem ShardLookups.MarksInv.init (s : ShardId) :
    (shardLookups (queueSystem cfg hash l2).init s).MarksInv := by
  refine ⟨fun i j mark hi => ?_, nodup_nil, fun mark => ?_, rfl⟩
  · cases hi
  · simp [shardLookups, queueSystem, WorkerQueue.init, RuntimeShard.init, jobs, lookupWork]

theorem marksInv_reachable {G}
    (hfits : ∀ q a, G q a → LookupKeyFits a) (h : (queueSystem cfg hash l2).ReachableUnder G q)
    (s : ShardId) : (shardLookups q s).MarksInv := by
  refine (h.invariant (P := fun q => OwnsTask q ∧ ∀ s, (shardLookups q s).MarksInv)
    ⟨WritesInv.init.owns, .init⟩ fun q a q' hq hguard hstep => ?_).2 s
  obtain ⟨hown, hmarks⟩ := hq
  have hstep := queueStep_cases hstep
  exact ⟨hown.step hstep,
    fun s => (hmarks s).step (shardLookups_step hown (hfits q a hguard) hstep s)⟩

/-! ## The marks are counted -/

/-- The 32 bits of a key's hash that its mark holds. -/
def markHash (hash : Text → UInt64) (key : Text) : UInt32 := (hash key ^^^ (hash key >>> 32)).toUInt32

/-- A mark is of a key of the shard. -/
def Homed (hash : Text → UInt64) (s : ShardId) (mark : Option (Text × UInt32)) : Prop :=
  ∀ key keyHash, mark = some (key, keyHash) → hashKeyToShard hash key = s ∧
    keyHash = markHash hash key

/-- The marks of a shard are of keys of its own, and counted. -/
structure MarksCounted (hash : Text → UInt64) (s : ShardId) (pending : PendingMarks)
    (pendingCount : Nat) : Prop where
  home : ∀ i, Homed hash s (pending i)
  count : pendingCount = (Finset.univ.filter fun i => (pending i).isSome).card

theorem MarksCounted.mark
    (h : MarksCounted hash (hashKeyToShard hash key) shard.pending shard.pendingCount)
    (hkey : key.length < kCacheKeyMaxLen) {marked : RuntimeShard}
    (hmark : shard.pendingTryMark key (markHash hash key) = some marked) :
    MarksCounted hash (hashKeyToShard hash key) marked.pending marked.pendingCount := by
  obtain ⟨-, i, hfree, rfl⟩ := pendingTryMark_marks hkey hmark
  constructor
  · refine (forall_update_iff _ fun _ => Homed hash _).mpr ⟨?_, fun j _ => h.home j⟩
    rintro _ _ ⟨⟩
    exact ⟨rfl, rfl⟩
  · rw [occupied_update _ hfree, h.count]

theorem MarksCounted.clear (h : MarksCounted hash s shard.pending shard.pendingCount) (key : Text)
    (keyHash : UInt32) :
    MarksCounted hash s (shard.pendingClear key keyHash).pending
      (shard.pendingClear key keyHash).pendingCount := by
  unfold pendingClear
  split
  · exact h
  next i hfound =>
    have hi : shard.pending i = some (key, keyHash) := by simpa using find?_some hfound
    have hcnt := occupied_update (key, keyHash) (update_self i none shard.pending)
    rw [update_idem, ← hi, update_eq_self, ← h.count] at hcnt
    refine ⟨(forall_update_iff _ fun _ => Homed hash s).mpr ⟨?_, fun j _ => h.home j⟩,
      Nat.sub_eq_of_eq_add hcnt⟩
    rintro _ _ ⟨⟩

theorem marksCounted_step {a} (hfits : LookupKeyFits a) (hstep : QueueStep cfg hash q a q')
    (h : ∀ s, MarksCounted hash s (q.shards s).pending (q.shards s).pendingCount) :
    ∀ s, MarksCounted hash s (q'.shards s).pending (q'.shards s).pendingCount := by
  have hset : ∀ t (shard : RuntimeShard), MarksCounted hash t shard.pending shard.pendingCount →
      ∀ s, MarksCounted hash s (update q.shards t shard s).pending
        (update q.shards t shard s).pendingCount :=
    fun t shard ht => (forall_update_iff q.shards fun s (shard : RuntimeShard) =>
      MarksCounted hash s shard.pending shard.pendingCount).mpr ⟨ht, fun s _ => h s⟩
  cases hstep with
  | fullLookup _ _ _ _ _ hmark => exact hset _ _ (((h _).mark hfits hmark).clear ..)
  | acceptLookup _ _ _ _ _ _ _ hs hhash hmark =>
    subst hs hhash
    have hmarked := (h _).mark hfits hmark
    exact hset _ _ hmarked
  | clearMark => exact hset _ _ ((h _).clear ..)
  | free w task executed job =>
    obtain ⟨bytes, hfree⟩ := freeBodySlot_eq q task.shard job
    rw [hfree]
    exact hset _ _ (h _)
  | acceptStore | acceptInvalidate | mark | popLookup | popInvalidate | popStore | requeue | clear =>
    exact hset _ _ (h _)
  | _ => exact h

theorem ShardLookups.MarksInv.occupied {v : ShardLookups} (h : v.MarksInv) :
    (Finset.univ.filter fun i => (v.pending i).isSome).card = v.jobs.length := by
  rw [← length_map L2LookupJob.mark, ← toFinset_card_of_nodup h.nodup]
  refine Finset.card_bij (fun i hi => (v.pending i).get (Finset.mem_filter.mp hi).2) ?_ ?_ ?_
  · intro i hi
    rw [mem_toFinset, ← h.marks]
    exact ⟨i, (Option.some_get _).symm⟩
  · intro i hi j hj heq
    exact h.distinct i j _ (Option.some_get _).symm (by rw [heq, Option.some_get])
  · intro mark hmark
    obtain ⟨i, hi⟩ := (h.marks mark).mpr (mem_toFinset.mp hmark)
    exact ⟨i, by simp [hi], by simp [hi]⟩

theorem marksCounted_reachable
    (h : (queueSystem cfg hash l2).ReachableUnder (fun _ a => LookupKeyFits a) q) :
    ∀ s, MarksCounted hash s (q.shards s).pending (q.shards s).pendingCount := by
  refine h.invariant (fun s => ⟨fun i key keyHash hi => ?_, ?_⟩) fun q a q' hq hfits hstep =>
    marksCounted_step hfits (queueStep_cases hstep) hq
  · cases hi
  · simp [queueSystem, WorkerQueue.init, RuntimeShard.init]

/-- The pending marks are the set of the keys being looked up, and only a key in the set is refused
    as long as there is room. -/
structure PendingSet (hash : Text → UInt64) (q : Queue cfg) : Prop where
  marks : ∀ s key, (∃ i keyHash, (q.shards s).pending i = some (key, keyHash)) ↔
    ∃ job ∈ (shardLookups q s).jobs, job.key = key
  distinct : ∀ s i j key keyHash keyHash', (q.shards s).pending i = some (key, keyHash) →
    (q.shards s).pending j = some (key, keyHash') → i = j
  count : ∀ s, (q.shards s).pendingCount = (shardLookups q s).jobs.length
  nodup : ∀ s, ((shardLookups q s).jobs.map L2LookupJob.key).Nodup
  shard : ∀ s s', ∀ job ∈ (shardLookups q s).jobs, ∀ job' ∈ (shardLookups q s').jobs,
    job.key = job'.key → s = s'
  again : ∀ client job nowMs, let s := hashKeyToShard hash job.key
    (∀ job' ∈ (shardLookups q s).jobs, job'.key ≠ job.key) →
      (q.shards s).pendingCount < kRuntimePendingSlotsPerShard →
      (q.shards s).lookups.length < kRuntimeQueueSlotsPerShard →
      ∃ queued : L2LookupJob, queued.key = job.key ∧
        (q.tryEnqueueLookup hash client job nowMs).acceptedLookups =
          q.acceptedLookups ++ [(s, queued)]

/-- In every run the marks of a shard are the keys of its queued or executing lookups. -/
theorem pendingSet_reachable (cfg : WorkerQueueSettings) (hash : Text → UInt64) (l2 : L2Store)
    (q : Queue cfg) (h : (queueSystem cfg hash l2).ReachableUnder (fun _ a => LookupKeyFits a) q) :
    PendingSet hash q := by
  have hinv := marksInv_reachable (fun _ _ hfits => hfits) h
  have hcnt := marksCounted_reachable h
  have hhome : ∀ s, ∀ job ∈ (shardLookups q s).jobs,
      hashKeyToShard hash job.key = s ∧ job.keyHash = markHash hash job.key := by
    intro s job hjob
    obtain ⟨i, hi⟩ := ((hinv s).marks job.mark).mpr (mem_map_of_mem hjob)
    exact (hcnt s).home i _ _ hi
  have hmarks : ∀ s key, (∃ i keyHash, (q.shards s).pending i = some (key, keyHash)) ↔
      ∃ job ∈ (shardLookups q s).jobs, job.key = key := by
    intro s key
    constructor
    · rintro ⟨i, keyHash, hi⟩
      obtain ⟨job, hjob, hmark⟩ := mem_map.mp (((hinv s).marks _).mp ⟨i, hi⟩)
      exact ⟨job, hjob, congrArg Prod.fst hmark⟩
    · rintro ⟨job, hjob, rfl⟩
      obtain ⟨i, hi⟩ := ((hinv s).marks job.mark).mpr (mem_map_of_mem hjob)
      exact ⟨i, _, hi⟩
  refine ⟨hmarks, ?_, fun s => ?_, fun s => ?_, ?_, ?_⟩
  · intro s i j key keyHash keyHash' hi hj
    rw [((hcnt s).home j _ _ hj).2, ← ((hcnt s).home i _ _ hi).2] at hj
    exact (hinv s).distinct i j _ hi hj
  · rw [(hcnt s).count, ← (hinv s).occupied]
    rfl
  · refine List.Nodup.of_map (fun key => (key, markHash hash key)) ?_
    rw [map_map, map_congr_left fun job hjob => ?_]
    · exact (hinv s).nodup
    · exact congrArg (Prod.mk job.key) (hhome s job hjob).2.symm
  · intro s s' job hjob job' hjob' hkey
    rw [← (hhome s job hjob).1, hkey, (hhome s' job' hjob').1]
  · intro client job nowMs s hnone hmark hroom
    have hnew : ¬ ∃ i, (q.shards s).pending i = some (job.key, markHash hash job.key) := by
      rintro ⟨i, hi⟩
      obtain ⟨job', hjob', hkey⟩ := (hmarks s job.key).mp ⟨i, _, hi⟩
      exact hnone job' hjob' hkey
    obtain ⟨i, hi⟩ := exists_free ((hcnt s).count ▸ hmark)
    unfold tryEnqueueLookup pendingTryMark
    cases hfree : (List.finRange kRuntimePendingSlotsPerShard).find? fun i =>
        ((q.shards s).pending i).isNone with
    | none =>
      exact absurd hi (by simpa using find?_eq_none.mp hfree i (mem_finRange i))
    | some i =>
      refine ⟨{ job with keyHash := markHash hash job.key, enqueuedAtMs := nowMs }, rfl, ?_⟩
      simp only [s, markHash] at hnew hfree hroom ⊢
      simp only [if_neg hnew, hfree, if_neg (Nat.not_le_of_lt hroom)]

/-- One lookup is queued. -/
theorem pendingSet_reachable_queued : ∃ q : Queue oneWorker,
    (q.shards (hashKeyToShard (fun _ => 0) ['k'])).pendingCount = 1 ∧ PendingSet (fun _ => 0) q := by
  have hex : ∃ q, (queueSystem oneWorker (fun _ => 0) fun _ => none).run
      [.enter 0, .enqueueLookup 0 { key := ['k'] } 0] = some q ∧
        (q.shards (hashKeyToShard (fun _ => 0) ['k'])).pendingCount = 1 :=
    System.exists_run (by decide +kernel)
  obtain ⟨q, hrun, hcnt⟩ := hex
  refine ⟨q, hcnt, pendingSet_reachable _ _ _ q (.of_run ?_ hrun)⟩
  simp [LookupKeyFits, kCacheKeyMaxLen]

end ByteTaper.Runtime
