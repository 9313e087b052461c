import ByteTaper.Cache.L1MapSpec
import ByteTaper.Stages.CacheLayers

/-! # Promotions

An entry is copied from L2 to L1 in two ways. A lookup job of the worker keeps what L1 has if that is
newer; the lookup stage that a follower runs puts the entry into L1 whatever is there. -/

namespace ByteTaper.Stages

open Cache L1Slot Option

/-- A call on L1 itself, or one that finds L2 with some content. -/
inductive CacheCall where
  | l1 (op : L1Op)
  /-- `execute_lookup_job` -/
  | job (l2 : L2Store) (key : Text) (nowMs : Int64)
  /-- `l2_cache_lookup_stage` -/
  | probe (l2 : L2Store) (context : CacheContext)

/-- What a call can do to L1. -/
def CacheCall.Does : CacheCall → L1Op → Prop
  | .l1 op, op' => op' = op
  | .job l2 key _, op => ∃ entry, l2 key = some entry ∧ op = .putIfNewer entry true
  | .probe l2 context, op =>
    ∃ key entry, context.HasKey key ∧ l2 key = some entry ∧ op = .put entry true

section Hash

variable (hash : Text → UInt64)

def cacheStep (l1 : L1Cache) : CacheCall → L1Cache × Unit
  | .l1 op => ((l1Step hash l1 op).1, ())
  | .job l2 key nowMs =>
    ((executeLookupJob hash (some l1) (some l2) key nowMs).getD l1, ())
  | .probe l2 context =>
    ((l2CacheLookupStage hash (some l1) (some l2) context).1.getD l1, ())

/-- What the call puts for the key is not older than what L1 has. -/
def PutsNoOlder (key : Text) (l1 : L1Cache) (op : L1Op) : Prop :=
  ∀ entry bodyPresent, op = .put entry bodyPresent → entry.key = key →
    ∀ old, l1Get hash l1 key 0 0 = some old → old.createdAtEpochMs ≤ entry.createdAtEpochMs

/-- The key is in L1, and the call puts no older entry there. -/
def KeepsKey (key : Text) (l1 : L1Cache) (call : CacheCall) : Prop :=
  (l1Get hash l1 key 0 0).isSome = true ∧
    ∀ op, call.Does op → op.KeyFits ∧ PutsNoOlder hash key l1 op

/-- No entry for the key in the cache is older. -/
def NoneOlder (l1 : L1Cache) (key : Text) (createdAt : Int64) : Prop :=
  ∀ s i entry, (L1Cache.table l1 s i).content = some entry → entry.key = key →
    createdAt ≤ entry.createdAtEpochMs

variable {hash} {map : Text → Option CacheEntry} {l1 : L1Cache} {entry : CacheEntry}
  {key : Text} {op : L1Op} {createdAt : Int64}

theorem cacheStep_cases (l1 : L1Cache) (call : CacheCall) : (cacheStep hash l1 call).1 = l1 ∨
    ∃ op, call.Does op ∧ (cacheStep hash l1 call).1 = (l1Step hash l1 op).1 := by
  cases call with
  | l1 op => exact .inr ⟨op, rfl, rfl⟩
  | job l2 key nowMs =>
    unfold cacheStep executeLookupJob
    dsimp only
    split
    next entry hget => exact .inr ⟨_, ⟨entry, l2GetResult_hit hget, rfl⟩, rfl⟩
    all_goals exact .inl rfl
  | probe l2 context =>
    obtain ⟨hsame, -⟩ | ⟨l2', key, hit, hl2, hkey, hent, hput, -⟩ :=
      @l2CacheLookupStage_cases hash (some l1) (some l2) context
    · exact .inl (congrArg (·.getD l1) hsame)
    · cases hl2
      exact .inr ⟨_, ⟨key, hit.entry, hkey, hent, rfl⟩, congrArg (·.getD l1) hput⟩

/-- A promotion that is accepted is not older than the entry it replaces. -/
theorem accepted_newer (h : Holds hash map l1) {old : CacheEntry} {bodyPresent : Bool} {i}
    (hi : (l1.table (l1ShardOf hash entry.key) i).content = some old)
    (hkey : old.key = entry.key) (hstored : (l1PutIfNewer hash l1 entry bodyPresent).2) :
    old.createdAtEpochMs ≤ entry.createdAtEpochMs := by
  have hdup := h.duplicateSlot_eq hi hkey
  obtain ⟨-, rfl⟩ := content_eq_some.mp hi
  unfold l1PutIfNewer at hstored
  split at hstored
  · dsimp only at hstored
    split at hstored
    · cases hstored
    next hnewer =>
      simp only [hasNewer, hdup, decide_eq_true_eq] at hnewer
      exact Int64.not_lt.mp hnewer
  · cases hstored

theorem noneOlder_op (h : Holds hash map l1) (hfound : (l1Get hash l1 key 0 0).isSome)
    (hfits : op.KeyFits) (hput : PutsNoOlder hash key l1 op) (hold : NoneOlder l1 key createdAt) :
    NoneOlder (l1Step hash l1 op).1 key createdAt := by
  obtain ⟨found, hget⟩ := isSome_iff_exists.mp hfound
  obtain ⟨i, old, hi, rfl, rfl, -⟩ := h.get_slot hget
  have hle := hold _ i old hi rfl
  intro s j new hj hkey
  rcases recordEvent_eq_some ((h.step hfits).current s j new hj) with ⟨hacc, -⟩ | ⟨hmap, -⟩
  · cases op with
    | put entry bodyPresent =>
      obtain ⟨-, hsome⟩ := ite_none_right_eq_some.mp hacc
      cases hsome
      exact Int64.le_trans hle (hput _ _ rfl hkey (copyOut old 0) hget)
    | putIfNewer entry bodyPresent =>
      unfold l1Step at hacc
      cases hstored : (l1PutIfNewer hash l1 entry bodyPresent).2 with
      | false => simp [hstored, L1Event.accepted] at hacc
      | true =>
        simp only [hstored, L1Event.accepted, some.injEq] at hacc
        subst hacc
        exact Int64.le_trans hle (accepted_newer h (i := i) (by rwa [hkey]) hkey.symm hstored)
    | _ => cases hacc
  · rw [hkey, h.current _ i old hi] at hmap
    cases hmap
    exact hle

/-- What every call keeps. -/
theorem noneOlder_step {call : CacheCall} (hkeeps : KeepsKey hash key l1 call)
    (h : (∃ map, Holds hash map l1) ∧ NoneOlder l1 key createdAt) :
    (∃ map, Holds hash map (cacheStep hash l1 call).1) ∧
      NoneOlder (cacheStep hash l1 call).1 key createdAt := by
  obtain ⟨⟨map, hholds⟩, hold⟩ := h
  rcases cacheStep_cases l1 call with hsame | ⟨op, hdoes, hstep⟩
  · rw [hsame]
    exact ⟨⟨map, hholds⟩, hold⟩
  · obtain ⟨hfits, hput⟩ := hkeeps.2 op hdoes
    rw [hstep]
    exact ⟨⟨_, hholds.step hfits⟩, noneOlder_op hholds hkeeps.1 hfits hput hold⟩

/-- As long as the key stays in L1 and no call puts an older entry there, an entry found for it is not
    older than one found before; a promotion that is refused changes nothing. -/
theorem promotion_never_goes_back (hash : Text → UInt64) (ops : List L1Op) (calls : List CacheCall)
    (key : Text) (hfits : ∀ op ∈ ops, op.KeyFits)
    (hkeeps : Calls.Along (cacheStep hash) (KeepsKey hash key) (l1Run hash ops).1 calls) :
    (∀ nowMs nowMs' capacity capacity' old new,
      l1Get hash (l1Run hash ops).1 key nowMs capacity = some old →
      l1Get hash (Calls.run (cacheStep hash) (l1Run hash ops).1 calls).1 key nowMs' capacity' =
        some new → old.createdAtEpochMs ≤ new.createdAtEpochMs) ∧
    ∀ l1 entry bodyPresent, (l1PutIfNewer hash l1 entry bodyPresent).2 = false →
      (l1PutIfNewer hash l1 entry bodyPresent).1 = l1 := by
  refine ⟨fun nowMs nowMs' capacity capacity' old new hold hnew => ?_,
    fun l1 entry bodyPresent href => ?_⟩
  · have h : Holds hash _ _ := holds_run hfits
    obtain ⟨i, old, hi, hkey, rfl, -⟩ := h.get_slot hold
    have hstart : NoneOlder (l1Run hash ops).1 key old.createdAtEpochMs := by
      intro s j entry hj hkey'
      obtain ⟨-, -, rfl⟩ := h.keyed.ext hj hi (hkey'.trans hkey.symm)
      exact Int64.le_refl _
    obtain ⟨⟨_, hafter⟩, hlater⟩ := Calls.run_invariant
      (P := fun l1 _ => (∃ map, Holds hash map l1) ∧ NoneOlder l1 key old.createdAtEpochMs)
      (fun _ _ _ hcall h => noneOlder_step hcall h) hkeeps ⟨⟨_, h⟩, hstart⟩
    obtain ⟨j, new, hj, hkey', rfl, -⟩ := hafter.get_slot hnew
    exact hlater _ j new hj hkey'
  · unfold l1PutIfNewer at href ⊢
    dsimp only at href ⊢
    split_ifs at href ⊢ <;> rfl

end Hash

/-- An entry that is created at some time. -/
def entryAt (createdAtEpochMs : Int64) : CacheEntry :=
  { key := lit "a", createdAtEpochMs, expiresAtEpochMs := 9 }

def l2At (createdAtEpochMs : Int64) : L2Store := l2Put (fun _ => none) (entryAt createdAtEpochMs)

/-- A follower that runs its lookup stage. -/
def followerContext : CacheContext where
  matchedPolicy := some { cache := { behavior := .store } }
  requestEpochMs := 5
  cacheKey := some (lit "a")

/-- The worker promotes an entry over an older one. -/
theorem promotion_never_goes_back_newer :
    ∃ new, l1Get (fun _ => 0) (Calls.run (cacheStep fun _ => 0)
      (l1Run (fun _ => 0) [.put (entryAt 2) true]).1 [.job (l2At 3) (lit "a") 5]).1 (lit "a") 0 0 =
        some new ∧ 2 ≤ new.createdAtEpochMs := by
  refine ⟨entryAt 3, by decide +kernel, ?_⟩
  refine (promotion_never_goes_back (fun _ => 0) [.put (entryAt 2) true]
    [.job (l2At 3) (lit "a") 5] (lit "a") (by decide +kernel)
    ⟨⟨by decide +kernel, ?_⟩, trivial⟩).1 0 0 0 0 (entryAt 2) _
    (by decide +kernel) (by decide +kernel)
  rintro op ⟨entry, hent, rfl⟩
  have hl2 : l2At 3 (lit "a") = some (entryAt 3) := by decide +kernel
  cases hl2.symm.trans hent
  exact ⟨by decide +kernel, nofun⟩

/-- A follower puts what L2 still has over the newer entry. -/
theorem probe_goes_back :
    l1Get (fun _ => 0) (l1Run (fun _ => 0) [.put (entryAt 2) true]).1 (lit "a") 5 0 =
        some (entryAt 2) ∧
      l1Get (fun _ => 0) (Calls.run (cacheStep fun _ => 0)
        (l1Run (fun _ => 0) [.put (entryAt 2) true]).1 [.probe (l2At 1) followerContext]).1
          (lit "a") 5 0 = some (entryAt 1) := by
  decide +kernel

end ByteTaper.Stages
