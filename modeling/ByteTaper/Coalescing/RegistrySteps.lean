import ByteTaper.Coalescing.InflightRegistry
import ByteTaper.Library.Calls

/-! # What a call does to the registry

Every call leaves all slots as they are, changes the active entry for its key, or gives a slot that can
be reused to a key without one (`registryStep_cases`). The rest is derived from that, first of all that
no key has two active entries. -/

namespace ByteTaper.Coalescing

open ShardedSlots Function

inductive RegistryOp where
  | register (key : Text) (nowMs : UInt64) (waitWindowMs maxWaitersPerKey : UInt32)
  | completeWithResponse (key : Text) (statusCode : UInt16) (contentType : Option Text)
      (body : Text) (nowMs : UInt64)
  | completeState (key : Text) (state : InFlightCompletionState) (nowMs : UInt64)
  | completeStateIfGeneration (key : Text) (expectedGeneration : UInt64)
      (state : InFlightCompletionState) (nowMs : UInt64)
  | removeWaiter (key : Text)
  | enterWait (key : Text)
  | exitWait (key : Text)

def RegistryOp.key : RegistryOp → Text
  | .register key _ _ _ | .completeWithResponse key _ _ _ _ | .completeState key _ _
  | .completeStateIfGeneration key _ _ _ | .removeWaiter key | .enterWait key | .exitWait key => key

/-- A key to be registered fits the buffer of an entry. -/
def RegistryOp.KeyFits : RegistryOp → Prop
  | .register key _ _ _ => key.length < kInFlightKeySize
  | _ => True

instance : DecidablePred RegistryOp.KeyFits
  | .register key _ _ _ => inferInstanceAs (Decidable (key.length < kInFlightKeySize))
  | .completeWithResponse .. | .completeState .. | .completeStateIfGeneration .. | .removeWaiter _
  | .enterWait _ | .exitWait _ => inferInstanceAs (Decidable True)

def InFlightRegistry.table (registry : InFlightRegistry) :
    ShardedSlots.Table kInFlightShards kSlotsPerShard InFlightEntry :=
  fun s j => (registry.shards s).slots j

def InFlightEntry.content (entry : InFlightEntry) : Option InFlightEntry :=
  if entry.active then some entry else none

theorem InFlightEntry.content_eq_some {entry entry' : InFlightEntry} :
    entry.content = some entry' ↔ entry.active ∧ entry = entry' := by
  unfold content
  split <;> simp_all

theorem InFlightEntry.isFor_iff {entry : InFlightEntry} {key : Text} :
    entry.isFor key ↔ entry.active ∧ entry.key = key := by
  rw [isFor, Bool.and_eq_true, beq_iff_eq]

theorem table_setSlot (registry : InFlightRegistry) (s : Fin kInFlightShards)
    (j : Fin kSlotsPerShard) (entry : InFlightEntry) :
    (setSlot registry s j entry).table = ShardedSlots.set registry.table s j entry := by
  funext s' j'
  unfold InFlightRegistry.table setSlot ShardedSlots.set
  by_cases hs : s' = s
  · subst hs
    simp only [update_self]
  · simp only [update_of_ne hs]

theorem keyCopy_eq {key : Text} (h : key.length < kInFlightKeySize) : keyCopy key = key := by
  rw [keyCopy, List.take_of_length_le (by omega)]

/-! ## The change of an entry -/

/-- A request for the key leads again, although there is an active entry. -/
def leadsAgain (entry : InFlightEntry) (nowMs : UInt64) (waitWindowMs : UInt32) : Bool :=
  match entry.state with
  | .stored | .l1Ready => windowPassed entry.completedAtEpochMs nowMs waitWindowMs
  | .notCacheable | .failed => true
  | .inFlight | .l2Ready | .tooLargeForHandoff =>
    windowPassed entry.createdAtEpochMs nowMs waitWindowMs

/-- The state that a completion call completes an entry with. -/
def RegistryOp.completes : RegistryOp → Option InFlightCompletionState
  | .completeWithResponse _ _ _ body _ =>
    some (if kCoalescingSharedBodyMaxSize < body.length then .notCacheable else .stored)
  | .completeState _ state _ | .completeStateIfGeneration _ _ state _ => some state
  | _ => none

/-- How a call can change the active entry for its key, and what it answers. -/
inductive EntryChange (entry : InFlightEntry) :
    RegistryOp → InFlightEntry → Option RegistryRegistrationResult → Prop where
  | lead (key : Text) (nowMs : UInt64) (waitWindowMs maxWaitersPerKey : UInt32)
      (again : leadsAgain entry nowMs waitWindowMs = true) :
      EntryChange entry (.register key nowMs waitWindowMs maxWaitersPerKey) (newLeader entry nowMs)
        (some { role := .leader, lifecycleGeneration := entry.lifecycleGeneration + 1 })
  | join (key : Text) (nowMs : UInt64) (waitWindowMs maxWaitersPerKey : UInt32)
      (room : entry.waiterCount < maxWaitersPerKey) :
      EntryChange entry (.register key nowMs waitWindowMs maxWaitersPerKey)
        { entry with waiterCount := entry.waiterCount + 1 }
        (some { role := .follower, lifecycleGeneration := entry.lifecycleGeneration })
  | complete (op : RegistryOp) (state : InFlightCompletionState) (nowMs : UInt64)
      (sharedResponse : InFlightSharedResponse) (completes : op.completes = some state) :
      EntryChange entry op { entry with state, completedAtEpochMs := nowMs, sharedResponse } none
  | leave (key : Text) (waits : 0 < entry.waiterCount) :
      EntryChange entry (.removeWaiter key) { entry with waiterCount := entry.waiterCount - 1 } none

section Hash

variable (hash : Text → UInt64)

def registryStep (registry : InFlightRegistry) :
    RegistryOp → InFlightRegistry × Option RegistryRegistrationResult
  | .register key nowMs waitWindowMs maxWaitersPerKey =>
    let (registry, result) := registryRegister hash registry key nowMs waitWindowMs maxWaitersPerKey
    (registry, some result)
  | .completeWithResponse key statusCode contentType body nowMs =>
    ((registryCompleteWithResponse hash registry key statusCode contentType body nowMs).1, none)
  | .completeState key state nowMs =>
    ((registryCompleteState hash registry key state nowMs).1, none)
  | .completeStateIfGeneration key expectedGeneration state nowMs =>
    ((registryCompleteStateIfGeneration hash registry key expectedGeneration state nowMs).1, none)
  | .removeWaiter key => (registryRemoveWaiter hash registry key, none)
  | .enterWait key => (registryEnterWait hash registry key, none)
  | .exitWait key => (registryExitWait hash registry key, none)

/-- What a call has done to the table of the slots. -/
inductive TableChange (table : ShardedSlots.Table kInFlightShards kSlotsPerShard InFlightEntry)
    (op : RegistryOp) : ShardedSlots.Table kInFlightShards kSlotsPerShard InFlightEntry →
      Option RegistryRegistrationResult → Prop where
  | same (answer : Option RegistryRegistrationResult)
      (rejected : ∀ result, answer = some result → result = { role := .reject }) :
      TableChange table op table answer
  | change (j : Fin kSlotsPerShard) (entry : InFlightEntry)
      (answer : Option RegistryRegistrationResult)
      (found : (table (shardOf hash op.key) j).isFor op.key = true)
      (changed : EntryChange (table (shardOf hash op.key) j) op entry answer) : TableChange table op
        (ShardedSlots.set table (shardOf hash op.key) j entry) answer
  | take (key : Text) (nowMs : UInt64) (waitWindowMs maxWaitersPerKey : UInt32)
      (j : Fin kSlotsPerShard)
      (registers : op = .register key nowMs waitWindowMs maxWaitersPerKey)
      (absent : ∀ j', (table (shardOf hash key) j').isFor key = false)
      (reusable : scan (table (shardOf hash key)) (fun slot =>
        terminalEntryExpired slot nowMs waitWindowMs || !slot.active) = some j) :
      TableChange table op (ShardedSlots.set table (shardOf hash key) j
          (firstLeader (table (shardOf hash key) j) key nowMs))
        (some { role := .leader
                lifecycleGeneration :=
                  (table (shardOf hash key) j).lifecycleGeneration + 1 })

variable {hash} {key : Text} {registry : InFlightRegistry}

/-- A request for the key of an active entry joins it, leads, or is rejected. -/
theorem registerExisting_cases {entry : InFlightEntry} (nowMs : UInt64)
    (waitWindowMs maxWaitersPerKey : UInt32) (hkey : key.length < kInFlightKeySize)
    (hfor : entry.isFor key) :
    (registerExisting entry key nowMs waitWindowMs maxWaitersPerKey = (entry, { role := .reject })) ∨
      EntryChange entry (.register key nowMs waitWindowMs maxWaitersPerKey)
        (registerExisting entry key nowMs waitWindowMs maxWaitersPerKey).1
        (some (registerExisting entry key nowMs waitWindowMs maxWaitersPerKey).2) := by
  have hjoin : joinEntry entry maxWaitersPerKey = (entry, { role := .reject }) ∨
      EntryChange entry (.register key nowMs waitWindowMs maxWaitersPerKey)
        (joinEntry entry maxWaitersPerKey).1 (some (joinEntry entry maxWaitersPerKey).2) := by
    unfold joinEntry
    split
    next hroom => exact .inr (.join key nowMs waitWindowMs maxWaitersPerKey hroom)
    · exact .inl rfl
  have hlead : leadsAgain entry nowMs waitWindowMs →
      EntryChange entry (.register key nowMs waitWindowMs maxWaitersPerKey)
        (answerLeader (newLeader entry nowMs)).1 (some (answerLeader (newLeader entry nowMs)).2) :=
    .lead key nowMs waitWindowMs maxWaitersPerKey
  have hcopy : { newLeader entry nowMs with key := keyCopy key } = newLeader entry nowMs := by
    rw [keyCopy_eq hkey, ← (InFlightEntry.isFor_iff.mp hfor).2]
    rfl
  unfold leadsAgain at hlead
  unfold registerExisting
  rw [hcopy]
  cases hstate : entry.state
  all_goals
    simp only [hstate] at hlead ⊢
    first
      | exact .inr (hlead trivial)
      | split
        next hpass => exact .inr (hlead hpass)
        · exact hjoin

theorem findSlot_some {j} (h : findSlot hash registry key = some j) :
    (registry.table (shardOf hash key) j).isFor key :=
  scan_some h

theorem findSlot_none (h : findSlot hash registry key = none) (j : Fin kSlotsPerShard) :
    (registry.table (shardOf hash key) j).isFor key = false :=
  scan_none h j

theorem reusable_cases {row : Fin kSlotsPerShard → InFlightEntry} {nowMs : UInt64}
    {waitWindowMs : UInt32} {j} (h : scan row (fun slot =>
      terminalEntryExpired slot nowMs waitWindowMs || !slot.active) = some j) :
    terminalEntryExpired (row j) nowMs waitWindowMs ∨ (row j).active = false := by
  simpa using scan_some h

section

variable (registry : InFlightRegistry)

theorem registryRegister_change (nowMs : UInt64) (waitWindowMs maxWaitersPerKey : UInt32)
    (hkey : key.length < kInFlightKeySize) :
    TableChange hash registry.table (.register key nowMs waitWindowMs maxWaitersPerKey)
      (registryRegister hash registry key nowMs waitWindowMs maxWaitersPerKey).1.table
      (some (registryRegister hash registry key nowMs waitWindowMs maxWaitersPerKey).2) := by
  unfold registryRegister
  split
  next j hfound =>
    have hfor := findSlot_some hfound
    rw [table_setSlot]
    rcases registerExisting_cases nowMs waitWindowMs maxWaitersPerKey hkey hfor with
      hreject | hchg
    · change TableChange _ _ _
        (ShardedSlots.set registry.table _ j (registerExisting (registry.table _ j) _ _ _ _).1)
        (some (registerExisting (registry.table _ j) _ _ _ _).2)
      rw [hreject]
      have hset : ShardedSlots.set registry.table (shardOf hash key) j
          (registry.table (shardOf hash key) j) = registry.table := by
        simp [ShardedSlots.set]
      rw [hset]
      exact .same _ (by simp)
    · exact .change j _ _ hfor hchg
  next hnone =>
    split
    next j hreuse =>
      rw [table_setSlot]
      exact .take key nowMs waitWindowMs maxWaitersPerKey j rfl (findSlot_none hnone) hreuse
    · exact .same _ (by simp)

theorem updateEntry_change (op : RegistryOp) {update}
    (hupdate : ∀ entry entry', update entry = some entry' → EntryChange entry op entry' none) :
    TableChange hash registry.table op (updateEntry hash registry op.key update).1.table none := by
  unfold updateEntry
  dsimp only
  split
  · exact .same none (by simp)
  rename_i j hfound
  split
  · exact .same none (by simp)
  next entry hent =>
    rw [table_setSlot]
    exact .change j entry none (findSlot_some hfound) (hupdate _ _ hent)

theorem addWaiters_table (key : Text) (n : UInt32) :
    (addWaiters hash registry key n).table = registry.table := by
  funext s j
  unfold InFlightRegistry.table addWaiters
  by_cases hs : s = shardOf hash key
  · subst hs
    simp only [update_self]
  · simp only [update_of_ne hs]

/-- What a call can do. -/
theorem registryStep_change {op : RegistryOp} (hkey : op.KeyFits) :
    TableChange hash registry.table op (registryStep hash registry op).1.table
      (registryStep hash registry op).2 := by
  cases op with
  | register _ nowMs waitWindowMs maxWaitersPerKey =>
    exact registryRegister_change registry nowMs waitWindowMs maxWaitersPerKey hkey
  | completeWithResponse key statusCode contentType body nowMs =>
    unfold registryStep registryCompleteWithResponse registryCompleteState
    dsimp only
    split
    next hlarge =>
      apply updateEntry_change registry
        (.completeWithResponse key statusCode contentType body nowMs)
      rintro entry _ ⟨⟩
      exact .complete _ .notCacheable nowMs entry.sharedResponse (by
        rw [RegistryOp.completes, if_pos hlarge])
    next hfits =>
      apply updateEntry_change registry
        (.completeWithResponse key statusCode contentType body nowMs)
      rintro entry _ ⟨⟩
      exact .complete _ .stored nowMs _ (by rw [RegistryOp.completes, if_neg hfits])
  | completeState key state nowMs =>
    apply updateEntry_change registry (.completeState key state nowMs)
    rintro entry _ ⟨⟩
    exact .complete _ state nowMs entry.sharedResponse rfl
  | completeStateIfGeneration key expectedGeneration state nowMs =>
    apply updateEntry_change registry
      (.completeStateIfGeneration key expectedGeneration state nowMs)
    intro entry entry' hent
    split at hent
    · cases hent
    · cases hent
      exact .complete _ state nowMs entry.sharedResponse rfl
  | removeWaiter key =>
    apply updateEntry_change registry (.removeWaiter key)
    intro entry entry' hent
    split at hent
    next hwaits =>
      cases hent
      exact .leave key hwaits
    · cases hent
  | enterWait key =>
    rw [show (registryStep hash registry (.enterWait key)).1.table = registry.table from
      addWaiters_table registry key 1]
    exact .same none (by simp)
  | exitWait key =>
    rw [show (registryStep hash registry (.exitWait key)).1.table = registry.table from
      addWaiters_table registry key (-1)]
    exact .same none (by simp)

end

/-! ## A registry at rest -/

/-- No request waits for an entry, and the window has passed since each entry was made and since it was
    completed. -/
def InFlightRegistry.AtRest (registry : InFlightRegistry) (nowMs : UInt64) (waitWindowMs : UInt32) :
    Prop :=
  ∀ s j, (registry.table s j).active = true → (registry.table s j).waiterCount = 0 ∧
    windowPassed (registry.table s j).createdAtEpochMs nowMs waitWindowMs = true ∧
    windowPassed (registry.table s j).completedAtEpochMs nowMs waitWindowMs = true

end Hash

/-- Leaders for as many keys as a shard has slots, none of which completes. -/
def abandonedLeaders : List RegistryOp :=
  (List.range kSlotsPerShard).map fun n => .register (List.replicate n 'a') 0 1 1

end ByteTaper.Coalescing
