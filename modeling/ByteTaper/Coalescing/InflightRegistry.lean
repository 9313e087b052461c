import ByteTaper.Library.ShardedSlots
import ByteTaper.Library.Text
import Mathlib.Algebra.GroupWithZero.Nat

/-! # The registry of requests in flight

`inflight_registry.cpp`: the first request for a key leads, and those that come while it is in flight
follow and wait for it. Each function holds the mutex of one shard, so that it is one step. A follower
that waits lets go of the mutex; `waitStart` is what it does before, and `waitWake` what it does each
time it is woken. -/

namespace ByteTaper.Coalescing

def kInFlightShards : Nat := 8
def kSlotsPerShard : Nat := 16
def kInFlightKeySize : Nat := 256
def kCoalescingSharedBodyMaxSize : Nat := 65536
def kCoalescingContentTypeMaxLen : Nat := 64

instance : NeZero kInFlightShards := ⟨by decide⟩
instance : NeZero kSlotsPerShard := ⟨by decide⟩

inductive InFlightRole where
  | leader | follower | reject
deriving DecidableEq

structure RegistryRegistrationResult where
  role : InFlightRole
  lifecycleGeneration : UInt64 := 0

inductive InFlightCompletionState where
  | inFlight | stored | notCacheable | failed | l1Ready | l2Ready | tooLargeForHandoff
deriving DecidableEq

def isTerminal (state : InFlightCompletionState) : Bool := state ≠ .inFlight

structure InFlightSharedResponse where
  statusCode : UInt16 := 0
  contentType : Text := []
  body : Text := []
  ready : Bool := false

structure InFlightEntry where
  key : Text := []
  createdAtEpochMs : UInt64 := 0
  completedAtEpochMs : UInt64 := 0
  waiterCount : UInt32 := 0
  active : Bool := false
  state : InFlightCompletionState := .inFlight
  lifecycleGeneration : UInt64 := 0
  sharedResponse : InFlightSharedResponse := {}

structure InFlightShard where
  activeWaiters : UInt32 := 0
  slots : Fin kSlotsPerShard → InFlightEntry := fun _ => {}

structure InFlightRegistry where
  activeWaiters : UInt32 := 0
  shards : Fin kInFlightShards → InFlightShard := fun _ => {}

/-- `registry_init`, of a registry that was just made. -/
def registryInit : InFlightRegistry := {}

/-- The window has passed since a time; the sum is 64 bits wide. -/
def windowPassed (since nowMs : UInt64) (waitWindowMs : UInt32) : Bool :=
  since + waitWindowMs.toUInt64 ≤ nowMs

variable (entry : InFlightEntry) (key : Text) (nowMs : UInt64)
  (waitWindowMs maxWaitersPerKey : UInt32)

def terminalEntryExpired : Bool :=
  entry.active && isTerminal entry.state && !(0 < entry.waiterCount) &&
    windowPassed entry.completedAtEpochMs nowMs waitWindowMs

/-- `strncpy` into the key of an entry. -/
def keyCopy : Text := key.take (kInFlightKeySize - 1)

def InFlightEntry.isFor : Bool := entry.active && entry.key == key

/-- The entry with a new leader. -/
def newLeader : InFlightEntry :=
  { entry with
    state := .inFlight, sharedResponse := {}, createdAtEpochMs := nowMs, waiterCount := 0
    active := true, lifecycleGeneration := entry.lifecycleGeneration + 1 }

/-- A slot that is free, or is made free, with its first leader. -/
def firstLeader : InFlightEntry :=
  { newLeader entry nowMs with key := keyCopy key, completedAtEpochMs := 0 }

/-- Another request joins the entry, if there is room for it. -/
def joinEntry : InFlightEntry × RegistryRegistrationResult :=
  if entry.waiterCount < maxWaitersPerKey then
    ({ entry with waiterCount := entry.waiterCount + 1 },
      { role := .follower, lifecycleGeneration := entry.lifecycleGeneration })
  else (entry, { role := .reject })

def answerLeader : InFlightEntry × RegistryRegistrationResult :=
  (entry, { role := .leader, lifecycleGeneration := entry.lifecycleGeneration })

/-- A request for the key of an active entry. An entry in the states `L2Ready` and
    `TooLargeForHandoff` is treated as one in flight. -/
def registerExisting : InFlightEntry × RegistryRegistrationResult :=
  match entry.state with
  | .stored | .l1Ready =>
    if windowPassed entry.completedAtEpochMs nowMs waitWindowMs then
      answerLeader (newLeader entry nowMs)
    else joinEntry entry maxWaitersPerKey
  | .notCacheable | .failed => answerLeader (newLeader entry nowMs)
  | .inFlight | .l2Ready | .tooLargeForHandoff =>
    if windowPassed entry.createdAtEpochMs nowMs waitWindowMs then
      answerLeader { newLeader entry nowMs with key := keyCopy key }
    else joinEntry entry maxWaitersPerKey

section Hash

-- `hash_cstr_runtime`, which is keyed with the seed of the process.
variable (hash : Text → UInt64)

def shardOf (key : Text) : Fin kInFlightShards :=
  Fin.ofNat kInFlightShards (hash key).toNat

variable (registry : InFlightRegistry)

def setSlot (s : Fin kInFlightShards) (j : Fin kSlotsPerShard) (entry : InFlightEntry) :
    InFlightRegistry :=
  { registry with
    shards := Function.update registry.shards s
      { registry.shards s with slots := Function.update (registry.shards s).slots j entry } }

variable (key : Text) (nowMs : UInt64) (waitWindowMs maxWaitersPerKey : UInt32)

/-- The slot of the active entry for a key. -/
def findSlot : Option (Fin kSlotsPerShard) :=
  ShardedSlots.scan (registry.shards (shardOf hash key)).slots (·.isFor key)

/-- The first slot that is free or holds an expired terminal entry. -/
def reusableSlot : Option (Fin kSlotsPerShard) :=
  ShardedSlots.scan (registry.shards (shardOf hash key)).slots fun slot =>
    terminalEntryExpired slot nowMs waitWindowMs || !slot.active

def registryRegister : InFlightRegistry × RegistryRegistrationResult :=
  let s := shardOf hash key
  match findSlot hash registry key with
  | some j =>
    let (entry, result) := registerExisting ((registry.shards s).slots j) key nowMs waitWindowMs
      maxWaitersPerKey
    (setSlot registry s j entry, result)
  | none =>
    match reusableSlot hash registry key nowMs waitWindowMs with
    | some j =>
      let (entry, result) :=
        answerLeader (firstLeader ((registry.shards s).slots j) key nowMs)
      (setSlot registry s j entry, result)
    | none => (registry, { role := .reject })

/-- What the functions below do: change the active entry for a key, if there is one. -/
def updateEntry (update : InFlightEntry → Option InFlightEntry) : InFlightRegistry × Bool :=
  let s := shardOf hash key
  match findSlot hash registry key with
  | none => (registry, false)
  | some j =>
    match update ((registry.shards s).slots j) with
    | none => (registry, false)
    | some entry => (setSlot registry s j entry, true)

def registryCompleteState (state : InFlightCompletionState) (nowMs : UInt64) :
    InFlightRegistry × Bool :=
  updateEntry hash registry key fun entry =>
    some { entry with state, completedAtEpochMs := nowMs }

def registryCompleteWithResponse (statusCode : UInt16) (contentType : Option Text) (body : Text)
    (nowMs : UInt64) : InFlightRegistry × Bool :=
  if kCoalescingSharedBodyMaxSize < body.length then
    registryCompleteState hash registry key .notCacheable nowMs
  else
    updateEntry hash registry key fun entry =>
      some { entry with
        state := .stored, completedAtEpochMs := nowMs
        sharedResponse :=
          { statusCode
            contentType := (contentType.getD []).take (kCoalescingContentTypeMaxLen - 1)
            body, ready := true } }

/-- The generation `0` stands for any. -/
def registryCompleteStateIfGeneration (expectedGeneration : UInt64)
    (state : InFlightCompletionState) (nowMs : UInt64) : InFlightRegistry × Bool :=
  updateEntry hash registry key fun entry =>
    if expectedGeneration ≠ 0 ∧ entry.lifecycleGeneration ≠ expectedGeneration then none
    else some { entry with state, completedAtEpochMs := nowMs }

def registryRemoveWaiter : InFlightRegistry :=
  (updateEntry hash registry key fun entry =>
    if 0 < entry.waiterCount then some { entry with waiterCount := entry.waiterCount - 1 }
    else none).1

/-! ## Waiting -/

inductive RegistryWaitResult where
  | sharedResponseReady | storedButNoSnapshot | notCacheable | failed | timeout | missing | l1Ready
  | expired | l2Ready | tooLargeForHandoff
deriving DecidableEq

/-- What a terminal entry tells a follower. -/
def terminalResult (entry : InFlightEntry) : Option RegistryWaitResult :=
  match entry.state with
  | .inFlight => none
  | .stored => if entry.sharedResponse.ready then some .sharedResponseReady
      else some .storedButNoSnapshot
  | .l1Ready => some .l1Ready
  | .l2Ready => some .l2Ready
  | .tooLargeForHandoff => some .tooLargeForHandoff
  | .notCacheable => some .notCacheable
  | .failed => some .failed

inductive WaitStart where
  | result (result : RegistryWaitResult)
  /-- The follower waits for the slot. -/
  | blocked (j : Fin kSlotsPerShard)

/-- `registry_wait_for_completion` up to the wait. -/
def waitStart (expectedGeneration : UInt64) : WaitStart :=
  match findSlot hash registry key with
  | none => .result .missing
  | some j =>
    let entry := (registry.shards (shardOf hash key)).slots j
    if expectedGeneration ≠ 0 ∧ entry.lifecycleGeneration ≠ expectedGeneration then
      .result .expired
    else
      match terminalResult entry with
      | some result => .result result
      | none => .blocked j

/-- What a follower that waits for a slot does when it is woken: `none` to wait on. -/
def waitWake (entry : InFlightEntry) (expectedGeneration : UInt64) : Option RegistryWaitResult :=
  let changed := expectedGeneration ≠ 0 ∧ entry.lifecycleGeneration ≠ expectedGeneration
  if !entry.active ∨ changed then
    some (if expectedGeneration ≠ 0 then .expired else .missing)
  else terminalResult entry

variable (registry : InFlightRegistry) (key : Text)

/-- Add to the numbers of followers that wait, of the registry and of the shard of a key. -/
def addWaiters (n : UInt32) : InFlightRegistry :=
  let s := shardOf hash key
  { activeWaiters := registry.activeWaiters + n
    shards := Function.update registry.shards s
      { registry.shards s with activeWaiters := (registry.shards s).activeWaiters + n } }

def registryEnterWait : InFlightRegistry :=
  addWaiters hash registry key 1

def registryExitWait : InFlightRegistry :=
  addWaiters hash registry key (-1)

end Hash

end ByteTaper.Coalescing
