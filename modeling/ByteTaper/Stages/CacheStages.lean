import ByteTaper.Cache.CacheKey
import ByteTaper.Cache.L1Cache
import ByteTaper.Coalescing.FollowerWait
import ByteTaper.FieldSelection.RequestTarget

/-! # The stages that store a response

The stages of the store pipeline, as far as they act on the caches and on the registry of requests in
flight. They see the part of the context of an exchange that is in `CacheContext`. -/

namespace ByteTaper.Stages

open Apg Cache Coalescing FieldSelection Policy

def kL2BodyBufSize : Nat := 65536

/-- The context of an exchange, as far as the cache stages use it. A key that is not ready is `none`. -/
structure CacheContext extends ApgTransformContext where
  matchedPolicy : Option RoutePolicy := none
  requestMethod : HttpMethod := .get
  requestEpochMs : Int64 := 0
  cacheKey : Option Text := none
  variantCacheKey : Option Text := none
  variantAdmissionPassed : Bool := false
  responseStatusCode : UInt16 := 0
  responseContentType : Text := []
  responseBody : Text := []
  inputPayloadBytes : Nat := 0
  removedFieldCount : Nat := 0
  coalescingDecision : CoalescingDecision := { action := .leader, reason := .policyDisabled }

variable (context : CacheContext)

/-- The fields are selected and the route keeps variants of its responses. -/
def CacheContext.selectsVariant (policy : RoutePolicy) : Bool :=
  0 < context.selectedFields.length && policy.cache.fieldVariant.enabled

/-- A status from 200 to 299. -/
def CacheContext.is2xx : Bool :=
  200 ≤ context.responseStatusCode && context.responseStatusCode < 300

/-! ## Storing to L2 in the background -/

structure L2StoreJob where
  entry : CacheEntry
  /-- The key and the generation of the leader that the job completes. -/
  handoff : Option (Text × UInt64) := none

/-- The caches and the worker queue as the stage finds them; `none` stands for no worker queue. -/
structure StoreEnvironment where
  hasL2Cache : Bool
  asyncStoreMaxBodySize : Option Nat
  /-- What `worker_queue_try_enqueue_store` answers. -/
  accepts : Bool
  nowMs : UInt64

def expiresAt (requestEpochMs ttlMs : Int64) : Int64 :=
  if 0 < requestEpochMs then requestEpochMs + ttlMs else 0

def ttlMs (policy : RoutePolicy) : Int64 := Int64.ofNat policy.cache.ttlSeconds.toNat * 1000

/-- The time to live of a variant has a limit of its own. -/
def variantTtlMs (policy : RoutePolicy) : Int64 :=
  let limit := Int64.ofNat policy.cache.fieldVariant.ttlMaxMs.toNat
  if 0 < policy.cache.fieldVariant.ttlMaxMs && limit < ttlMs policy then limit else ttlMs policy

/-- The entry for the response of the exchange. -/
def responseEntry (key : Text) (ttlMs : Int64) : CacheEntry where
  key := key.take (kCacheKeyMaxLen - 1)
  statusCode := context.responseStatusCode
  contentType := context.responseContentType
  body := context.responseBody
  originalBodyLen := context.inputPayloadBytes
  removedFields := context.removedFieldCount.toUInt16
  createdAtEpochMs := context.requestEpochMs
  expiresAtEpochMs := expiresAt context.requestEpochMs ttlMs

/-- Only the leader of a key whose response fits the read buffer of the followers, but not L1, hands it
    over through L2. -/
def handsOver : Bool :=
  context.coalescingDecision.action = .leader && kL1MaxBodySize < context.responseBody.length &&
    context.responseBody.length ≤ kL2BodyBufSize

/-- The key and the time to live of the entry, or why the response is not stored. -/
def l2StoreKey (env : StoreEnvironment) : Except String (Text × Int64) :=
  match context.matchedPolicy with
  | none => .error "no-policy"
  | some policy =>
    if policy.cache.behavior ≠ .store then .error "cache-disabled"
    else if context.requestMethod ≠ .get then .error "non-get"
    else if !context.is2xx then .error "non-2xx"
    else if context.responseBody.isEmpty then .error "no-body"
    else if policy.cache.ttlSeconds = 0 then .error "no-ttl"
    else if !env.hasL2Cache then .error "no-l2-cache"
    else
      match env.asyncStoreMaxBodySize with
      | none => .error "no-worker-queue"
      | some maxBodySize =>
        if maxBodySize < context.responseBody.length then .error "body-too-large"
        else if context.selectsVariant policy then
          match context.variantCacheKey with
          | some key =>
            if context.variantAdmissionPassed then .ok (key, variantTtlMs policy)
            else .error "has-query-selection-not-admitted-skip"
          | none => .error "has-query-selection-not-admitted-skip"
        else
          match context.cacheKey with
          | some key => .ok (key, ttlMs policy)
          | none => .error "key-not-ready"

def l2StoreJob (key : Text) (ttlMs : Int64) : L2StoreJob where
  entry := responseEntry context key ttlMs
  handoff :=
    if handsOver context then
      some (context.coalescingDecision.key, context.coalescingDecision.lifecycleGeneration)
    else none

section Hash

variable (hash : Text → UInt64)

variable (registry : InFlightRegistry)

def completeHandoff (job : L2StoreJob) (state : InFlightCompletionState) (nowMs : UInt64) :
    InFlightRegistry :=
  match job.handoff with
  | some (key, generation) =>
    (registryCompleteStateIfGeneration hash registry key generation state nowMs).1
  | none => registry

/-- `l2_cache_async_store_enqueue_stage`, with the job if it is enqueued. -/
def l2CacheAsyncStoreEnqueueStage (context : CacheContext) (env : StoreEnvironment) :
    InFlightRegistry × Option L2StoreJob × StageOutput :=
  match l2StoreKey context env with
  | .error note => (registry, none, .goOn note)
  | .ok (key, ttlMs) =>
    let job := l2StoreJob context key ttlMs
    if env.accepts then (registry, some job, .goOn "enqueued")
    else
      (completeHandoff hash registry job .failed env.nowMs, none, .goOn "queue-full")

inductive L2PutResult where
  | stored | encodeError | bodyTooLarge | storageError

/-- `execute_store_job`, as far as it completes a leader; `none` if the queue has no L2 cache. -/
def executeStoreJob (job : L2StoreJob) (putResult : Option L2PutResult) (nowMs : UInt64) :
    InFlightRegistry :=
  match putResult with
  | some .stored => completeHandoff hash registry job .l2Ready nowMs
  | some .encodeError | some .bodyTooLarge | some .storageError | none =>
    completeHandoff hash registry job .failed nowMs

/-! ## Completing the leader -/

inductive CoalescingCompletionHandoffTarget where
  | l1Inline | l2Completion | notCacheable | storeToL2NoFollowerHandoff | tooLargeForL2

def decideCoalescingCompletionHandoff (bodyLen : Nat) : CoalescingCompletionHandoffTarget :=
  if bodyLen = 0 then .notCacheable
  else if bodyLen ≤ kL1MaxBodySize then .l1Inline
  else if bodyLen ≤ kL2BodyBufSize then .l2Completion
  else if bodyLen ≤ kL2MaxBodySize then .storeToL2NoFollowerHandoff
  else .tooLargeForL2

/-- The response can be handed to the followers. -/
def responseValid (context : CacheContext) : Bool :=
  context.cacheKey.isSome && context.is2xx && !context.responseBody.isEmpty

/-- The state that the leader publishes, and the note of the stage. For a response that goes through L2
    the state is left to the background job. -/
def leaderCompletion (context : CacheContext) : Option InFlightCompletionState × String :=
  if !responseValid context then
    (some (if context.is2xx then .notCacheable else .failed), "completed-cleared")
  else
    match decideCoalescingCompletionHandoff context.responseBody.length with
    | .l1Inline => (some .l1Ready, "completed-l1-ready")
    | .l2Completion => (none, "awaiting-l2-completion")
    | .storeToL2NoFollowerHandoff =>
      (some .tooLargeForHandoff, "awaiting-l2-completion-no-handoff")
    | .tooLargeForL2 | .notCacheable => (some .notCacheable, "completed-not-cacheable")

def coalescingLeaderCompletionStage (context : CacheContext) (nowMs : UInt64) :
    InFlightRegistry × StageOutput :=
  if context.coalescingDecision.action ≠ .leader then (registry, .goOn "not-leader")
  else
    let (state, note) := leaderCompletion context
    match state with
    | some state =>
      ((registryCompleteStateIfGeneration hash registry context.coalescingDecision.key
        context.coalescingDecision.lifecycleGeneration state nowMs).1, .goOn note)
    | none => (registry, .goOn note)

end Hash

end ByteTaper.Stages
