import ByteTaper.ExtProc.ResponseBody

/-! # The pipelines of a route

`default_pipelines.cpp`: each route of a snapshot has its own lists of stages, with the stages that its
policy asks for. Only the first routes of a snapshot have them; the others are run with the default
lists. The checks of `grpc_server.cpp` that choose between a pipeline and a shortcut are here too. -/

namespace ByteTaper.ExtProc

open Policy

inductive ApgStage where
  | mutationInvalidationPrepare | cacheKeyPrepare | fieldVariantAdmission | l1CacheLookup
  | l1VariantLookup | coalescingDecision | coalescingFollowerWait | l2CacheAsyncLookupEnqueue
  | paginationRequestMutation
  | l1CacheStore | l1VariantStore | l2CacheAsyncStoreEnqueue | coalescingLeaderCompletion
  | mutationInvalidationApply | compressionDecision
deriving DecidableEq

def kLookupStages : List ApgStage :=
  [.mutationInvalidationPrepare, .cacheKeyPrepare, .fieldVariantAdmission, .l1CacheLookup,
    .l1VariantLookup, .coalescingDecision, .coalescingFollowerWait, .l2CacheAsyncLookupEnqueue,
    .paginationRequestMutation]

def kStoreStages : List ApgStage :=
  [.l1CacheStore, .l1VariantStore, .l2CacheAsyncStoreEnqueue, .coalescingLeaderCompletion]

/-- The response stages of a route that is not compiled, as `grpc_server.cpp` has them. -/
def kCompressionStages : List ApgStage := [.compressionDecision]

def kMaxCompiledRoutesCapacity : Nat := 64

structure CompiledRouteRuntime where
  lookupStages : List ApgStage
  storeStages : List ApgStage
  responseStages : List ApgStage

/-- The stages, if the policy asks for them. -/
def stagesIf (condition : Bool) (stages : List ApgStage) : List ApgStage :=
  if condition then stages else []

def compileRouteRuntime (policy : RoutePolicy) : CompiledRouteRuntime :=
  let invalidates := policy.cache.invalidation.enabled
  let stores := decide (policy.cache.behavior = .store)
  let variants := policy.cache.fieldVariant.enabled
  { lookupStages :=
      stagesIf invalidates [.mutationInvalidationPrepare] ++
      stagesIf stores
        ([.cacheKeyPrepare] ++ stagesIf variants [.fieldVariantAdmission] ++ [.l1CacheLookup] ++
          stagesIf variants [.l1VariantLookup]) ++
      stagesIf policy.coalescing.enabled [.coalescingDecision, .coalescingFollowerWait] ++
      stagesIf stores [.l2CacheAsyncLookupEnqueue] ++
      stagesIf policy.pagination.enabled [.paginationRequestMutation]
    storeStages :=
      stagesIf stores
        ([.l1CacheStore] ++ stagesIf variants [.l1VariantStore] ++ [.l2CacheAsyncStoreEnqueue]) ++
      stagesIf policy.coalescing.enabled [.coalescingLeaderCompletion]
    responseStages :=
      stagesIf invalidates [.mutationInvalidationApply] ++ [.compressionDecision] }

theorem stagesIf_sublist (condition : Bool) {stages stages' : List ApgStage}
    (h : stages.Sublist stages') : (stagesIf condition stages).Sublist stages' := by
  unfold stagesIf
  split
  · exact h
  · exact List.nil_sublist _

open ApgStage

/-- The stages of a route are in the order of the default lists. -/
theorem lookupStages_sublist (policy : RoutePolicy) :
    (compileRouteRuntime policy).lookupStages.Sublist kLookupStages := by
  have hcache : ∀ variants, ([cacheKeyPrepare] ++ stagesIf variants [.fieldVariantAdmission] ++
      [l1CacheLookup] ++ stagesIf variants [.l1VariantLookup]).Sublist
      [cacheKeyPrepare, .fieldVariantAdmission, .l1CacheLookup, .l1VariantLookup] := by
    decide
  exact ((((stagesIf_sublist _ (.refl _)).append (stagesIf_sublist _ (hcache _))).append
    (stagesIf_sublist _ (.refl _))).append (stagesIf_sublist _ (.refl _))).append
    (stagesIf_sublist _ (.refl _))

theorem storeStages_sublist (policy : RoutePolicy) :
    (compileRouteRuntime policy).storeStages.Sublist kStoreStages := by
  have hcache : ∀ variants, ([l1CacheStore] ++ stagesIf variants [.l1VariantStore] ++
      [l2CacheAsyncStoreEnqueue]).Sublist
      [l1CacheStore, .l1VariantStore, .l2CacheAsyncStoreEnqueue] := by
    decide
  exact (stagesIf_sublist _ (hcache _)).append (stagesIf_sublist _ (.refl _))

abbrev CompiledRouteRuntimeTable := List CompiledRouteRuntime

def compileRouteRuntimeTable (policies : List RoutePolicy) : CompiledRouteRuntimeTable :=
  (policies.take kMaxCompiledRoutesCapacity).map compileRouteRuntime

/-- The entry for the route at a position of the snapshot. The server finds it by the address of the
    policy. -/
def findCompiledRouteRuntime (table : CompiledRouteRuntimeTable) (position : Nat) :
    Option CompiledRouteRuntime := table[position]?

/-! ## Shortcuts -/

def isCompressionOnlyRoute (policy : RoutePolicy) (state : StreamFilterState) : Bool :=
  policy.compression.enabled && !state.hasQuerySelection && policy.fieldFilter.mode = .none &&
    policy.cache.behavior ≠ .store && !policy.pagination.enabled && !policy.coalescing.enabled

/-- `route_needs_response_body_processing`, for a route that was matched. -/
def routeNeedsResponseBodyProcessing (policy : RoutePolicy) (state : StreamFilterState)
    (decisionFinal : Bool) : Bool :=
  state.hasQuerySelection || policy.fieldFilter.mode ≠ .none || policy.cache.behavior = .store ||
    !decisionFinal

end ByteTaper.ExtProc
