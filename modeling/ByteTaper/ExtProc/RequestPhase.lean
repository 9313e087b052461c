import ByteTaper.ExtProc.CachedExchange
import ByteTaper.ExtProc.DefaultPipelines
import ByteTaper.Pagination.RequestMutation

/-! # The request-headers phase

A request is answered from a cache, or it goes on to the upstream, perhaps with a new target. Between
them stands the lookup pipeline of its route. What the pipeline finds in the caches and in the registry
is given with the request; so is what the wait of a follower comes to. -/

namespace ByteTaper.ExtProc

open Apg Cache Coalescing Pagination Policy Stages ByteTaper.Runtime StageOutput

/-- What the lookup pipeline finds. -/
structure LookupEnvironment where
  epochs : Option RouteCacheEpochStore := none
  admissions : VariantAdmissionRegistry := []
  l1 : Option L1Cache := none
  hasL2Cache : Bool := false
  /-- What the worker queue answers, if there is one. -/
  acceptsLookup : Option Bool := none
  registry : InFlightRegistry := registryInit
  /-- The response that a follower gets in its wait, if it gets one. -/
  followerWait : CacheContext → Option CacheHit := fun _ => none

/-- The context with what the pipeline leaves for the answer. -/
structure LookupContext extends CacheContext where
  /-- `should_return_immediate_response` and `cached_response`. -/
  hit : Option CacheHit := none
  /-- The path of `request_mutation`, if it is applied. -/
  requestMutation : Option Text := none

/-- The part of the context that the coalescing decision looks at. -/
def coalescingRequest (context : CacheContext) (policy : RoutePolicy) : CoalescingRequest where
  policy
  method := context.requestMethod
  rawPath := context.rawPath
  rawQuery := context.rawQuery
  nowMs := context.requestEpochMs.toUInt64

open LookupContext

section Hash

variable (hash : Text → UInt64) (env : LookupEnvironment)

/-- `coalescing_decision_stage`. -/
def coalescingDecisionStage (context : CacheContext) : CacheContext × StageOutput :=
  match context.matchedPolicy with
  | none => (context, .goOn "")
  | some policy =>
    if !policy.coalescing.enabled then (context, .goOn "")
    else
      let decision := (evaluateCoalescingDecision hash env.registry
        (coalescingRequest context policy)).2
      ({ context with coalescingDecision := decision },
        if decision.action = .reject then { result := .error, note := lit "too-many-waiters" }
        else .goOn "")

variable (context : LookupContext)

/-- A hit of a lookup stage ends the pipeline. -/
def LookupContext.withHit : Option CacheHit × StageOutput → LookupContext × StageOutput
  | (none, output) => (context, output)
  | (some hit, output) => ({ context with hit := some hit }, output)

def LookupContext.withCache : CacheContext × StageOutput → LookupContext × StageOutput
  | (cache, output) => ({ context with toCacheContext := cache }, output)

/-- `coalescing_follower_wait_stage`, for what its wait comes to. Without a response the request goes on
    without coalescing. -/
def coalescingFollowerWaitStage : LookupContext × StageOutput :=
  if context.coalescingDecision.action = .follower then
    match env.followerWait context.toCacheContext with
    | some hit => ({ context with hit := some hit }, hitOutput "follower-hit")
    | none => ({ context with coalescingDecision.action := .bypass }, .goOn "fallback")
  else (context, .goOn "")

/-- `pagination_request_mutation_stage`. -/
def paginationRequestMutationStage : LookupContext × StageOutput :=
  match context.matchedPolicy.bind fun policy =>
      paginatedTarget policy.pagination context.rawPath context.rawQuery with
  | none => (context, .goOn "no-pagination-mutation")
  | some target => ({ context with requestMutation := some target }, .goOn "pagination-mutation")

/-- The stages of the lookup pipeline. The preparation of an invalidation writes to another part of the
    context, and the stages of the other pipelines are not run here. -/
def runLookupStage (scope : CacheScope) : ApgStage → LookupContext → LookupContext × StageOutput
  | .cacheKeyPrepare, context =>
    context.withCache (cacheKeyPrepareStage env.epochs scope context.toCacheContext)
  | .fieldVariantAdmission, context =>
    context.withCache (fieldVariantAdmissionStage env.admissions context.toCacheContext).2
  | .l1CacheLookup, context =>
    context.withHit (l1CacheLookupStage hash env.l1 context.toCacheContext)
  | .l1VariantLookup, context =>
    context.withHit (l1VariantLookupStage hash env.l1 context.toCacheContext)
  | .coalescingDecision, context =>
    context.withCache (coalescingDecisionStage hash env context.toCacheContext)
  | .coalescingFollowerWait, context => coalescingFollowerWaitStage env context
  | .l2CacheAsyncLookupEnqueue, context =>
    (context, (l2CacheAsyncLookupEnqueueStage context.hit.isSome env.hasL2Cache
      env.acceptsLookup context.toCacheContext).2)
  | .paginationRequestMutation, context => paginationRequestMutationStage context
  | _, context => (context, .goOn "")

/-- The stages that are run for a route: its own, or the default ones if it is not compiled. -/
def lookupStages (compiled : Bool) (policy : RoutePolicy) : List ApgStage :=
  if compiled then (compileRouteRuntime policy).lookupStages else kLookupStages

inductive RequestOutcome where
  /-- Answered with a response from a cache. -/
  | immediate (hit : CacheHit)
  /-- Sent on with a target. -/
  | forward (target : Text)
deriving DecidableEq

/-- The request-headers phase, with the state that it leaves for the response. -/
def onRequest (matchRoute : MatchRoute) (compiled : Bool) (request : CacheRequest) :
    StreamFilterState × RequestOutcome :=
  let state := onRequestHeaders matchRoute (some request.target) {}
  let context : LookupContext := { toCacheContext := requestContext state request }
  let context := match state.matchedPolicy with
    | none => context
    | some policy =>
      (runPipeline (runLookupStage hash env request.scope) (lookupStages compiled policy) context).1
  (state, match context.hit with
    | some hit => .immediate hit
    | none => .forward (context.requestMutation.getD request.target))

/-! ## What the pipeline comes to -/

variable (scope : CacheScope) (context : CacheContext)

/-- The context in which the caches are looked up. -/
def preparedContext : CacheContext :=
  (fieldVariantAdmissionStage env.admissions (cacheKeyPrepareStage env.epochs scope context).1).2.1

/-- The response that a cache has for the request: one under its raw key, one under its variant key,
    or, if the request follows another one, what its wait finds. -/
def cachedAnswer : Option CacheHit :=
  let prepared := preparedContext env scope context
  let decided := (coalescingDecisionStage hash env prepared).1
  (l1CacheLookupStage hash env.l1 prepared).1.or <|
    (l1VariantLookupStage hash env.l1 prepared).1.or <|
      if decided.coalescingDecision.action = .follower then env.followerWait decided
      else none

/-- The registry rejects the request, which ends the pipeline in front of the pagination. -/
def rejectedByCoalescing : Bool :=
  let prepared := preparedContext env scope context
  (coalescingDecisionStage hash env prepared).2.result ≠ .continue

variable {env hash}

theorem cacheKeyPrepareStage_continue :
    (cacheKeyPrepareStage env.epochs scope context).2.result = .continue := by
  unfold cacheKeyPrepareStage
  dsimp only
  repeat' split
  all_goals rfl

theorem fieldVariantAdmissionStage_continue :
    (fieldVariantAdmissionStage env.admissions context).2.2.result = .continue := by
  unfold fieldVariantAdmissionStage
  dsimp only
  repeat' split
  all_goals rfl

variable {l1 : Option L1Cache} {context : CacheContext} {policy : RoutePolicy}
  {request : CacheRequest}

/-- A lookup goes on just if it has found nothing. -/
theorem lookupL1_continue_iff {key : Option Text} {layer hitNote : String} :
    (lookupL1 hash l1 context key layer hitNote).2.result = .continue ↔
      (lookupL1 hash l1 context key layer hitNote).1 = none := by
  unfold lookupL1
  split
  · simp [goOn]
  · simp [goOn]
  · split <;> simp [goOn, hitOutput]

theorem l1CacheLookupStage_continue_iff :
    (l1CacheLookupStage hash l1 context).2.result = .continue ↔
      (l1CacheLookupStage hash l1 context).1 = none := by
  unfold l1CacheLookupStage
  split
  · simp [goOn]
  · split
    · simp [goOn]
    · exact lookupL1_continue_iff

theorem l1VariantLookupStage_continue_iff :
    (l1VariantLookupStage hash l1 context).2.result = .continue ↔
      (l1VariantLookupStage hash l1 context).1 = none := by
  unfold l1VariantLookupStage
  split
  · simp [goOn]
  · split
    · simp [goOn]
    · split
      · simp [goOn]
      · exact lookupL1_continue_iff

theorem l2CacheAsyncLookupEnqueueStage_continue (cacheHit hasL2Cache : Bool)
    (accepts : Option Bool) (context : CacheContext) :
    (l2CacheAsyncLookupEnqueueStage cacheHit hasL2Cache accepts context).2.result = .continue := by
  unfold l2CacheAsyncLookupEnqueueStage
  repeat' split
  all_goals rfl

/-- The preparation fills in the keys and the admission, and nothing else. -/
theorem preparedContext_frame (context : CacheContext) :
    (preparedContext env scope context).toApgTransformContext = context.toApgTransformContext ∧
      (preparedContext env scope context).matchedPolicy = context.matchedPolicy := by
  obtain ⟨passed, hadm, -⟩ := fieldVariantAdmissionStage_frame env.admissions
    (cacheKeyPrepareStage env.epochs scope context).1
  rw [preparedContext, hadm]
  exact cacheKeyPrepareStage_frame _ _ _

/-- The decision goes on unless the registry rejects the request. -/
theorem coalescingDecisionStage_reject
    (h : (coalescingDecisionStage hash env context).2.result ≠ .continue) :
    (coalescingDecisionStage hash env context).1.coalescingDecision.action = .reject := by
  unfold coalescingDecisionStage at h ⊢
  cases hpol : context.matchedPolicy with
  | none => simp [hpol, goOn] at h
  | some =>
    rw [hpol] at h
    dsimp only at h ⊢
    split at h
    · exact absurd rfl h
    next hon =>
      rw [if_neg hon]
      split at h
      · assumption
      · exact absurd rfl h

section

variable (context : LookupContext)

@[simp] theorem LookupContext.withCache_fst (result : CacheContext × StageOutput) :
    (context.withCache result).1 = { context with toCacheContext := result.1 } := rfl

@[simp] theorem LookupContext.withCache_snd (result : CacheContext × StageOutput) :
    (context.withCache result).2 = result.2 := rfl

@[simp] theorem LookupContext.withHit_fst (result : Option CacheHit × StageOutput) :
    (context.withHit result).1 = { context with hit := result.1.or context.hit } := by
  obtain ⟨_ | hit, output⟩ := result <;> rfl

@[simp] theorem LookupContext.withHit_snd (result : Option CacheHit × StageOutput) :
    (context.withHit result).2 = result.2 := by
  obtain ⟨_ | hit, output⟩ := result <;> rfl

end

/-- The pagination stage is the last one. -/
theorem paginationStage_spec {context : LookupContext}
    (hpol : context.matchedPolicy = some policy) (hmut : context.requestMutation = none) :
    (paginationRequestMutationStage context).1.hit = context.hit ∧
      (paginationRequestMutationStage context).1.requestMutation =
        paginatedTarget policy.pagination context.rawPath context.rawQuery := by
  unfold paginationRequestMutationStage
  rw [hpol, Option.bind_some]
  cases paginatedTarget policy.pagination context.rawPath context.rawQuery with
  | none => exact ⟨rfl, hmut⟩
  | some => exact ⟨rfl, rfl⟩

/-- What the stages behind the lookups come to, for a request that found nothing. -/
theorem runPipeline_coalescingStages (hpol : context.matchedPolicy = some policy) :
    let decision := coalescingDecisionStage hash env context
    let result := (runPipeline (runLookupStage hash env scope)
      [.coalescingDecision, .coalescingFollowerWait, .l2CacheAsyncLookupEnqueue,
        .paginationRequestMutation] { toCacheContext := context }).1
    result.hit = (if decision.1.coalescingDecision.action = .follower then
        env.followerWait decision.1 else none) ∧
      (result.hit = none → result.requestMutation = if decision.2.result ≠ .continue then none
        else paginatedTarget policy.pagination context.rawPath context.rawQuery) := by
  intro decision result
  obtain ⟨htr, hmat⟩ : decision.1.toApgTransformContext =
      context.toApgTransformContext ∧ decision.1.matchedPolicy = context.matchedPolicy := by
    unfold decision coalescingDecisionStage
    repeat' split
    all_goals exact ⟨rfl, rfl⟩
  have hres : result = if decision.2.result = .continue then
        if (coalescingFollowerWaitStage env { toCacheContext := decision.1 }).2.result =
            .continue then
          (paginationRequestMutationStage
            (coalescingFollowerWaitStage env { toCacheContext := decision.1 }).1).1
        else (coalescingFollowerWaitStage env { toCacheContext := decision.1 }).1
      else { toCacheContext := decision.1 } := by
    rw [show result = (runPipeline _ [_, _, _, _] _).1 from rfl, runPipeline_cons_fst,
      runPipeline_cons_fst, runPipeline_cons_fst]
    simp only [runLookupStage, withCache_fst, withCache_snd,
      l2CacheAsyncLookupEnqueueStage_continue, if_true]
    rfl
  by_cases hcont : decision.2.result = .continue
  · rw [hres, if_pos hcont, if_neg (not_not_intro hcont), coalescingFollowerWaitStage]
    have hpaginate : ∀ context' : LookupContext,
        context'.toApgTransformContext = context.toApgTransformContext →
        context'.matchedPolicy = context.matchedPolicy → context'.requestMutation = none →
        (paginationRequestMutationStage context').1.hit = context'.hit ∧
          (paginationRequestMutationStage context').1.requestMutation =
            paginatedTarget policy.pagination context.rawPath context.rawQuery := by
      intro context' htr' hmat' hmut
      rw [← htr']
      exact paginationStage_spec (hmat'.trans hpol) hmut
    split
    · cases hwait : env.followerWait decision.1 with
      | some => simp [hitOutput]
      | none =>
        obtain ⟨hhit, hmut⟩ := hpaginate
          { toCacheContext := { decision.1 with coalescingDecision.action := .bypass } }
          htr hmat rfl
        exact ⟨hhit, fun _ => hmut⟩
    · obtain ⟨hhit, hmut⟩ := hpaginate { toCacheContext := decision.1 } htr hmat rfl
      exact ⟨hhit, fun _ => hmut⟩
  · -- A request that is rejected is not a follower.
    have hreject := coalescingDecisionStage_reject hcont
    rw [hres, if_neg hcont, if_pos hcont]
    simp [decision, hreject]

/-- What the default stages come to. -/
theorem runPipeline_kLookupStages (hpol : context.matchedPolicy = some policy) :
    let result := (runPipeline (runLookupStage hash env scope) kLookupStages
      { toCacheContext := context }).1
    result.hit = cachedAnswer hash env scope context ∧
      (result.hit = none → result.requestMutation =
        if rejectedByCoalescing hash env scope context then none
        else paginatedTarget policy.pagination context.rawPath context.rawQuery) := by
  intro result
  let prepared := preparedContext env scope context
  let raw := (l1CacheLookupStage hash env.l1 prepared).1
  let variant := (l1VariantLookupStage hash env.l1 prepared).1
  obtain ⟨htr, hmat⟩ : prepared.toApgTransformContext = context.toApgTransformContext ∧
      prepared.matchedPolicy = context.matchedPolicy := preparedContext_frame scope context
  have hres : result = if raw = none then
        if variant = none then
          (runPipeline (runLookupStage hash env scope)
            [.coalescingDecision, .coalescingFollowerWait, .l2CacheAsyncLookupEnqueue,
              .paginationRequestMutation]
            { toCacheContext := prepared, hit := variant.or (raw.or none) }).1
        else { toCacheContext := prepared, hit := variant.or (raw.or none) }
      else { toCacheContext := prepared, hit := raw.or none } := by
    rw [show result = (runPipeline _ kLookupStages _).1 from rfl, kLookupStages,
      runPipeline_cons_fst, runPipeline_cons_fst, runPipeline_cons_fst, runPipeline_cons_fst,
      runPipeline_cons_fst]
    simp only [runLookupStage, withCache_fst, withCache_snd,
      withHit_fst, withHit_snd, cacheKeyPrepareStage_continue,
      fieldVariantAdmissionStage_continue, l1CacheLookupStage_continue_iff,
      l1VariantLookupStage_continue_iff, goOn, if_true]
    rfl
  have hans : cachedAnswer hash env scope context =
      raw.or (variant.or (if (coalescingDecisionStage hash env
          prepared).1.coalescingDecision.action = .follower then
        env.followerWait (coalescingDecisionStage hash env prepared).1
      else none)) := rfl
  rw [hres, hans]
  cases raw with
  | some => simp
  | none =>
    cases variant with
    | some => simp
    | none =>
      have hcoal := @runPipeline_coalescingStages hash env scope prepared policy (hmat.trans hpol)
      rw [htr] at hcoal
      simpa [rejectedByCoalescing] using hcoal

/-! ## Compiled routes -/

/-- The lookup stages of a route, by the features that it uses. -/
def lookupStageUsed (invalidates stores variants coalesces paginates : Bool) : ApgStage → Bool
  | .mutationInvalidationPrepare => invalidates
  | .cacheKeyPrepare | .l1CacheLookup | .l2CacheAsyncLookupEnqueue => stores
  | .fieldVariantAdmission | .l1VariantLookup => stores && variants
  | .coalescingDecision | .coalescingFollowerWait => coalesces
  | .paginationRequestMutation => paginates
  | _ => false

/-- The lookup stages that the policy asks for. -/
def needsLookupStage (policy : RoutePolicy) : ApgStage → Bool :=
  lookupStageUsed policy.cache.invalidation.enabled (decide (policy.cache.behavior = .store))
    policy.cache.fieldVariant.enabled policy.coalescing.enabled policy.pagination.enabled

theorem compileRouteRuntime_lookupStages (policy : RoutePolicy) :
    (compileRouteRuntime policy).lookupStages = kLookupStages.filter (needsLookupStage policy) := by
  have hlists : ∀ invalidates stores variants coalesces paginates,
      stagesIf invalidates [.mutationInvalidationPrepare] ++
        stagesIf stores ([.cacheKeyPrepare] ++ stagesIf variants [.fieldVariantAdmission] ++
          [.l1CacheLookup] ++ stagesIf variants [.l1VariantLookup]) ++
        stagesIf coalesces [.coalescingDecision, .coalescingFollowerWait] ++
        stagesIf stores [.l2CacheAsyncLookupEnqueue] ++
        stagesIf paginates [.paginationRequestMutation] =
      kLookupStages.filter (lookupStageUsed invalidates stores variants coalesces paginates) := by
    decide
  exact hlists _ _ _ _ _

/-- What a stage finds that its policy does not ask for: no key, no admission, no follower. -/
structure LookupInv (policy : RoutePolicy) (context : LookupContext) : Prop where
  matched : context.matchedPolicy = some policy
  cacheKey : policy.cache.behavior ≠ .store → context.cacheKey = none
  variant : (decide (policy.cache.behavior = .store) && policy.cache.fieldVariant.enabled) = false →
    context.variantCacheKey = none ∧ context.variantAdmissionPassed = false
  coalescing : policy.coalescing.enabled = false →
    context.coalescingDecision.action ≠ .follower

section

variable {scope : CacheScope} {stage : ApgStage} {context : LookupContext}
  (hinv : LookupInv policy context)

include hinv

theorem LookupInv.step : LookupInv policy (runLookupStage hash env scope stage context).1 := by
  obtain ⟨hmat, hkey, hvar, hcoal⟩ := hinv
  cases stage with
  | cacheKeyPrepare =>
    simp only [runLookupStage, withCache_fst]
    rcases cacheKeyPrepareStage_cases env.epochs scope context.toCacheContext with
      hnone | ⟨policy', epoch, key, hready, -, hkeys⟩
    · rw [hnone]
      exact ⟨hmat, fun _ => rfl, fun h => ⟨rfl, (hvar h).2⟩, hcoal⟩
    · obtain rfl := Option.some.inj (hmat.symm.trans hready.matched)
      rw [hkeys]
      refine ⟨hmat, fun h => absurd hready.stores h, fun h => ⟨?_, (hvar h).2⟩, hcoal⟩
      have hoff : policy.cache.fieldVariant.enabled = false := by
        simpa [hready.stores] using h
      simp [hoff]
  | fieldVariantAdmission =>
    obtain ⟨passed, hadm, hpass⟩ := fieldVariantAdmissionStage_frame
      env.admissions context.toCacheContext
    simp only [runLookupStage, withCache_fst, hadm]
    refine ⟨hmat, hkey, fun h => ⟨(hvar h).1, ?_⟩, hcoal⟩
    -- Without a variant key no variant is admitted.
    refine Bool.eq_false_iff.mpr fun htrue => ?_
    simpa [(hvar h).1] using (hpass htrue).1
  | coalescingDecision =>
    simp only [runLookupStage, withCache_fst, coalescingDecisionStage, hmat]
    split
    · exact ⟨hmat, hkey, hvar, hcoal⟩
    next hon =>
      exact ⟨rfl, hkey, hvar, fun h => absurd h (by simpa using hon)⟩
  | coalescingFollowerWait =>
    simp only [runLookupStage, coalescingFollowerWaitStage]
    split
    · split
      · exact ⟨hmat, hkey, hvar, hcoal⟩
      · exact ⟨hmat, hkey, hvar, fun _ => by simp⟩
    · exact ⟨hmat, hkey, hvar, hcoal⟩
  | l1CacheLookup | l1VariantLookup =>
    simp only [runLookupStage, withHit_fst]
    exact ⟨hmat, hkey, hvar, hcoal⟩
  | paginationRequestMutation =>
    simp only [runLookupStage, paginationRequestMutationStage]
    split <;> exact ⟨hmat, hkey, hvar, hcoal⟩
  | _ => exact ⟨hmat, hkey, hvar, hcoal⟩

/-- A stage that the policy does not ask for does nothing. -/
theorem LookupInv.step_unused (hneeds : needsLookupStage policy stage = false) :
    (runLookupStage hash env scope stage context).1 = context ∧
      (runLookupStage hash env scope stage context).2.result = .continue := by
  obtain ⟨hmat, hkey, hvar, hcoal⟩ := hinv
  cases stage with
  | cacheKeyPrepare =>
    have hstore : policy.cache.behavior ≠ .store := of_decide_eq_false hneeds
    have hnone := hkey hstore
    have hvariantNone := (hvar (by simp [hstore])).1
    obtain ⟨⟨⟩, hit, mutation⟩ := context
    simp_all [runLookupStage, cacheKeyPrepareStage, goOn]
  | fieldVariantAdmission =>
    obtain ⟨hnone, hadm⟩ := hvar hneeds
    obtain ⟨⟨⟩, hit, mutation⟩ := context
    simp_all [runLookupStage, fieldVariantAdmissionStage, goOn]
  | l1CacheLookup =>
    have hstore : policy.cache.behavior ≠ .store := of_decide_eq_false hneeds
    simp [runLookupStage, l1CacheLookupStage, hmat, hstore, goOn]
  | l1VariantLookup =>
    by_cases hstore : policy.cache.behavior = .store
    · have hoff : policy.cache.fieldVariant.enabled = false := by
        simpa [needsLookupStage, lookupStageUsed, hstore] using hneeds
      simp [runLookupStage, l1VariantLookupStage, hmat, hstore, hoff, goOn]
    · simp [runLookupStage, l1VariantLookupStage, hmat, hstore, goOn]
  | coalescingDecision =>
    have hoff : policy.coalescing.enabled = false := hneeds
    simp [runLookupStage, coalescingDecisionStage, hmat, hoff, goOn]
  | coalescingFollowerWait =>
    simp [runLookupStage, coalescingFollowerWaitStage, hcoal hneeds, goOn]
  | l2CacheAsyncLookupEnqueue => exact ⟨rfl, l2CacheAsyncLookupEnqueueStage_continue _ _ _ _⟩
  | paginationRequestMutation =>
    have hoff : policy.pagination.enabled = false := hneeds
    simp [runLookupStage, paginationRequestMutationStage, hmat, paginatedTarget, hoff, goOn]
  | _ => exact ⟨rfl, rfl⟩

end

/-- A compiled route does what the default stages do. -/
theorem runPipeline_lookupStages {state : StreamFilterState}
    (hpol : state.matchedPolicy = some policy) (compiled : Bool) :
    (runPipeline (runLookupStage hash env request.scope)
        (lookupStages compiled policy) { toCacheContext := requestContext state request }).1 =
      (runPipeline (runLookupStage hash env request.scope) kLookupStages
        { toCacheContext := requestContext state request }).1 := by
  cases compiled with
  | false => rfl
  | true =>
    have hinv : LookupInv policy { toCacheContext := requestContext state request } :=
      ⟨hpol, fun _ => rfl, fun _ => ⟨rfl, rfl⟩, fun _ => by simp [requestContext]⟩
    rw [show lookupStages true policy = kLookupStages.filter (needsLookupStage policy) from
      compileRouteRuntime_lookupStages policy]
    exact runPipeline_filter (fun stage _ context h => h.step)
      (fun stage _ hneeds context h => h.step_unused hneeds) hinv

/-- The outcome of the request phase on a route: what a cache has, or the target that the pagination
    makes unless the registry has rejected the request. -/
theorem onRequest_outcome {matchRoute} {compiled : Bool}
    (hpol : (onRequestHeaders matchRoute (some request.target) {}).matchedPolicy = some policy) :
    let context := requestContext (onRequestHeaders matchRoute (some request.target) {}) request
    (onRequest hash env matchRoute compiled request).2 =
      match cachedAnswer hash env request.scope context with
      | some hit => .immediate hit
      | none => .forward ((if rejectedByCoalescing hash env request.scope context then none
            else paginatedTarget policy.pagination context.rawPath context.rawQuery).getD
            request.target) := by
  intro context
  obtain ⟨hhit, hmut⟩ := @runPipeline_kLookupStages hash env request.scope context policy hpol
  simp only [onRequest, hpol, runPipeline_lookupStages hpol]
  rw [hhit] at hmut ⊢
  cases hans : cachedAnswer hash env request.scope context with
  | some => rfl
  | none => rw [hmut hans]

end Hash

end ByteTaper.ExtProc
