import ByteTaper.Apg.Pipeline
import ByteTaper.Policy.RoutePolicy
import ByteTaper.Runtime.RouteCacheEpochStore

/-! # Invalidation by mutations

`cache_invalidation_target_resolver.cpp` and the stages `mutation_invalidation_prepare_stage` and
`mutation_invalidation_apply_stage`: a request that changes something leaves a plan, and the response
to it, if it is a success, makes the plan bump the epochs of its targets. The metrics are left out. -/

namespace ByteTaper.Stages

open Apg Policy ByteTaper.Runtime

/-! ## The targets -/

def kMaxResolvedInvalidationTargets : Nat := 8
def kInvalidationRouteIdMaxLen : Nat := 64

inductive InvalidationTargetResolveStatus where
  | noPolicy | disabled | nonMutationMethod | methodNotEnabled | noTargets | tooManyTargets
  | unknownTargetRoute | targetNotGet | targetCacheDisabled | targetCacheNotStore
  | unsupportedStrategy | selfTarget | invalidArgument
deriving DecidableEq

structure ResolvedInvalidationTargets where
  routeIds : List Text
  successStatusMin : UInt16
  successStatusMax : UInt16
deriving DecidableEq

/-- A route without an id is passed over. -/
def findRouteById (routes : List RoutePolicy) (routeId : Text) : Option RoutePolicy :=
  routes.find? fun route => route.routeId.any fun id => !id.isEmpty && id == routeId

def invalidationPolicyAllowsMethod (invalidation : CacheInvalidationPolicy) : HttpMethod → Bool
  | .patch => invalidation.onPatch
  | .put => invalidation.onPut
  | .delete => invalidation.onDelete
  | .any | .get | .post => false

/-- The check of one target; the id is cut when it is copied. -/
def resolveTarget (routes : List RoutePolicy) (mutationRoute : RoutePolicy)
    (target : CacheInvalidationTargetPolicy) :
    Except (InvalidationTargetResolveStatus × String) Text :=
  if target.routeId.isEmpty then .error (.invalidArgument, "empty-target-route-id")
  else
    match findRouteById routes target.routeId with
    | none => .error (.unknownTargetRoute, "unknown-target-route")
    | some targetRoute =>
      if targetRoute.routeId = mutationRoute.routeId then .error (.selfTarget, "self-target")
      else if targetRoute.allowedMethod ≠ .get then .error (.targetNotGet, "target-not-get")
      else if !targetRoute.cache.enabled then
        .error (.targetCacheDisabled, "target-cache-disabled")
      else if targetRoute.cache.behavior ≠ .store then
        .error (.targetCacheNotStore, "target-cache-not-store")
      else if target.strategy ≠ .routeEpoch then
        .error (.unsupportedStrategy, "unsupported-strategy")
      else .ok (target.routeId.take (kInvalidationRouteIdMaxLen - 1))

/-- `resolve_invalidation_targets`; `none` stands for routes that are not there. -/
def resolveInvalidationTargets (routes : Option (List RoutePolicy)) (mutationRoute : RoutePolicy)
    (requestMethod : HttpMethod) :
    Except (InvalidationTargetResolveStatus × String) ResolvedInvalidationTargets :=
  match routes with
  | none => .error (.invalidArgument, "invalid-argument")
  | some routes =>
    let invalidation := mutationRoute.cache.invalidation
    if !invalidation.enabled then .error (.disabled, "no-invalidation-policy")
    else if requestMethod ≠ .patch ∧ requestMethod ≠ .put ∧ requestMethod ≠ .delete then
      .error (.nonMutationMethod, "non-mutation-method")
    else if !invalidationPolicyAllowsMethod invalidation requestMethod then
      .error (.methodNotEnabled, "method-not-enabled")
    else if invalidation.targets.isEmpty then .error (.noTargets, "no-targets")
    else if kMaxResolvedInvalidationTargets < invalidation.targets.length then
      .error (.tooManyTargets, "too-many-targets")
    else
      (invalidation.targets.mapM (resolveTarget routes mutationRoute)).map fun routeIds =>
        { routeIds := routeIds
          successStatusMin := invalidation.successStatusMin
          successStatusMax := invalidation.successStatusMax }

/-! ## The plan -/

inductive MutationInvalidationDecision where
  | none | prepared | applied | skippedNoPolicy | skippedNonMutationMethod
  | skippedMethodNotEnabled | skippedStatusNotSuccessful | failedEpochStoreMissing | failedEpochBump

structure PendingMutationInvalidationPlan where
  prepared : Bool := false
  applied : Bool := false
  skipped : Bool := false
  failed : Bool := false
  decision : MutationInvalidationDecision := .none
  successStatusMin : UInt16 := 200
  successStatusMax : UInt16 := 299
  targets : List Text := []
  reason : Text := []

/-- The plan was carried out or given up. -/
def PendingMutationInvalidationPlan.isFinal (plan : PendingMutationInvalidationPlan) : Bool :=
  plan.applied || plan.skipped || plan.failed

def PendingMutationInvalidationPlan.accepts (plan : PendingMutationInvalidationPlan)
    (statusCode : UInt16) : Bool :=
  !(statusCode < plan.successStatusMin || plan.successStatusMax < statusCode)

def skippedDecision : InvalidationTargetResolveStatus → MutationInvalidationDecision
  | .nonMutationMethod => .skippedNonMutationMethod
  | .methodNotEnabled => .skippedMethodNotEnabled
  | _ => .skippedNoPolicy

/-- `mutation_invalidation_prepare_stage`: the plan does not depend on the one before. -/
def mutationInvalidationPrepareStage (activeRoutes : Option (List RoutePolicy))
    (matchedPolicy : Option RoutePolicy) (requestMethod : HttpMethod) :
    PendingMutationInvalidationPlan × StageOutput :=
  match matchedPolicy with
  | none => ({ decision := .skippedNoPolicy, reason := lit "no-policy" }, .goOn "no-policy")
  | some policy =>
    match resolveInvalidationTargets activeRoutes policy requestMethod with
    | .error (status, reason) =>
      ({ decision := skippedDecision status, reason := lit reason }, .goOn reason)
    | .ok resolved =>
      ({ prepared := true, decision := .prepared, reason := lit "prepared"
         successStatusMin := resolved.successStatusMin
         successStatusMax := resolved.successStatusMax
         targets := resolved.routeIds }, .goOn "prepared")

/-- `mutation_invalidation_apply_stage`; a target that is not registered ends the bumps. -/
def mutationInvalidationApplyStage (plan : PendingMutationInvalidationPlan)
    (responseStatusCode : UInt16) (epochStore : Option RouteCacheEpochStore) :
    PendingMutationInvalidationPlan × Option RouteCacheEpochStore × StageOutput :=
  if !plan.prepared then (plan, epochStore, .goOn "no-plan")
  else if plan.isFinal then (plan, epochStore, .goOn "already-final")
  else if !plan.accepts responseStatusCode then
    ({ plan with
        skipped := true, decision := .skippedStatusNotSuccessful
        reason := lit "status-not-successful" },
      epochStore, .goOn "status-not-successful")
  else
    match epochStore with
    | none =>
      ({ plan with
          failed := true, decision := .failedEpochStoreMissing
          reason := lit "epoch-store-missing" },
        none, .goOn "epoch-store-missing")
    | some store =>
      match bumpAll store plan.targets with
      | (store, false) =>
        ({ plan with
            failed := true, decision := .failedEpochBump, reason := lit "epoch-bump-failed" },
          some store, .goOn "epoch-bump-failed")
      | (store, true) =>
        ({ plan with applied := true, decision := .applied, reason := lit "epoch-bumped" },
          some store, .goOn "epoch-bumped")

/-! ## What the stages do to a plan -/

theorem mapM_except_length {ε α β : Type} {f : α → Except ε β} {l : List α} {bs : List β}
    (h : l.mapM f = .ok bs) : bs.length = l.length := by
  induction l generalizing bs with
  | nil =>
    cases h
    rfl
  | cons a l ih =>
    rw [List.mapM_cons] at h
    cases ha : f a with
    | error => rw [ha] at h; cases h
    | ok =>
      cases hl : l.mapM f with
      | error => rw [ha, hl] at h; cases h
      | ok =>
        rw [ha, hl] at h
        cases h
        simp [ih hl]

/-- A plan as the prepare stage leaves it, for a route. -/
structure PendingMutationInvalidationPlan.Fresh (plan : PendingMutationInvalidationPlan)
    (policy : RoutePolicy) : Prop where
  notFinal : plan.isFinal = false
  enabled : plan.prepared = true → policy.cache.invalidation.enabled = true
  bounded : plan.targets.length ≤ kMaxResolvedInvalidationTargets

theorem mutationInvalidationPrepareStage_fresh (activeRoutes : Option (List RoutePolicy))
    (policy : RoutePolicy) (requestMethod : HttpMethod) :
    (mutationInvalidationPrepareStage activeRoutes (some policy) requestMethod).1.Fresh policy := by
  unfold mutationInvalidationPrepareStage
  dsimp only
  cases hresolve : resolveInvalidationTargets activeRoutes policy requestMethod with
  | error => exact ⟨rfl, nofun, Nat.zero_le _⟩
  | ok =>
    unfold resolveInvalidationTargets at hresolve
    cases activeRoutes with
    | none => cases hresolve
    | some routes =>
      dsimp only at hresolve
      split at hresolve
      · cases hresolve
      rename_i hon
      iterate 4
        split at hresolve
        · cases hresolve
      rename_i hcnt
      cases hids : policy.cache.invalidation.targets.mapM (resolveTarget routes policy) with
      | error e => rw [hids] at hresolve; cases hresolve
      | ok routeIds =>
        rw [hids] at hresolve
        cases hresolve
        refine ⟨rfl, fun _ => by simpa using hon, ?_⟩
        dsimp only
        rw [mapM_except_length hids]
        omega

open PendingMutationInvalidationPlan

section

variable (responseStatusCode : UInt16) (epochStore : Option RouteCacheEpochStore)

theorem mutationInvalidationApplyStage_continue (plan : PendingMutationInvalidationPlan) :
    (mutationInvalidationApplyStage plan responseStatusCode epochStore).2.2.result = .continue := by
  unfold mutationInvalidationApplyStage
  split
  · rfl
  split
  · rfl
  split
  · rfl
  · split
    · rfl
    · split <;> rfl

/-- A plan that is not final becomes final, and bumps its targets if the response is a success. -/
theorem mutationInvalidationApplyStage_prepared {plan}
    (hprep : plan.prepared) (hfresh : plan.isFinal = false) :
    (mutationInvalidationApplyStage plan responseStatusCode epochStore).1.isFinal ∧
      (mutationInvalidationApplyStage plan responseStatusCode epochStore).2.1 =
        if plan.accepts responseStatusCode then
          epochStore.map fun store => (bumpAll store plan.targets).1
        else epochStore := by
  unfold mutationInvalidationApplyStage
  simp only [hprep, hfresh, Bool.not_true, Bool.false_eq_true, if_false]
  cases hacc : plan.accepts responseStatusCode with
  | false => simp [isFinal]
  | true =>
    cases epochStore with
    | none => simp [isFinal]
    | some store =>
      rcases hbump : bumpAll store plan.targets with ⟨after, _ | _⟩ <;>
        simp [isFinal, hbump]

end

end ByteTaper.Stages
