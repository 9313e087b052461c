import ByteTaper.Operational.RouteEpochSync
import ByteTaper.Runtime.PolicySnapshot

/-! # The activation of a policy

`policy_activation_barrier.cpp`: the policy to activate is compared with a base policy, the epochs of the
routes are versioned, the caches cleaned up, and the snapshot is swapped; a snapshot that cannot be built
or swapped takes the epochs back. Events, metrics and the resource key are left out. So are two checks
that always pass: the preview of the epochs, which writes nothing and fails for no plan, and the flag of
the cleanup, which is the one of the versioning. -/

namespace ByteTaper.Operational

open Cache ByteTaper.Runtime TaperQuery

/-! ## Stages and results -/

inductive PolicyActivationStage where
  | committed | operationalDiffComputed | cacheNamespacePrepared | routeEpochsBumped
  | cleanupEnqueued | materializedVariantsInvalidated | snapshotBuilt | snapshotSwapped
  | activationPublished | activated

inductive PolicyActivationStatus where
  | policyCommittedNotActivated | policyActivationInProgress | policyActivationFailed
  | policyActiveCleanupPending | policyActive

structure PolicyActivationResult where
  ok : Bool := false
  status : PolicyActivationStatus := .policyActivationFailed
  stage : PolicyActivationStage := .committed
  failedStage : PolicyActivationStage := .committed
  generation : UInt64 := 0
  policyId : Text := []
  affectedRoutes : UInt32 := 0
  bumpedRouteEpochs : UInt32 := 0
  l1CleanupJobs : UInt32 := 0
  l2CleanupJobs : UInt32 := 0
  cleanupPending : Bool := false
  oldSnapshotStillActive : Bool := true
  message : Text := []
  errorCode : Text := []

def makeFailure (result : PolicyActivationResult) (stage : PolicyActivationStage)
    (code message : Text) : PolicyActivationResult :=
  { result with
    ok := false, status := .policyActivationFailed, stage, failedStage := stage, errorCode := code
    message, oldSnapshotStillActive := true }

/-! ## Inputs -/

structure PolicyActivationRequest where
  generation : UInt64 := 0
  policyId : Text := []
  previousGeneration : UInt64 := 0
  committedPolicyIr : Option PolicyIr := none
  committedSnapshot : Option RuntimePolicySnapshot := none

/-- `policyStateStore` gives the canonical YAML of a version or an error; it is `none` where reading the
    version throws. -/
structure PolicyActivationBarrierConfig where
  policyStateStore : Option (UInt64 → Option (Except Text Text)) := none
  snapshotBuildFn : Option (PolicyIr → UInt64 → RuntimePolicySnapshotBuildResult) := none

/-- What an activation works on; each part may be missing. -/
structure ActivationState where
  policyStore : Option RuntimePolicyStore := none
  epochs : Option RouteCacheEpochStore := none
  l1 : Option L1Cache := none
  cleanupQueue : Option (List RouteCacheCleanupJob) := none

/-! ## The two policies -/

section Activate

variable (L : IrLanguage) (config : PolicyActivationBarrierConfig)
  (request : PolicyActivationRequest)

def loadPolicyIrFromStore (versions : UInt64 → Option (Except Text Text)) (generation : UInt64) :
    Option (Except Text PolicyIr) :=
  (versions generation).map fun
    | .error error => .error (orElse error (lit "policy version not found"))
    | .ok canonicalYaml => L.loadYaml canonicalYaml

def PolicyActivationRequest.beforeGeneration (request : PolicyActivationRequest) : UInt64 :=
  if 0 < request.previousGeneration then request.previousGeneration else request.generation - 1

/-- The base of the activation without a policy state store: the served policy, if the policy to
    activate comes with the request. -/
def servedBase (store : RuntimePolicyStore) : PolicyIr :=
  match request.committedPolicyIr, store.active with
  | some _, some current => if current.policyIr.routes.isEmpty then {} else current.policyIr
  | _, _ => {}

def basePolicy (store : RuntimePolicyStore) : Option (Except Text PolicyIr) :=
  if 0 < request.beforeGeneration then
    match config.policyStateStore with
    | none => some (.ok (servedBase request store))
    | some versions => loadPolicyIrFromStore L versions request.beforeGeneration
  else some (.ok {})

/-- A failure is an error code and a message. Without a policy in the request there is a policy state
    store, by the check that comes before. -/
def committedPolicy : Option (Except (Text × Text) PolicyIr) :=
  match request.committedPolicyIr, config.policyStateStore with
  | some policyIr, _ =>
    if L.computePolicyDocumentIdentity policyIr ≠ request.policyId then
      some (.error (lit "POLICY_ACTIVATION_POLICY_ID_MISMATCH",
        lit "committed policy identity does not match request policy_id"))
    else some (.ok policyIr)
  | none, none => none
  | none, some versions =>
    (loadPolicyIrFromStore L versions request.generation).map fun
      | .error error => .error (lit "POLICY_ACTIVATION_LOAD_COMMITTED_FAILED",
          lit "failed to load committed policy version: " ++ error)
      | .ok policyIr => .ok policyIr

/-- What the first stage finds: the policy store, the base and the policy to activate. -/
structure ActivationInput where
  store : RuntimePolicyStore
  before : PolicyIr
  after : PolicyIr

def activationInput (state : ActivationState) : Option (Except (Text × Text) ActivationInput) :=
  match state.policyStore with
  | none =>
    some (.error (lit "POLICY_ACTIVATION_STORE_UNAVAILABLE",
      lit "runtime policy store is not configured"))
  | some store =>
    if config.policyStateStore.isNone && request.committedPolicyIr.isNone then
      some (.error (lit "POLICY_ACTIVATION_STORE_UNAVAILABLE",
        lit "policy state store is not configured and no committed policy IR was supplied"))
    else
      match basePolicy L config request store with
      | none => none
      | some (.error error) =>
        some (.error (lit "POLICY_ACTIVATION_LOAD_BEFORE_FAILED",
          lit "failed to load previous policy version: " ++ error))
      | some (.ok before) =>
        (committedPolicy L config request).map fun
          | .error failure => .error failure
          | .ok after => .ok { store, before, after }

/-! ## Versioning, cleanup and swap -/

def ActivationInput.plan (input : ActivationInput) : RouteChanges :=
  buildTaperqueryApplyPlan L.toRouteLanguage {} input.before input.after

/-- Without an epoch store nothing is versioned. -/
def syncRouteEpochs (epochs : Option RouteCacheEpochStore) (plan : RouteChanges) :
    Option RouteCacheEpochStore × TqCacheNamespaceApplyResult :=
  match epochs with
  | none => (none, { ok := true })
  | some store => versionEpochsForApply (some store) plan

def snapshotToSwap (input : ActivationInput) : Except Text RuntimePolicySnapshot :=
  match request.committedSnapshot with
  | some snapshot => .ok snapshot
  | none =>
    let build := match config.snapshotBuildFn with
      | some buildFn => buildFn input.after request.generation
      | none => buildRuntimePolicySnapshotFromIr L input.after request.generation
    match build.ok, build.snapshot with
    | true, some snapshot => .ok snapshot
    | _, _ => .error build.error

def swapSnapshot (store : RuntimePolicyStore) (snapshot : RuntimePolicySnapshot) :
    Except Text RuntimePolicyStore :=
  match store.active with
  | none => store.swap snapshot
  | some current =>
    if current.policyIdentity = [] then store.swap snapshot
    else store.swapIfCurrent current.policyIdentity snapshot

/-- The snapshot is built and swapped; the error is the stage, the code and the message. -/
def publishSnapshot (input : ActivationInput) :
    Except (PolicyActivationStage × Text × Text) RuntimePolicyStore :=
  match snapshotToSwap L config request input with
  | .error error => .error (.snapshotBuilt, lit "POLICY_ACTIVATION_SNAPSHOT_BUILD_FAILED", error)
  | .ok snapshot =>
    match swapSnapshot input.store snapshot with
    | .error error =>
      .error (.snapshotSwapped, lit "POLICY_ACTIVATION_SNAPSHOT_SWAP_FAILED",
        orElse error (lit "snapshot swap failed"))
    | .ok store => .ok store

def initialResult : PolicyActivationResult :=
  { status := .policyActivationInProgress, generation := request.generation
    policyId := request.policyId }

/-- The stages behind the first one. -/
def activateInput (state : ActivationState) (input : ActivationInput) :
    ActivationState × PolicyActivationResult :=
  let plan := input.plan L
  let result := { initialResult request with
    affectedRoutes := (plan.countP (·.kind ≠ .unchanged)).toUInt32 }
  let versioned := syncRouteEpochs state.epochs plan
  if versioned.2.ok = false then
    ({ state with epochs := versioned.1 },
      makeFailure result .routeEpochsBumped (lit "POLICY_ACTIVATION_EPOCH_BUMP_FAILED")
        versioned.2.error)
  else
    let queued := enqueueRouteCleanups state.cleanupQueue versioned.2.routes
    let cleaned := performL1Cleanups state.l1 queued.2
    let state := { state with epochs := versioned.1, l1 := cleaned.1, cleanupQueue := queued.1 }
    let l2CleanupJobs := (cleaned.2.countP (·.l2CleanupEnqueued)).toUInt32
    let result := { result with
      bumpedRouteEpochs :=
        (versioned.2.routes.countP fun route => route.newEpoch ≠ route.oldEpoch).toUInt32
      l1CleanupJobs := (cleaned.2.countP (·.l1CleanupRequired)).toUInt32
      l2CleanupJobs
      cleanupPending := 0 < l2CleanupJobs }
    match publishSnapshot L config request input with
    | .error (stage, code, message) =>
      ({ state with epochs := rollbackRouteEpochsForApply state.epochs versioned.2.routes },
        makeFailure result stage code message)
    | .ok store =>
      ({ state with policyStore := some store },
        { result with
          ok := true, stage := .activated, oldSnapshotStillActive := false
          status :=
            if result.cleanupPending then .policyActiveCleanupPending else .policyActive
          message :=
            if result.cleanupPending then
              lit "Policy activated; background cache cleanup is pending."
            else lit "Policy activated." })

/-- `PolicyActivationBarrier::activate`, or `none` if reading a version throws. -/
def activate (state : ActivationState) : Option (ActivationState × PolicyActivationResult) :=
  (activationInput L config request state).map fun
    | .error (code, message) => (state, makeFailure (initialResult request) .committed code message)
    | .ok input => activateInput L config request state input

variable {L config request} {state after : ActivationState} {result : PolicyActivationResult}

/-- The first stage fails without an effect; the later ones work on what it has found. -/
theorem activate_cases (h : activate L config request state = some (after, result)) :
    ((∀ input, activationInput L config request state ≠ some (.ok input)) ∧ after = state ∧
      result.ok = false) ∨
    ∃ input, activationInput L config request state = some (.ok input) ∧
      activateInput L config request state input = (after, result) := by
  obtain ⟨found, hfound, h⟩ := Option.map_eq_some_iff.mp h
  cases found with
  | error =>
    have hnone : ∀ input, activationInput L config request state ≠ some (.ok input) := by
      intro input hin
      cases hfound.symm.trans hin
    obtain ⟨rfl, rfl⟩ := Prod.mk.inj h
    exact .inl ⟨hnone, rfl, rfl⟩
  | ok input => exact .inr ⟨input, hfound, h⟩

/-- How an activation ends, with what becomes of the epochs and of the policy store. -/
theorem activateInput_cases {input : ActivationInput}
    (h : activateInput L config request state input = (after, result)) :
    ((syncRouteEpochs state.epochs (input.plan L)).2.ok = false ∧ result.ok = false ∧
      after.policyStore = state.policyStore ∧
      after.epochs = (syncRouteEpochs state.epochs (input.plan L)).1) ∨
    (syncRouteEpochs state.epochs (input.plan L)).2.ok ∧
      (result.ok = false ∧ after.policyStore = state.policyStore ∧
        after.epochs = rollbackRouteEpochsForApply (syncRouteEpochs state.epochs (input.plan L)).1
          (syncRouteEpochs state.epochs (input.plan L)).2.routes ∨
      result.ok ∧ after.epochs = (syncRouteEpochs state.epochs (input.plan L)).1) := by
  unfold activateInput at h
  dsimp only at h
  split at h
  next hok =>
    obtain ⟨rfl, rfl⟩ := Prod.mk.inj h
    exact .inl ⟨hok, rfl, rfl, rfl⟩
  next hok =>
    have hok : (syncRouteEpochs state.epochs (input.plan L)).2.ok := by simpa using hok
    refine .inr ⟨hok, ?_⟩
    split at h
    next stage code message hpub =>
      obtain ⟨rfl, rfl⟩ := Prod.mk.inj h
      exact .inl ⟨rfl, rfl, rfl⟩
    next store hpub =>
      obtain ⟨rfl, rfl⟩ := Prod.mk.inj h
      exact .inr ⟨rfl, rfl⟩

end Activate

/-! ## Requests -/

/-- The request that the pull loop makes for the policy behind the pointer of the control plane. -/
def pullRequest (L : IrLanguage) (generation previousGeneration : UInt64)
    (loaded : PolicyIr) (current : Option RuntimePolicySnapshot) : PolicyActivationRequest where
  generation
  policyId := L.computePolicyDocumentIdentity loaded
  previousGeneration :=
    if 0 < previousGeneration then previousGeneration
    else (current.map (·.generation)).getD 0
  committedPolicyIr := some loaded
  committedSnapshot := (buildRuntimePolicySnapshotFromIr L loaded generation).snapshot

end ByteTaper.Operational
