import ByteTaper.Operational.PolicyActivationBarrier
import ByteTaper.TaperQuery.PolicyPersistence

/-! # The apply service

`tq_apply_service.cpp`: a policy in TaperQuery source is compiled, checked and planned against the served
one. An apply then persists it, versions the epochs, swaps the snapshot and cleans up the caches. The
parser and the compiler are parameters. The call holds the apply lock, so it is one step. The preview of
the epochs and the audit log are left out; neither changes what is served. -/

namespace ByteTaper.TaperQuery

open ByteTaper.Runtime Operational

/-! ## The plan with its issues -/

inductive TqPlanSeverity where
  | info | warning | blocker
deriving DecidableEq

structure TqApplyPlanIssue where
  severity : TqPlanSeverity := .info
  code : Text := []
  routeId : Text := []
  reason : Text := []
  hint : Text := []

structure TqApplyPlan where
  ok : Bool := true
  beforePolicyIdentity : Text := []
  afterPolicyIdentity : Text := []
  expectedBaseIdentity : Text := []
  routeChanges : RouteChanges := []
  issues : List TqApplyPlanIssue := []

def casIssues (expected before : Text) : List TqApplyPlanIssue :=
  if expected = [] then
    [{ severity := .blocker, code := lit "CAS_MISSING_BASE_SHA"
       reason := lit "Expected base SHA is empty inside the candidate policy"
       hint := lit
         "Provide the current active policy's SHA in the 'expected_base_sha' field of the apply payload." }]
  else if expected ≠ before then
    [{ severity := .blocker, code := lit "CAS_SHA_MISMATCH"
       reason :=
         lit "Optimistic locking concurrency check failed. Expected base SHA '" ++ expected ++
           lit "' does not match active policy SHA '" ++ before ++ lit "'."
       hint := lit
         "Pull the latest active policy, apply your changes on top of it, and try again." }]
  else []

def planIssue (issue : TqPolicyValidationIssue) : TqApplyPlanIssue where
  severity := if issue.isError then .blocker else .warning
  code := issue.code
  routeId := issue.routeId
  reason := issue.reason
  hint := issue.hint

/-- `build_taperquery_apply_plan`; the options say what is reported of the routes. -/
def taperqueryApplyPlan (L : IrLanguage) (options : TqApplyPlanOptions)
    (strict : Bool) (before after : PolicyIr) : TqApplyPlan :=
  let beforePolicyIdentity := L.computePolicyDocumentIdentity before
  let cas := if strict then casIssues after.expectedBaseSha beforePolicyIdentity else []
  let validation := validateTaperqueryPolicyIr after { strictProduction := strict }
  { ok := cas.isEmpty && validation.ok
    beforePolicyIdentity
    afterPolicyIdentity := L.computePolicyDocumentIdentity after
    expectedBaseIdentity := after.expectedBaseSha
    routeChanges := buildTaperqueryApplyPlan L.toRouteLanguage options before after
    issues := cas ++ validation.issues.map planIssue }

/-! ## Requests and results -/

inductive TqApplyMode where
  | dryRun | apply
deriving DecidableEq

/-- The only source type is TaperQuery. -/
structure TqApplyRequest where
  mode : TqApplyMode := .dryRun
  source : Text := []
  expectedBaseIdentity : Text := []
  operatorId : Text := []
  requestId : Text := []
  includeUnchangedRoutes : Bool := false
  includeFieldLevelChanges : Bool := true
  strictProduction : Bool := true

inductive TqApplyStatus where
  | applied | dryRunReady | rejectedInvalidRequest | rejectedParseError | rejectedCompileError
  | rejectedValidation | rejectedRouteAnalysis | rejectedCasMismatch | rejectedNoChanges
  | rejectedSnapshotBuildFailed | rejectedPersistenceFailed | rejectedCanonicalYamlRoundTripFailed
  | rejectedCanonicalYamlMismatch | internalError
deriving DecidableEq

structure TqApplyDiagnostic where
  severity : Text := []
  code : Text := []
  routeId : Text := []
  fieldPath : Text := []
  reason : Text := []
  hint : Text := []

structure TqApplyResult where
  ok : Bool := false
  status : TqApplyStatus := .internalError
  currentPolicyIdentity : Text := []
  candidatePolicyIdentity : Text := []
  expectedBaseIdentity : Text := []
  appliedPolicyIdentity : Text := []
  beforeGeneration : UInt64 := 0
  afterGeneration : UInt64 := 0
  plan : TqApplyPlan := {}
  routeAnalysis : TqRouteAnalysisReport := {}
  diagnostics : List TqApplyDiagnostic := []
  cacheNamespaceApplyResult : TqCacheNamespaceApplyResult := {}
  enqueuedCleanups : List Text := []
  message : Text := []

namespace TqApplyResult

variable (result : TqApplyResult)

def report (diagnostics : List TqApplyDiagnostic) : TqApplyResult :=
  { result with diagnostics := result.diagnostics ++ diagnostics }

def reject (status : TqApplyStatus) (message : Text)
    (diagnostics : List TqApplyDiagnostic) : TqApplyResult :=
  { result.report diagnostics with ok := false, status, message }

/-- A rejection with one diagnostic of the same text. -/
def rejectWith (status : TqApplyStatus) (code message : Text) : TqApplyResult :=
  result.reject status message [{ severity := lit "error", code, reason := message }]

def ready (message : Text) : TqApplyResult :=
  { result with ok := true, status := .dryRunReady, message }

end TqApplyResult

/-! ## Diagnostics -/

/-- What the parser and the compiler say about a source. -/
structure TqDiagnostic where
  isError : Bool := true
  message : Text := []

def sourceDiagnostic (code : Text) (d : TqDiagnostic) : TqApplyDiagnostic where
  severity := if d.isError then lit "error" else lit "warning"
  code
  reason := d.message

def validationDiagnostic (issue : TqPolicyValidationIssue) : TqApplyDiagnostic where
  severity := if issue.isError then lit "error" else lit "warning"
  code := lit "TQ_VALIDATION_ERROR"
  routeId := issue.routeId
  fieldPath := issue.fieldPath
  reason := issue.reason
  hint := issue.hint

def analysisReason (finding : TqRouteAnalysisFinding) : Text :=
  if finding.relatedRouteId = [] then finding.reason
  else
    finding.reason ++ (if finding.reason = [] then [] else [' ']) ++ lit "(related route: " ++
      finding.relatedRouteId ++ lit ")"

def analysisDiagnostic (finding : TqRouteAnalysisFinding) : TqApplyDiagnostic where
  severity :=
    match finding.severity with
    | .error => lit "error"
    | .warning => lit "warning"
    | .info => lit "info"
  code := lit "TQ_ROUTE_ANALYSIS_ERROR"
  routeId := finding.routeId
  fieldPath := finding.fieldPath
  reason := analysisReason finding
  hint := finding.hint

def planDiagnostic (issue : TqApplyPlanIssue) : TqApplyDiagnostic where
  severity :=
    match issue.severity with
    | .blocker => lit "error"
    | .warning => lit "warning"
    | .info => lit "info"
  code := if issue.code = lit "CAS_MISMATCH" then lit "CAS_MISMATCH" else lit "TQ_PLAN_BLOCKER"
  routeId := issue.routeId
  reason := issue.reason
  hint := issue.hint

/-! ## What comes before anything is written -/

/-- The parser and the compiler of TaperQuery. -/
structure TqFrontEnd (α : Type) where
  parse : Text → Except (List TqDiagnostic) α
  compile : α → Except (List TqDiagnostic) PolicyIr

/-- What an apply that passes all checks goes on with. -/
structure PreparedApply where
  store : RuntimePolicyStore
  current : RuntimePolicySnapshot
  plan : TqApplyPlan
  candidateIdentity : Text
  parsed : PolicyIr
  snapshot : RuntimePolicySnapshot
  result : TqApplyResult

def requestError (request : TqApplyRequest) : Option Text :=
  if request.source = [] then some (lit "TaperQuery source is empty")
  else if request.mode = .apply ∧ request.expectedBaseIdentity = [] then
    some (lit "expected base identity is required for apply mode")
  else if request.strictProduction ∧ request.expectedBaseIdentity = [] then
    some (lit "expected base identity is required in strict production mode")
  else none

def startResult (request : TqApplyRequest) (current : RuntimePolicySnapshot) : TqApplyResult where
  currentPolicyIdentity := current.policyIdentity
  expectedBaseIdentity := request.expectedBaseIdentity
  beforeGeneration := current.generation
  afterGeneration := current.generation

def performCas (request : TqApplyRequest) : Bool :=
  request.expectedBaseIdentity ≠ [] || request.mode = .apply || request.strictProduction

def casMismatchHint : Text := lit "fetch the latest active policy and rebase your changes"

section Prepare

variable {α : Type} (F : TqFrontEnd α) (L : IrLanguage)
  (request : TqApplyRequest) (store : RuntimePolicyStore) (current : RuntimePolicySnapshot)
  (candidate : PolicyIr) (result : TqApplyResult)

/-- The candidate in normal form. -/
def compileCandidate : Except TqApplyResult PolicyIr :=
  match F.parse request.source with
  | .error diagnostics =>
    .error (result.reject .rejectedParseError (lit "parsing TaperQuery source failed")
      (diagnostics.map (sourceDiagnostic (lit "TQ_PARSE_ERROR"))))
  | .ok ast =>
    match F.compile ast with
    | .error diagnostics =>
      .error (result.reject .rejectedCompileError
        (lit "compiling TaperQuery AST to Policy IR failed")
        (diagnostics.map (sourceDiagnostic (lit "TQ_COMPILE_ERROR"))))
    | .ok candidate =>
      if candidate.expectedBaseSha ≠ [] ∧
          candidate.expectedBaseSha ≠ request.expectedBaseIdentity then
        .error (result.rejectWith .rejectedCasMismatch (lit "CAS_MISMATCH")
          (lit "expected base sha in TaperQuery document disagrees with request expected base identity"))
      else
        .ok (L.normalizePolicyIr { candidate with
          expectedBaseSha := orElse candidate.expectedBaseSha request.expectedBaseIdentity })

/-- The validation, but for what concerns several routes, and the route analysis. -/
def checkCandidate : Except TqApplyResult TqApplyResult :=
  let validation := validateTaperqueryPolicyIr candidate
    { strictProduction := request.strictProduction }
  let issues := validation.issues.filter (·.subsystem ≠ .crossRoute)
  let result := result.report (issues.map validationDiagnostic)
  if hasError issues then
    .error (result.reject .rejectedValidation
      (lit "semantic validation of TaperQuery candidate failed") [])
  else
    let analysis := analyzeTaperqueryRoutePrecedence candidate
    let result := { result.report (analysis.findings.map analysisDiagnostic) with
      routeAnalysis := analysis }
    if analysis.ok = false ∨ analysis.findings.any (·.severity = .error) then
      .error (result.reject .rejectedRouteAnalysis
        (lit "route precedence and conflict analysis failed") [])
    else .ok result

def TqApplyRequest.planOptions (request : TqApplyRequest) : TqApplyPlanOptions where
  includeUnchangedRoutes := request.includeUnchangedRoutes
  includeFieldLevelChanges := request.includeFieldLevelChanges

/-- The plan, which must have no blocker and change something. -/
def checkPlan : Except TqApplyResult TqApplyResult :=
  let plan := taperqueryApplyPlan L request.planOptions request.strictProduction current.policyIr
    candidate
  let result := { result.report (plan.issues.map planDiagnostic) with plan }
  let blockers := plan.issues.filter (·.severity = .blocker)
  if plan.ok = false ∨ blockers ≠ [] then
    .error (result.reject
      (if blockers.any (·.code = lit "CAS_MISMATCH") then .rejectedCasMismatch
      else .rejectedValidation)
      (lit "building apply plan failed due to blocker issues") [])
  else
    let result := { result with candidatePolicyIdentity := plan.afterPolicyIdentity }
    if plan.beforePolicyIdentity = plan.afterPolicyIdentity then
      .error
        (if request.mode = .apply then
          result.reject .rejectedNoChanges
            (lit "no changes detected in candidate policy compared to active policy") []
        else result.ready (lit "no changes detected"))
    else .ok result

/-- What the candidate is read back as from its canonical YAML, and the identity it has itself. -/
def roundTrip : Except TqApplyResult (Text × PolicyIr) :=
  match L.emitAndReparse candidate with
  | .error error =>
    .error (result.reject .rejectedCanonicalYamlRoundTripFailed
      (lit "canonical YAML round-trip failed: " ++ error)
      [{ severity := lit "error", code := lit "CANONICAL_YAML_ROUNDTRIP_FAILED", reason := error }])
  | .ok (_, parsed) =>
    let candidateIdentity := L.computePolicyDocumentIdentity (L.normalizePolicyIr candidate)
    let persistedIdentity := L.computePolicyDocumentIdentity parsed
    if candidateIdentity ≠ persistedIdentity then
      .error (result.rejectWith .rejectedCanonicalYamlMismatch (lit "CANONICAL_YAML_MISMATCH")
        (lit "canonical YAML round-trip identity mismatch: candidate=" ++ candidateIdentity ++
          lit ", persisted=" ++ persistedIdentity))
    else .ok (candidateIdentity, parsed)

def buildNext (current : RuntimePolicySnapshot) (parsed : PolicyIr)
    (result : TqApplyResult) : Except TqApplyResult RuntimePolicySnapshot :=
  let build := buildRuntimePolicySnapshotFromIr L parsed (current.generation + 1)
  match build.ok, build.snapshot with
  | true, some snapshot => .ok snapshot
  | _, _ =>
    .error (result.reject .rejectedSnapshotBuildFailed
      (lit "building runtime policy snapshot failed: " ++ build.error)
      [{ severity := lit "error", code := lit "TQ_SNAPSHOT_BUILD_FAILED", reason := build.error }])

/-- What follows the checks of the candidate. -/
def prepareChecked : Except TqApplyResult PreparedApply :=
  match roundTrip L candidate result with
  | .error ended => .error ended
  | .ok (candidateIdentity, parsed) =>
    match buildNext L current parsed result with
    | .error ended => .error ended
    | .ok snapshot =>
      match request.mode with
      | .dryRun =>
        .error ({ result with candidatePolicyIdentity := snapshot.policyIdentity }.ready
          (lit "dry-run verification succeeded"))
      | .apply =>
        .ok { store, current, plan := result.plan, candidateIdentity, parsed, snapshot, result }

/-- What is done with the source against the served snapshot. -/
def prepareCandidate : Except TqApplyResult PreparedApply :=
  match compileCandidate F L request (startResult request current) with
  | .error ended => .error ended
  | .ok candidate =>
    match checkCandidate request candidate (startResult request current) with
    | .error ended => .error ended
    | .ok result =>
      match checkPlan L request current candidate result with
      | .error ended => .error ended
      | .ok result => prepareChecked L request store current candidate result

/-- What an apply goes on with, or the result with which the call ends before anything is written. -/
def prepareApply (policyStore : Option RuntimePolicyStore) : Except TqApplyResult PreparedApply :=
  match policyStore with
  | none => .error (({} : TqApplyResult).reject .internalError
      (lit "policy store is not configured") [])
  | some store =>
    match requestError request with
    | some message => .error (({} : TqApplyResult).reject .rejectedInvalidRequest message [])
    | none =>
      match store.active with
      | none => .error (({} : TqApplyResult).reject .internalError
          (lit "active policy snapshot is not installed") [])
      | some current =>
        if performCas request ∧ request.expectedBaseIdentity ≠ current.policyIdentity then
          let message :=
            lit "expected base identity does not match current active policy identity"
          .error ((startResult request current).reject .rejectedCasMismatch message
            [{ severity := lit "error", code := lit "CAS_MISMATCH", reason := message
               hint := casMismatchHint }])
        else prepareCandidate F L request store current

end Prepare

/-! ## Persist, version, swap and clean up -/

/-- What the service works on: the directory is the one of the persisted policy. -/
structure ApplyServiceState extends ActivationState where
  directory : StateDirectory := fun _ => none

/-- What the system does during a call: the file accesses that fail, and the clock. -/
structure ApplyCall where
  faults : PersistFaults := {}
  now : UInt64 := 0

section Commit

variable (L : IrLanguage) (config : LocalPolicyPersistenceConfig)
  (call : ApplyCall) (request : TqApplyRequest)

variable (p : PreparedApply)

def applyMetadata : PersistedPolicyMetadata where
  policyIdentity := p.snapshot.policyIdentity
  candidatePolicyIdentity := p.candidateIdentity
  persistedPolicyIdentity := L.computePolicyDocumentIdentity p.parsed
  previousPolicyIdentity := p.current.policyIdentity
  expectedBaseIdentity := request.expectedBaseIdentity
  generation := p.snapshot.generation
  sourceType := lit "taperql-apply"
  writtenAtUnixEpochMs := call.now
  operatorId := request.operatorId
  requestId := request.requestId
  metadataSchemaVersion := 1
  resourceKey := lit "policy/default/runtime"
  applyId := request.requestId
  previousGeneration := p.current.generation
  previousPolicyId := p.current.policyIdentity
  schemaVersion := 1
  apiVersion := lit "bytetaper.io/v1alpha1"
  kind := lit "RuntimePolicy"
  activePolicyFile := config.activePolicyFilename
  canonicalHashAlgorithm := lit "sha256"

/-- The document that is persisted names the generation and the policy. -/
def applyDocument : PolicyIr :=
  let metadata := applyMetadata L config call request p
  { p.parsed with
    generation := metadata.generation, policyId := metadata.policyIdentity
    apiVersion := metadata.apiVersion, kind := metadata.kind
    schemaVersionNum := metadata.schemaVersion }

def persistApply (dir : StateDirectory) : StateDirectory × Except Text Unit :=
  if config.enabled ∧ config.stateDir ≠ [] then
    persistActivePolicyCanonicalYaml L config call.faults dir (applyDocument L config call request p)
      (applyMetadata L config call request p)
  else (dir, .ok ())

def cleanupJobName (route : TqRouteCacheCleanupPlan) : Text :=
  lit "route:" ++ route.routeId ++ lit ":epoch:" ++ Nat.toDigits 10 route.oldEpoch.toNat

/-- The caches are cleaned up once the snapshot has been swapped. -/
def finishApply (state : ApplyServiceState) (store : RuntimePolicyStore)
    (versioned : TqCacheNamespaceApplyResult) : ApplyServiceState × TqApplyResult :=
  let cleaned := performL1Cleanups state.l1 versioned.routes
  let queued := enqueueRouteCleanups state.cleanupQueue cleaned.2
  ({ state with policyStore := some store, l1 := cleaned.1, cleanupQueue := queued.1 },
    { p.result with
      ok := true
      status := .applied
      cacheNamespaceApplyResult :=
        if state.epochs.isSome then { versioned with routes := queued.2 } else {}
      enqueuedCleanups :=
        (queued.2.filter fun route => route.l2CleanupRequired && route.oldEpoch ≠ 0).map
          cleanupJobName
      candidatePolicyIdentity := p.snapshot.policyIdentity
      appliedPolicyIdentity := p.snapshot.policyIdentity
      afterGeneration := p.snapshot.generation
      message := lit "policy successfully applied" })

/-- A failed swap takes the epochs back, as `rollback_route_epochs_for_apply` does. -/
def rejectSwap (error : Text) : TqApplyResult :=
  if occursIn (lit "CAS mismatch") error then
    p.result.reject .rejectedCasMismatch error
      [{ severity := lit "error", code := lit "CAS_MISMATCH", reason := error
         hint := casMismatchHint }]
  else
    p.result.reject .internalError (lit "failed to swap active policy snapshot: " ++ error)
      [{ severity := lit "error", code := lit "INTERNAL_ERROR", reason := error }]

def commitApply (state : ApplyServiceState) : ApplyServiceState × TqApplyResult :=
  match persistApply L config call request p state.directory with
  | (directory, .error error) =>
    ({ state with directory },
      p.result.reject .rejectedPersistenceFailed (lit "persistence failed: " ++ error)
        [{ severity := lit "error", code := lit "PERSISTENCE_FAILED", reason := error }])
  | (directory, .ok ()) =>
    let versioned := syncRouteEpochs state.epochs p.plan.routeChanges
    let state := { state with directory, epochs := versioned.1 }
    if versioned.2.ok = false then
      -- The epochs that were versioned before the failure stay.
      (state, p.result.reject .internalError
        (lit "cache namespace epoch versioning failed: " ++ versioned.2.error)
        [{ severity := lit "error", code := lit "INTERNAL_ERROR", reason := versioned.2.error }])
    else
      match p.store.swapIfCurrent p.current.policyIdentity p.snapshot with
      | .error error =>
        ({ state with epochs := rollbackRouteEpochsForApply state.epochs versioned.2.routes },
          rejectSwap p error)
      | .ok store => finishApply p state store versioned.2

/-- `TqApplyService::execute_impl` -/
def TqApplyService.executeImpl {α : Type} (F : TqFrontEnd α) (state : ApplyServiceState) :
    ApplyServiceState × TqApplyResult :=
  match prepareApply F L request state.policyStore with
  | .error result => (state, result)
  | .ok prepared => commitApply L config call request prepared state

end Commit

/-! ## Which requests are carried out -/

section Passes

variable {α : Type} (F : TqFrontEnd α) (L : IrLanguage) (request : TqApplyRequest)
  (policyStore : Option RuntimePolicyStore) (store : RuntimePolicyStore)
  (current : RuntimePolicySnapshot) (candidate parsed : PolicyIr)
  (result : TqApplyResult)

/-- The candidate passes the validation, but for what concerns several routes, and the analysis. -/
def CandidatePasses (strict : Bool) (candidate : PolicyIr) : Prop :=
  hasError ((validateTaperqueryPolicyIr candidate { strictProduction := strict }).issues.filter
      (·.subsystem ≠ .crossRoute)) = false ∧
    (analyzeTaperqueryRoutePrecedence candidate).ok = true ∧
    (analyzeTaperqueryRoutePrecedence candidate).findings.any (·.severity = .error) = false

/-- The plan has no blocker and changes something. What is reported of the routes does not matter. -/
def PlanPasses (strict : Bool) (before after : PolicyIr) : Prop :=
  let plan := taperqueryApplyPlan L {} strict before after
  plan.ok = true ∧ plan.issues.filter (·.severity = .blocker) = [] ∧
    plan.beforePolicyIdentity ≠ plan.afterPolicyIdentity

/-- The request is an apply that every check lets pass, with the candidate it is compiled to and what
    that is read back as. -/
structure PassesChecks : Prop where
  configured : policyStore = some store
  wellFormed : requestError request = none
  active : store.active = some current
  base : performCas request = true → request.expectedBaseIdentity = current.policyIdentity
  compiled : compileCandidate F L request (startResult request current) = .ok candidate
  valid : CandidatePasses request.strictProduction candidate
  plan : PlanPasses L request.strictProduction current.policyIr candidate
  reparsed : ∃ yaml, L.emitAndReparse candidate = .ok (yaml, parsed)
  identity : L.computePolicyDocumentIdentity (L.normalizePolicyIr candidate) =
    L.computePolicyDocumentIdentity parsed
  mode : request.mode = .apply

/-- The snapshot that an apply swaps in. -/
def nextSnapshot : RuntimePolicySnapshot where
  policyIdentity :=
    if parsed.routes.isEmpty then lit "empty" else L.computePolicyDocumentIdentity parsed
  sourceName := parsed.sourceName
  generation := current.generation + 1
  policyIr := parsed

/-- What a request that passes goes on with. -/
def preparedOf : PreparedApply where
  store := store
  current := current
  plan := taperqueryApplyPlan L request.planOptions request.strictProduction current.policyIr candidate
  candidateIdentity := L.computePolicyDocumentIdentity (L.normalizePolicyIr candidate)
  parsed := parsed
  snapshot := nextSnapshot L current parsed
  result := result

theorem checkPlan_cases :
    (PlanPasses L request.strictProduction current.policyIr candidate ∧
      ∃ checked, checkPlan L request current candidate result = .ok checked ∧
        checked.plan = taperqueryApplyPlan L request.planOptions request.strictProduction
          current.policyIr candidate) ∨
    (¬PlanPasses L request.strictProduction current.policyIr candidate ∧
      ∃ ended, checkPlan L request current candidate result = .error ended) := by
  unfold checkPlan
  dsimp only
  split
  next hblocked =>
    refine .inr ⟨?_, _, rfl⟩
    rintro ⟨hok, hblockers, -⟩
    rcases hblocked with h | h
    · exact Bool.false_ne_true (h.symm.trans hok)
    · exact h hblockers
  next hpass =>
    simp only [not_or, Bool.not_eq_false, not_not] at hpass
    split
    next hsame => exact .inr ⟨fun h => h.2.2 hsame, _, rfl⟩
    next hchs => exact .inl ⟨⟨hpass.1, hpass.2, hchs⟩, _, rfl, rfl⟩

theorem checkCandidate_cases :
    (CandidatePasses request.strictProduction candidate ∧
      ∃ checked, checkCandidate request candidate result = .ok checked) ∨
    (¬CandidatePasses request.strictProduction candidate ∧
      ∃ ended, checkCandidate request candidate result = .error ended) := by
  unfold checkCandidate
  dsimp only
  split
  next hinv => exact .inr ⟨fun h => Bool.false_ne_true (h.1.symm.trans hinv), _, rfl⟩
  rename_i hvalid
  split
  next hfound =>
    refine .inr ⟨fun h => ?_, _, rfl⟩
    rcases hfound with hfound | hfound
    · exact Bool.false_ne_true (hfound.symm.trans h.2.1)
    · exact Bool.false_ne_true (h.2.2.symm.trans hfound)
  next hanalysis =>
    simp only [not_or, Bool.not_eq_false, Bool.not_eq_true] at hvalid hanalysis
    exact .inl ⟨⟨hvalid, hanalysis⟩, _, rfl⟩

variable {F L request policyStore store current candidate parsed result}

theorem prepareChecked_ok_iff {p : PreparedApply} :
    prepareChecked L request store current candidate result = .ok p ↔
      request.mode = .apply ∧ ∃ yaml parsed, L.emitAndReparse candidate = .ok (yaml, parsed) ∧
        L.computePolicyDocumentIdentity (L.normalizePolicyIr candidate) =
          L.computePolicyDocumentIdentity parsed ∧
        p = { preparedOf L request store current candidate parsed result with
              plan := result.plan } := by
  unfold prepareChecked roundTrip
  cases hread : L.emitAndReparse candidate with
  | error => simp
  | ok read =>
    obtain ⟨yaml, parsed⟩ := read
    dsimp only
    by_cases hident : L.computePolicyDocumentIdentity (L.normalizePolicyIr candidate) =
        L.computePolicyDocumentIdentity parsed
    · rw [if_neg (not_not.mpr hident)]
      have hbuild : buildNext L current parsed result = .ok (nextSnapshot L current parsed) := rfl
      simp only [hbuild]
      cases request.mode with
      | dryRun => simp
      | apply => simp [hident, eq_comm, preparedOf]
    · rw [if_pos hident]
      constructor
      · intro h
        cases h
      · rintro ⟨-, _, parsed', hread', hsame, -⟩
        obtain ⟨rfl, rfl⟩ := Prod.mk.inj (Except.ok.inj hread')
        exact absurd hsame hident

theorem prepareApply_ok {p : PreparedApply} (h : prepareApply F L request policyStore = .ok p) :
    ∃ store current candidate parsed result,
      PassesChecks F L request policyStore store current candidate parsed ∧
        p = preparedOf L request store current candidate parsed result := by
  unfold prepareApply at h
  split at h
  · cases h
  rename_i store
  split at h
  · cases h
  rename_i hreq
  split at h
  · cases h
  rename_i current hact
  split at h
  · cases h
  rename_i hbase
  unfold prepareCandidate at h
  split at h
  · cases h
  rename_i candidate hcomp
  rcases checkCandidate_cases request candidate (startResult request current) with
    ⟨hvalid, checked, hchk⟩ | ⟨-, _, hended⟩
  · rw [hchk] at h
    dsimp only at h
    rcases checkPlan_cases L request current candidate checked with
      ⟨hpass, planned, hplanned, hplan⟩ | ⟨-, _, hended⟩
    · rw [hplanned] at h
      obtain ⟨hmode, yaml, parsed, hread, hident, rfl⟩ := prepareChecked_ok_iff.mp h
      refine ⟨store, current, candidate, parsed, planned, ⟨rfl, hreq, hact, ?_,
        hcomp, hvalid, hpass, ⟨yaml, hread⟩, hident, hmode⟩, ?_⟩
      · intro hcas
        exact not_not.mp fun hne => hbase ⟨hcas, hne⟩
      · rw [hplan]
        rfl
    · rw [hended] at h
      cases h
  · rw [hended] at h
    cases h

section

variable (h : PassesChecks F L request policyStore store current candidate parsed)

include h

theorem PassesChecks.prepareApply : ∃ result, prepareApply F L request policyStore =
      .ok (preparedOf L request store current candidate parsed result) := by
  obtain ⟨hstore, hreq, hact, hbase, hcomp, hvalid, hpass, ⟨yaml, hread⟩, hident, hmode⟩ := h
  obtain ⟨-, checked, hchk⟩ := (checkCandidate_cases request candidate
    (startResult request current)).resolve_right fun h => h.1 hvalid
  obtain ⟨-, planned, hplanned, hplan⟩ := (checkPlan_cases L request current candidate
    checked).resolve_right fun h => h.1 hpass
  refine ⟨planned, ?_⟩
  have hcas : ¬(performCas request ∧ request.expectedBaseIdentity ≠ current.policyIdentity) :=
    fun h => h.2 (hbase h.1)
  simp only [TaperQuery.prepareApply, hstore, hreq, hact, if_neg hcas, prepareCandidate,
    hcomp, hchk, hplanned]
  refine prepareChecked_ok_iff.mpr ⟨hmode, yaml, parsed, hread, hident, ?_⟩
  rw [hplan]
  rfl

/-- The candidate and what it is read back as are determined by the request. -/
theorem PassesChecks.unique {candidate' parsed'}
    (h' : PassesChecks F L request policyStore store current candidate' parsed') :
    candidate' = candidate ∧ parsed' = parsed := by
  obtain rfl := Except.ok.inj (h'.compiled.symm.trans h.compiled)
  obtain ⟨yaml, hread⟩ := h.reparsed
  obtain ⟨yaml', hread'⟩ := h'.reparsed
  exact ⟨rfl, (Prod.mk.inj (Except.ok.inj (hread'.symm.trans hread))).2⟩

theorem PassesChecks.forall_iff (P : PolicyIr → PolicyIr → Prop) :
    (∀ candidate parsed, PassesChecks F L request policyStore store current candidate parsed →
      P candidate parsed) ↔ P candidate parsed := by
  refine ⟨fun hall => hall candidate parsed h, fun hholds candidate' parsed' h' => ?_⟩
  obtain ⟨rfl, rfl⟩ := h.unique h'
  exact hholds

end

end Passes

/-! ## How an apply ends -/

section Ends

variable (L : IrLanguage) (config : LocalPolicyPersistenceConfig)
  (call : ApplyCall) (request : TqApplyRequest) {p : PreparedApply} (state : ApplyServiceState)

/-- With a store that serves the snapshot of the plan, only the files and the epochs can fail. -/
theorem commitApply_cases (hstore : p.store = .serving p.current)
    (hnext : p.snapshot.generation = p.current.generation + 1) :
    (∃ directory error, persistApply L config call request p state.directory =
        (directory, .error error) ∧
      (commitApply L config call request p state).1 = { state with directory } ∧
      (commitApply L config call request p state).2.status = .rejectedPersistenceFailed) ∨
    (∃ directory, persistApply L config call request p state.directory = (directory, .ok ()) ∧
      (syncRouteEpochs state.epochs p.plan.routeChanges).2.ok = false ∧
      (commitApply L config call request p state).1 =
        { state with directory, epochs := (syncRouteEpochs state.epochs p.plan.routeChanges).1 } ∧
      (commitApply L config call request p state).2.status = .internalError) ∨
    (∃ directory, persistApply L config call request p state.directory = (directory, .ok ()) ∧
      (syncRouteEpochs state.epochs p.plan.routeChanges).2.ok ∧
      commitApply L config call request p state = finishApply p
          { state with directory, epochs := (syncRouteEpochs state.epochs p.plan.routeChanges).1 }
          (.serving p.snapshot) (syncRouteEpochs state.epochs p.plan.routeChanges).2) := by
  cases hpers : persistApply L config call request p state.directory with
  | mk directory outcome =>
    cases outcome with
    | error error =>
      refine .inl ⟨directory, error, rfl, ?_, ?_⟩
      · simp only [commitApply, hpers]
      · simp only [commitApply, hpers]
        rfl
    | ok =>
      have hswap : p.store.swapIfCurrent p.current.policyIdentity p.snapshot =
          .ok (.serving p.snapshot) := by
        simp [hstore, RuntimePolicyStore.swapIfCurrent, RuntimePolicyStore.serving, hnext]
      cases hok : (syncRouteEpochs state.epochs p.plan.routeChanges).2.ok with
      | false =>
        refine .inr (.inl ⟨directory, rfl, rfl, ?_, ?_⟩)
        · simp only [commitApply, hpers, hok, if_true]
        · simp only [commitApply, hpers, hok, if_true]
          rfl
      | true =>
        refine .inr (.inr ⟨directory, rfl, rfl, ?_⟩)
        simp [commitApply, hpers, hok, hswap]

end Ends

end ByteTaper.TaperQuery
