import ByteTaper.ControlPlane.PolicyStateStore
import ByteTaper.ControlPlane.PolicyUpdateQueue
import ByteTaper.TaperQuery.PolicyIr

/-! # The operations on the policy of a resource

Bootstrap import, apply transaction, rollback and adopt-local, as programs that call the policy
state store: `bootstrap_policy_importer.cpp`, `policy_apply_transaction.cpp`,
`policy_generation_commit.cpp`, `policy_rollback_operation.cpp` and `policy_adopt_operation.cpp`.
Between two calls a program only computes. What plans and compiles a candidate is a parameter, and
the clock readings are part of an operation. -/

namespace ByteTaper.ControlPlane

open TaperQuery (PolicyLanguage TqPolicyDocument)

/-! ## Results -/

inductive PolicyApplyStage where
  | loadActive | validateBase | loadBasePolicy | buildCandidate | canonicalize | storeVersion
  | compareAndPromote | recordResult
deriving DecidableEq

structure ApplyFailure where
  stage : PolicyApplyStage
  code : Text
  message : Text
  expectedGeneration : UInt64 := 0
  actualGeneration : UInt64 := 0
deriving DecidableEq

structure ApplySuccess where
  candidateGeneration : UInt64
  candidatePolicyId : Text
  candidateCanonicalHash : Text
  idempotent : Bool

inductive PolicyApplyStatus where
  | rejectedInvalidRequest | rejectedParseError | rejectedValidation | rejectedCasMismatch
  | rejectedStorageUnavailable | rejectedConfirmationRequired | rollbackAccepted
  | adoptLocalAccepted

structure ResolutionFailure where
  status : PolicyApplyStatus
  errorCode : Text
  error : Text

structure ResolutionSuccess where
  status : PolicyApplyStatus
  newGeneration : UInt64
  newPolicyId : Text

inductive RuntimePolicyHealth where
  | unknown | noPolicyConfigured | startupFailed | bootstrapDriftDetected | active
  | bootstrapImported
deriving DecidableEq

structure BootstrapImportResult where
  ok : Bool := false
  health : RuntimePolicyHealth := .unknown
  error : Text := []

inductive OperationResult where
  | applied (result : Except ApplyFailure ApplySuccess)
  | resolved (result : Except ResolutionFailure ResolutionSuccess)
  | imported (result : BootstrapImportResult)
  | recorded

/-! ## Inputs -/

/-- What plans and compiles: the snapshot built from the base policy, the checks of a YAML
    candidate against it (`none` if it passes), and `TqApplyService::execute`; and the hash
    function of the bootstrap importer. -/
structure PolicyCompiler (ρ : Type) extends PolicyLanguage ρ where
  importerSha256Hex : Text → Text
  installBase : TqPolicyDocument ρ → UInt64 → Except Text Unit
  planYaml : TqPolicyDocument ρ → TqPolicyDocument ρ → PolicyUpdateJob → Option Text
  applyTaperQuery : TqPolicyDocument ρ → ActivePolicyPointer → PolicyUpdateJob →
    Except ApplyFailure (TqPolicyDocument ρ)

/-- The clock when a version record and when a pointer is made. -/
structure CommitTimes where
  created : UInt64 := 0
  committed : UInt64 := 0

structure PolicyRollbackRequest where
  targetGeneration : UInt64 := 0
  expectedCurrentGeneration : UInt64 := 0
  expectedCurrentPolicyId : Text := []
  confirm : Bool := false
  operatorId : Text := []
  requestId : Text := []

structure PolicyAdoptLocalRequest where
  runtimeId : Text := []
  expectedCurrentGeneration : UInt64 := 0
  localGeneration : UInt64 := 0
  localPolicyId : Text := []
  localCanonicalHash : Text := []
  confirmDivergentAdoption : Bool := false
  operatorId : Text := []
  requestId : Text := []

structure AdoptLocalFetchedPolicy where
  canonicalYaml : Text := []
  localGeneration : UInt64 := 0

/-- What fetching a local policy gives: the runtime is not registered, there is no hook, the hook
    fails with a code and a message, or a policy. -/
inductive AdoptLocalFetch where
  | unregistered
  | noHook
  | failed (errorCode error : Text)
  | fetched (policy : AdoptLocalFetchedPolicy)

/-- `document` is what reading the bootstrap file gives; `mirror` and `snapshot` are the errors of
    the steps behind the promotion, if they fail. -/
structure BootstrapImportInput (ρ : Type) where
  configured : Bool := true
  document : Except Text (TqPolicyDocument ρ)
  confirmImport : Bool := false
  committedAt : UInt64 := 0
  mirror : Option Text := none
  snapshot : Option Text := none

inductive Operation (ρ : Type) where
  | bootstrapImport (input : BootstrapImportInput ρ)
  | apply (job : PolicyUpdateJob) (times : CommitTimes)
  | rollback (request : PolicyRollbackRequest) (times : CommitTimes)
  | adoptLocal (request : PolicyAdoptLocalRequest) (fetch : AdoptLocalFetch) (times : CommitTimes)
  | appendAudit (record : PolicyAuditRecord)
  | storeJob (job : PolicyUpdateJobRecord)

/-! ## Candidates -/

/-- A policy that is to become the next generation. -/
structure Candidate (ρ : Type) where
  generation : UInt64
  policyId : Text
  canonicalHash : Text
  document : TqPolicyDocument ρ
  yaml : Text
  sourceType : Text
  applyId : Text

namespace Candidate

variable {ρ : Type} (key : PolicyResourceKey) (c : Candidate ρ) (active : ActivePolicyPointer)
  (times : CommitTimes)

def version : PolicyVersionRecord where
  generation := c.generation
  policyId := c.policyId
  canonicalHash := c.canonicalHash
  schemaVersion := c.document.schemaVersionNum
  apiVersion := c.document.apiVersion
  kind := c.document.kind
  sourceType := c.sourceType
  applyId := c.applyId
  previousGeneration := active.generation
  previousPolicyId := active.policyId
  createdAtUnixEpochMs := times.created

def pointer : ActivePolicyPointer where
  generation := c.generation
  policyId := c.policyId
  canonicalHash := c.canonicalHash
  versionKey := makeVersionKey key c.generation
  yamlKey := makeYamlKey key c.generation
  schemaVersion := c.document.schemaVersionNum
  apiVersion := c.document.apiVersion
  kind := c.document.kind
  sourceType := c.sourceType
  applyId := c.applyId
  previousGeneration := active.generation
  previousPolicyId := active.policyId
  committedAtUnixEpochMs := times.committed

end Candidate

abbrev StoreProgram (key : PolicyResourceKey) :=
  Shared.Program (policyStateStore key) OperationResult

section

variable {ρ : Type} (L : PolicyCompiler ρ) {key : PolicyResourceKey}

def invoke (c : StoreCall) (next : Except StoreError c.Value → StoreProgram key) :
    StoreProgram key := .call c next

/-! ## Apply -/

def applyFailure {α : Type} (stage : PolicyApplyStage) (code message : Text) :
    Except ApplyFailure α :=
  .error { stage, code, message }

def sha256Of (yaml : Text) : Text := lit "sha256:" ++ L.sha256Hex yaml

variable (job : PolicyUpdateJob) (active : ActivePolicyPointer)

/-- The candidate of a job from its source. -/
def buildCandidate (base : TqPolicyDocument ρ) : Except ApplyFailure (TqPolicyDocument ρ) :=
  if job.sourceType = lit "yaml" then
    match L.loadYaml job.source with
    | .error e => applyFailure .buildCandidate (lit "POLICY_APPLY_COMPILE_FAILED") e
    | .ok loaded =>
      let normalized := L.normalizePolicyIr loaded
      let candidate :=
        if job.expectedBasePolicyId ≠ [] then
          { normalized with expectedBaseSha := job.expectedBasePolicyId }
        else normalized
      match L.planYaml base candidate job with
      | some reason => applyFailure .buildCandidate (lit "POLICY_APPLY_COMPILE_FAILED") reason
      | none => .ok candidate
  else L.applyTaperQuery base active job

def canonicalCandidate (ir : TqPolicyDocument ρ) : Except ApplyFailure (Candidate ρ) :=
  match L.emitAndReparse ir with
  | .error e => applyFailure .canonicalize (lit "POLICY_APPLY_CANONICALIZE_FAILED") e
  | .ok (yaml, parsed) =>
    .ok {
      generation := active.generation + 1
      policyId := L.computePolicyDocumentIdentity parsed
      canonicalHash := sha256Of L yaml
      document := parsed
      yaml
      sourceType := if job.sourceType = [] then lit "taperql-apply" else job.sourceType
      applyId := job.jobId }

/-- What `execute` computes between loading the base version and storing the candidate. -/
def applyCandidate (baseYaml : Text) : Except ApplyFailure (Candidate ρ) := do
  let base ←
    match L.loadYaml baseYaml with
    | .error e =>
      applyFailure .loadBasePolicy (lit "POLICY_APPLY_LOAD_BASE_FAILED")
        (lit "failed to parse committed base policy: " ++ e)
    | .ok base => .ok base
  match L.installBase base active.generation with
  | .error e => applyFailure .loadBasePolicy (lit "POLICY_APPLY_LOAD_BASE_FAILED") e
  | .ok () => do
      let ir ← buildCandidate L job active base
      canonicalCandidate L job active ir

def failApply (failure : ApplyFailure) : StoreProgram key := .done (.applied (.error failure))

section

variable (c : Candidate ρ) (times : CommitTimes)

def applyPromote : StoreProgram key :=
  let expected := { generation := active.generation, policyId := active.policyId }
  invoke (.compareAndPromoteActive expected (c.pointer key active times)) fun
    | .error e =>
      failApply
        { stage := .compareAndPromote
          code := lit "POLICY_APPLY_PROMOTE_CONFLICT"
          message := e.error
          expectedGeneration := if e.code = .activePointerConflict then active.generation else 0
          actualGeneration := if e.code = .activePointerConflict then active.generation else 0 }
    | .ok idempotent =>
      .done (.applied (.ok
        { candidateGeneration := c.generation
          candidatePolicyId := c.policyId
          candidateCanonicalHash := c.canonicalHash
          idempotent }))

def applyStore : StoreProgram key :=
  invoke (.storePolicyVersion (c.version active times) c.yaml) fun
    | .error e =>
      failApply
        { stage := .storeVersion
          code := lit "POLICY_APPLY_STORE_VERSION_FAILED"
          message := e.error }
    | .ok () => applyPromote active c times

/-- `PolicyApplyTransaction::execute` -/
def executeApply : StoreProgram key :=
  invoke .loadActivePointer fun
    | .error e =>
      failApply
        { stage := .loadActive
          code := lit "POLICY_APPLY_LOAD_ACTIVE_FAILED"
          message :=
            if e.code = .activePointerNotFound then lit "active policy pointer not found"
            else e.error }
    | .ok active =>
      if active.generation ≠ job.expectedBaseGeneration ∨
          active.policyId ≠ job.expectedBasePolicyId then
        failApply
          { stage := .validateBase
            code := lit "POLICY_APPLY_BASE_MISMATCH"
            message := lit "expected base policy does not match active committed policy"
            expectedGeneration := job.expectedBaseGeneration
            actualGeneration := active.generation }
      else
        invoke (.loadPolicyVersion active.generation) fun
          | .error e =>
            failApply
              { stage := .loadBasePolicy
                code := lit "POLICY_APPLY_LOAD_BASE_FAILED"
                message := e.error }
          | .ok base =>
            match applyCandidate L job active base.canonicalYaml with
            | .error failure => failApply failure
            | .ok c => applyStore active c times

end

/-! ## Committing a generation -/

def kErrManualInvalidRequest : Text := lit "MANUAL_INVALID_REQUEST"
def kErrManualConfirmationRequired : Text := lit "MANUAL_CONFIRMATION_REQUIRED"
def kErrAdoptLocalPolicyUnavailable : Text := lit "ADOPT_LOCAL_POLICY_UNAVAILABLE"
def kErrAdoptLocalPolicyInvalid : Text := lit "ADOPT_LOCAL_POLICY_INVALID"
def kErrRollbackTargetNotFound : Text := lit "ROLLBACK_TARGET_NOT_FOUND"
def kErrRollbackExpectedCurrentMismatch : Text := lit "ROLLBACK_EXPECTED_CURRENT_MISMATCH"
def kErrManualOperationPromoteConflict : Text := lit "MANUAL_OPERATION_PROMOTE_CONFLICT"
def kErrManualAuditWriteFailed : Text := lit "MANUAL_AUDIT_WRITE_FAILED"

structure PolicyGenerationCommitInput where
  expectedActive : ExpectedActivePolicy
  canonicalYaml : Text
  sourceType : Text := []
  applyId : Text := []
  candidateGenerationOverride : UInt64 := 0
  preserveCanonicalYaml : Bool := false
  canonicalHashOverride : Text := []

structure CommitError where
  errorCode : Text
  errorMessage : Text

structure CommitSuccess where
  newGeneration : UInt64
  newPolicyId : Text

abbrev CommitResult := Except CommitError CommitSuccess

variable (input : PolicyGenerationCommitInput)

def commitCandidateOf (active : ActivePolicyPointer) (yaml : Text) (ir : TqPolicyDocument ρ) :
    Candidate ρ where
  generation :=
    if input.candidateGenerationOverride ≠ 0 then input.candidateGenerationOverride
    else active.generation + 1
  policyId := L.computePolicyDocumentIdentity ir
  canonicalHash :=
    if input.canonicalHashOverride = [] then sha256Of L yaml else input.canonicalHashOverride
  document := ir
  yaml
  sourceType := if input.sourceType = [] then lit "unknown" else input.sourceType
  applyId := input.applyId

def commitCandidate (active : ActivePolicyPointer) : Except CommitError (Candidate ρ) :=
  match L.loadYaml input.canonicalYaml with
  | .error e =>
    .error ⟨kErrAdoptLocalPolicyInvalid, if e = [] then lit "failed to parse policy yaml" else e⟩
  | .ok loaded =>
    if input.preserveCanonicalYaml then
      .ok (commitCandidateOf L input active input.canonicalYaml loaded)
    else
      match L.emitAndReparse loaded with
      | .error e =>
        .error ⟨kErrAdoptLocalPolicyInvalid,
          if e = [] then lit "failed to canonicalize policy yaml" else e⟩
      | .ok (yaml, parsed) => .ok (commitCandidateOf L input active yaml parsed)

def commitErrorCode : PolicyStateErrorCode → Text
  | .auditWriteFailed => kErrManualAuditWriteFailed
  | .versionConflict | .activePointerConflict => kErrManualOperationPromoteConflict
  | .dbOpenFailed | .dbWriteFailed | .dbReadFailed => lit "POLICY_APPLY_STORE_VERSION_FAILED"
  | _ => lit "POLICY_APPLY_PROMOTE_CONFLICT"

def Candidate.committed (c : Candidate ρ) : CommitSuccess where
  newGeneration := c.generation
  newPolicyId := c.policyId

/-- The audit record of the commit. -/
def Candidate.audit (c : Candidate ρ) (audit : PolicyAuditRecord) : PolicyAuditRecord :=
  { audit with
    afterGeneration := c.generation
    generation := c.generation
    policyId := c.policyId }

/-- `commit_policy_generation` with an audit record, from the loaded pointer on. -/
def commitOn (audit : PolicyAuditRecord) (times : CommitTimes)
    (finish : CommitResult → OperationResult) (active : ActivePolicyPointer) : StoreProgram key :=
  if active.generation ≠ input.expectedActive.generation ∨
      active.policyId ≠ input.expectedActive.policyId then
    .done (finish (.error ⟨kErrManualOperationPromoteConflict,
      lit "expected active policy does not match committed active pointer"⟩))
  else
    match commitCandidate L input active with
    | .error e => .done (finish (.error e))
    | .ok c =>
      invoke (.commitPolicyGenerationWithAudit (c.version active times) c.yaml
          input.expectedActive (c.pointer key active times) (c.audit audit)) fun
        | .error e => .done (finish (.error ⟨commitErrorCode e.code, e.error⟩))
        | .ok () => .done (finish (.ok c.committed))

def commitPolicyGeneration (audit : PolicyAuditRecord) (times : CommitTimes)
    (finish : CommitResult → OperationResult) : StoreProgram key :=
  invoke .loadActivePointer fun
    | .error e =>
      .done (finish (.error ⟨lit "POLICY_APPLY_LOAD_ACTIVE_FAILED",
        if e.error = [] then lit "active policy pointer not found" else e.error⟩))
    | .ok active => commitOn L input audit times finish active

/-! ## Rollback -/

def failResolution (status : PolicyApplyStatus) (errorCode error : Text) : StoreProgram key :=
  .done (.resolved (.error { status, errorCode, error }))

/-- `make_manual_resolution_audit_record` for an operation that succeeded. -/
def manualAudit (key : PolicyResourceKey) (eventType operation sourceType operatorId : Text)
    (requestId : Text) (before after target recordedAt : UInt64) : PolicyAuditRecord where
  applyId := requestId
  eventId := requestId
  resourceKey := key.toText
  generation := if after ≠ 0 then after else before
  sourceType
  operatorId
  requestId
  recordedAtUnixEpochMs := recordedAt
  operation
  beforeGeneration := before
  afterGeneration := after
  targetGeneration := target
  eventType
  lifecycleStatus := lit "success"
  result := lit "success"

def resourceKeyIsValid (key : PolicyResourceKey) : Bool :=
  key.namespaceName ≠ [] && key.policyName ≠ []

/-- The message of the first check that a rollback request fails. -/
def validateRollbackRequest (key : PolicyResourceKey) (request : PolicyRollbackRequest) :
    Option Text :=
  if !resourceKeyIsValid key then some (lit "resourceKey is required")
  else if request.targetGeneration = 0 then some (lit "targetGeneration is required")
  else if request.expectedCurrentGeneration = 0 then
    some (lit "expectedCurrentGeneration is required")
  else if request.expectedCurrentPolicyId = [] then some (lit "expectedCurrentPolicyId is required")
  else if request.requestId = [] then some (lit "requestId is required")
  else none

/-- How a rollback or an adoption reports the result of its commit. -/
def resolutionOf (accepted : PolicyApplyStatus) : CommitResult → OperationResult
  | .error e =>
    .resolved (.error
      { status := .rejectedCasMismatch, errorCode := e.errorCode, error := e.errorMessage })
  | .ok s =>
    .resolved (.ok
      { status := accepted, newGeneration := s.newGeneration, newPolicyId := s.newPolicyId })

section

variable (request : PolicyRollbackRequest) (times : CommitTimes)

def rollbackInput (active : ActivePolicyPointer) (target : LoadedVersion) :
    PolicyGenerationCommitInput where
  expectedActive := { generation := active.generation, policyId := active.policyId }
  canonicalYaml := target.canonicalYaml
  preserveCanonicalYaml := true
  canonicalHashOverride := target.record.canonicalHash
  sourceType := lit "rollback"
  applyId := request.requestId

/-- The part of a rollback behind the request checks. -/
def rollbackConfirmed : StoreProgram key :=
  invoke .loadActivePointer fun
    | .error e =>
      failResolution .rejectedInvalidRequest kErrManualInvalidRequest
        (if e.error = [] then lit "no active policy pointer exists" else e.error)
    | .ok active =>
      if active.generation ≠ request.expectedCurrentGeneration ∨
          active.policyId ≠ request.expectedCurrentPolicyId then
        failResolution .rejectedCasMismatch kErrRollbackExpectedCurrentMismatch
          (lit "expected current generation/policy does not match active pointer")
      else
        invoke (.loadPolicyVersion request.targetGeneration) fun
          | .error e =>
            failResolution .rejectedInvalidRequest kErrRollbackTargetNotFound
              (if e.error = [] then lit "target generation not found" else e.error)
          | .ok target =>
            commitPolicyGeneration L (rollbackInput request active target)
              (manualAudit key (lit "policy_rollback_completed") (lit "rollback")
                (lit "rollback") request.operatorId request.requestId active.generation
                request.targetGeneration request.targetGeneration times.created)
              times (resolutionOf .rollbackAccepted)

/-- `PolicyRollbackOperation::execute` -/
def executeRollback : StoreProgram key :=
  match validateRollbackRequest key request with
  | some message => failResolution .rejectedInvalidRequest kErrManualInvalidRequest message
  | none =>
    if !request.confirm then
      failResolution .rejectedConfirmationRequired kErrManualConfirmationRequired
        (lit "This operation requires explicit confirmation.")
    else rollbackConfirmed L request times

end

/-! ## Adopt-local -/

def normalizeHash (hash : Text) : Text :=
  if (lit "sha256:").isPrefixOf hash then hash
  else if hash = [] then hash
  else lit "sha256:" ++ hash

structure ResolvedLocalPolicy where
  canonicalYaml : Text
  resolvedLocalGeneration : UInt64
  localGenerationHint : UInt64

def unavailable (status : PolicyApplyStatus) (error : Text) :
    Except ResolutionFailure ResolvedLocalPolicy :=
  .error { status, errorCode := kErrAdoptLocalPolicyUnavailable, error }

def invalidLocal (status : PolicyApplyStatus) (error : Text) :
    Except ResolutionFailure ResolvedLocalPolicy :=
  .error { status, errorCode := kErrAdoptLocalPolicyInvalid, error }

variable (request : PolicyAdoptLocalRequest)

/-- The fetched policy is read, made canonical and compared with the request. -/
def resolveLocalPolicy (fetched : AdoptLocalFetchedPolicy) :
    Except ResolutionFailure ResolvedLocalPolicy :=
  match L.loadYaml fetched.canonicalYaml with
  | .error e =>
    invalidLocal .rejectedParseError
      (if e = [] then lit "failed to parse fetched local policy yaml" else e)
  | .ok loaded =>
    match L.emitAndReparse loaded with
    | .error e =>
      invalidLocal .rejectedValidation
        (if e = [] then lit "failed to canonicalize fetched local policy" else e)
    | .ok (yaml, parsed) =>
      if request.localPolicyId ≠ [] ∧
          request.localPolicyId ≠ L.computePolicyDocumentIdentity parsed then
        invalidLocal .rejectedValidation
          (lit "localPolicyId does not match fetched local policy identity")
      else if request.localCanonicalHash ≠ [] ∧
          normalizeHash request.localCanonicalHash ≠ sha256Of L yaml then
        invalidLocal .rejectedValidation
          (lit "localCanonicalHash does not match fetched local policy hash")
      else
        let generation :=
          if fetched.localGeneration ≠ 0 then fetched.localGeneration
          else request.localGeneration
        .ok {
          canonicalYaml := yaml
          resolvedLocalGeneration := generation
          localGenerationHint := generation }

def fetchLocalPolicy : AdoptLocalFetch → Except ResolutionFailure ResolvedLocalPolicy
  | .unregistered =>
    unavailable .rejectedInvalidRequest
      (lit "runtime local policy could not be fetched: runtime is not registered")
  | .noHook =>
    unavailable .rejectedStorageUnavailable (lit "adopt-local fetch hook is not configured")
  | .failed errorCode error =>
    .error {
      status := .rejectedInvalidRequest
      errorCode := if errorCode = [] then kErrAdoptLocalPolicyUnavailable else errorCode
      error := if error = [] then lit "runtime local policy could not be fetched" else error }
  | .fetched policy =>
    if policy.canonicalYaml = [] then
      unavailable .rejectedInvalidRequest
        (lit "runtime local policy fetch returned empty canonical yaml")
    else resolveLocalPolicy L request policy

def validateAdoptLocalRequest (key : PolicyResourceKey) (request : PolicyAdoptLocalRequest) :
    Option Text :=
  if !resourceKeyIsValid key then some (lit "resourceKey is required")
  else if request.runtimeId = [] then some (lit "runtimeId is required")
  else if request.expectedCurrentGeneration = 0 then
    some (lit "expectedCurrentGeneration is required")
  else if request.requestId = [] then some (lit "requestId is required")
  else none

def adoptInput (active : ActivePolicyPointer) (resolved : ResolvedLocalPolicy)
    (generation : UInt64) : PolicyGenerationCommitInput where
  expectedActive := { generation := active.generation, policyId := active.policyId }
  canonicalYaml := resolved.canonicalYaml
  sourceType := lit "manual-adopt"
  applyId := request.requestId
  candidateGenerationOverride := generation

def adoptCommit (times : CommitTimes) (active : ActivePolicyPointer)
    (resolved : ResolvedLocalPolicy) (generation : UInt64) : StoreProgram key :=
  commitPolicyGeneration L (adoptInput request active resolved generation)
    (manualAudit key (lit "manual_adopt_completed") (lit "adopt-local") (lit "manual-adopt")
      request.operatorId request.requestId request.expectedCurrentGeneration
      resolved.resolvedLocalGeneration resolved.resolvedLocalGeneration times.created)
    times (resolutionOf .adoptLocalAccepted)

variable (fetch : AdoptLocalFetch) (times : CommitTimes)

/-- The part of an adoption behind the request checks. A local generation that is ahead of the
    active one and not taken becomes the candidate (`resolve_adopt_candidate_generation`). -/
def adoptConfirmed : StoreProgram key :=
  invoke .loadActivePointer fun
    | .error e =>
      failResolution .rejectedInvalidRequest kErrManualInvalidRequest
        (if e.error = [] then lit "no active policy pointer exists" else e.error)
    | .ok active =>
      if active.generation ≠ request.expectedCurrentGeneration then
        failResolution .rejectedCasMismatch kErrRollbackExpectedCurrentMismatch
          (lit "expected current generation does not match active pointer")
      else
        match fetchLocalPolicy L request fetch with
        | .error failure => .done (.resolved (.error failure))
        | .ok resolved =>
          if active.generation < resolved.localGenerationHint then
            invoke (.loadPolicyVersion resolved.localGenerationHint) fun
              | .error _ =>
                adoptCommit L request times active resolved resolved.localGenerationHint
              | .ok _ =>
                adoptCommit L request times active resolved (active.generation + 1)
          else adoptCommit L request times active resolved (active.generation + 1)

/-- `PolicyAdoptOperation::execute` -/
def executeAdoptLocal : StoreProgram key :=
  match validateAdoptLocalRequest key request with
  | some message => failResolution .rejectedInvalidRequest kErrManualInvalidRequest message
  | none =>
    if !request.confirmDivergentAdoption then
      failResolution .rejectedConfirmationRequired kErrManualConfirmationRequired
        (lit "This operation requires explicit confirmation.")
    else adoptConfirmed L request fetch times

/-! ## Bootstrap import -/

/-- The importer has its own hash function. -/
def importerSha256Of (yaml : Text) : Text := lit "sha256:" ++ L.importerSha256Hex yaml

def stripSha256Prefix (hash : Text) : Text :=
  if 7 ≤ hash.length ∧ (lit "sha256:").isPrefixOf hash then hash.drop 7 else hash

def checkBootstrapDrift (document : Except Text (TqPolicyDocument ρ))
    (committed : ActivePolicyPointer) : RuntimePolicyHealth :=
  match document with
  | .error _ => .unknown
  | .ok d =>
    if L.computePolicyDocumentIdentity d ≠ committed.policyId ∨
        stripSha256Prefix (importerSha256Of L (L.emitPolicyIrCanonicalYaml d)) ≠
          stripSha256Prefix committed.canonicalHash then
      .bootstrapDriftDetected
    else .unknown

variable (key) (d : TqPolicyDocument ρ) (committedAt : UInt64)

/-- The bootstrap document as it is imported, without its policy id. -/
def bootstrapUnnamed : TqPolicyDocument ρ :=
  { d with
    generation := 1
    schemaVersionNum := 1
    apiVersion := lit "bytetaper.io/v1alpha1"
    kind := lit "RuntimePolicy" }

def bootstrapDocument : TqPolicyDocument ρ :=
  { bootstrapUnnamed d with
    policyId := L.computePolicyDocumentIdentity (bootstrapUnnamed d) }

def bootstrapYaml : Text :=
  L.emitPolicyIrCanonicalYaml (bootstrapDocument L d)

def bootstrapVersion : PolicyVersionRecord where
  resourceKey := key.toText
  generation := 1
  policyId := (bootstrapDocument L d).policyId
  canonicalHash := importerSha256Of L (bootstrapYaml L d)
  schemaVersion := 1
  apiVersion := (bootstrapDocument L d).apiVersion
  kind := (bootstrapDocument L d).kind
  yamlKey := makeYamlKey key 1
  sourceType := lit "bootstrap-import"
  applyId := lit "bootstrap-import"
  createdAtUnixEpochMs := committedAt

def bootstrapPointer : ActivePolicyPointer where
  resourceKey := key.toText
  generation := 1
  policyId := (bootstrapDocument L d).policyId
  canonicalHash := importerSha256Of L (bootstrapYaml L d)
  schemaVersion := 1
  apiVersion := (bootstrapDocument L d).apiVersion
  kind := (bootstrapDocument L d).kind
  versionKey := makeVersionKey key 1
  yamlKey := makeYamlKey key 1
  sourceType := lit "bootstrap-import"
  applyId := lit "bootstrap-import"
  committedAtUnixEpochMs := committedAt

variable {key}

def importFailed (health : RuntimePolicyHealth) (error : Text) : StoreProgram key :=
  .done (.imported { health, error })

variable (input : BootstrapImportInput ρ)

/-- What follows the promotion touches no policy state. -/
def bootstrapFinish : StoreProgram key :=
  match input.mirror, input.snapshot with
  | some e, _ => importFailed .startupFailed (lit "failed to write bootstrap policy mirror: " ++ e)
  | none, some e => importFailed .startupFailed (lit "failed to build bootstrap snapshot: " ++ e)
  | none, none => .done (.imported { ok := true, health := .bootstrapImported })

def bootstrapStore (d : TqPolicyDocument ρ) : StoreProgram key :=
  invoke (.storePolicyVersion (bootstrapVersion L key d input.committedAt) (bootstrapYaml L d)) fun
    | .error e =>
      importFailed .startupFailed (lit "failed to store bootstrap policy version: " ++ e.error)
    | .ok () =>
      invoke (.compareAndPromoteActive {} (bootstrapPointer L key d input.committedAt)) fun
        | .error e =>
          importFailed .startupFailed
            (lit "failed to promote bootstrap active pointer: " ++ e.error)
        | .ok _ => bootstrapFinish input

/-- The answer when there is an active pointer. -/
def bootstrapSkipped (active : ActivePolicyPointer) : StoreProgram key :=
  if !input.confirmImport then
    importFailed .startupFailed (lit "This operation requires explicit confirmation.")
  else if checkBootstrapDrift L input.document active = .bootstrapDriftDetected then
    importFailed .bootstrapDriftDetected
      (lit "bootstrap policy differs from committed active pointer; import skipped")
  else
    importFailed .active (lit "active policy pointer already exists; bootstrap import skipped")

/-- `import_bootstrap_policy` -/
def importBootstrapPolicy : StoreProgram key :=
  if !input.configured then
    importFailed .noPolicyConfigured (lit "bootstrap policy file is not configured")
  else
    invoke .loadActivePointer fun
      | .ok active => bootstrapSkipped L input active
      | .error e =>
        if e.code ≠ .activePointerNotFound then importFailed .startupFailed e.error
        else
          match input.document with
          | .error error =>
            importFailed .startupFailed (lit "failed to load bootstrap policy: " ++ error)
          | .ok d => bootstrapStore L input d

/-! ## All operations -/

def Operation.program : Operation ρ → StoreProgram key
  | .bootstrapImport input => importBootstrapPolicy L input
  | .apply job times => executeApply L job times
  | .rollback request times => executeRollback L request times
  | .adoptLocal request fetch times => executeAdoptLocal L request fetch times
  | .appendAudit record => invoke (.appendAuditRecord record) fun _ => .done .recorded
  | .storeJob job => invoke (.storePolicyUpdateJob job) fun _ => .done .recorded

end

/-- Any number of operations on one resource, from an empty store. -/
def policyHistory {ρ : Type} (L : PolicyCompiler ρ) (key : PolicyResourceKey) :
    Transition.System (Shared.Pool (policyStateStore key) OperationResult)
      (Shared.Action (policyStateStore key) (Operation ρ)) :=
  Shared.Pool.system (Operation.program L) fun _ => none

end ByteTaper.ControlPlane
