import ByteTaper.ControlPlane.PolicyStateRecord
import ByteTaper.TaperQuery.RoutePolicyIr

/-! # The persisted policy

`policy_persistence.cpp`: the active policy is kept in a directory as canonical YAML, once under a name
of its own for every version, with a metadata file beside it; a start reads it back. A directory is a
map from the names below the state directory to contents. A file is written under another name and then
renamed, so a failed write leaves it as it was. -/

namespace ByteTaper.TaperQuery

open ControlPlane Option PolicyAuditRecord

/-! ## Configuration and metadata -/

structure LocalPolicyPersistenceConfig where
  enabled : Bool := true
  stateDir : Text := []
  activePolicyFilename : Text := lit "active-policy.yaml"
  metadataFilename : Text := lit "active-policy.meta.json"

structure BootstrapMetadata where
  file : Text := []
  role : Text := []
  overwriteProtection : Bool := true
deriving DecidableEq

structure CompatibilityMetadata where
  policyIrVersion : Text := []
  identityVersion : Text := []
  emitterVersion : Text := []
  runtimeMinVersion : Text := []
  runtimeCapabilityProfile : Text := []
deriving DecidableEq

structure PersistedPolicyMetadata where
  policyIdentity : Text := []
  candidatePolicyIdentity : Text := []
  persistedPolicyIdentity : Text := []
  previousPolicyIdentity : Text := []
  expectedBaseIdentity : Text := []
  generation : UInt64 := 0
  sourceType : Text := []
  writtenAtUnixEpochMs : UInt64 := 0
  operatorId : Text := []
  requestId : Text := []
  canonicalYamlSha256 : Text := []
  metadataSchemaVersion : UInt32 := 0
  resourceKey : Text := []
  applyId : Text := []
  previousGeneration : UInt64 := 0
  previousPolicyId : Text := []
  schemaVersion : UInt32 := 0
  apiVersion : Text := []
  kind : Text := []
  activePolicyFile : Text := []
  versionedPolicyFile : Text := []
  committedAtUnixEpochMs : UInt64 := 0
  canonicalHash : Text := []
  canonicalHashAlgorithm : Text := []
  bootstrap : BootstrapMetadata := {}
  compatibility : CompatibilityMetadata := {}
deriving DecidableEq

namespace PersistedPolicyMetadata

/-! ## Writing metadata -/

variable (m : PersistedPolicyMetadata)

def legacyFields : Fields :=
  [(lit "policy_identity", .text m.policyIdentity),
   (lit "candidate_policy_identity", .text m.candidatePolicyIdentity),
   (lit "persisted_policy_identity", .text m.persistedPolicyIdentity),
   (lit "previous_policy_identity", .text m.previousPolicyIdentity),
   (lit "expected_base_identity", .text m.expectedBaseIdentity),
   (lit "generation", .u64 m.generation),
   (lit "source_type", .text m.sourceType),
   (lit "written_at_unix_epoch_ms", .u64 m.writtenAtUnixEpochMs),
   (lit "operator_id", .text m.operatorId),
   (lit "request_id", .text m.requestId),
   (lit "canonical_yaml_sha256", .text m.canonicalYamlSha256),
   (lit "active_policy_file", .text m.activePolicyFile),
   (lit "canonical_hash", .text m.canonicalHash),
   (lit "canonical_hash_algorithm", .text m.canonicalHashAlgorithm),
   (lit "versioned_policy_file", .text m.versionedPolicyFile)]

def fields : Fields :=
  [(lit "metadataSchemaVersion", .u32 m.metadataSchemaVersion),
   (lit "resourceKey", .text m.resourceKey),
   (lit "generation", .u64 m.generation),
   (lit "policyId", .text m.policyIdentity),
   (lit "candidatePolicyIdentity", .text m.candidatePolicyIdentity),
   (lit "persistedPolicyIdentity", .text m.persistedPolicyIdentity),
   (lit "previousPolicyIdentity", .text m.previousPolicyIdentity),
   (lit "expectedBaseIdentity", .text m.expectedBaseIdentity),
   (lit "sourceType", .text m.sourceType),
   (lit "writtenAtUnixEpochMs", .u64 m.writtenAtUnixEpochMs),
   (lit "operatorId", .text m.operatorId),
   (lit "requestId", .text m.requestId),
   (lit "applyId", .text m.applyId),
   (lit "previousGeneration", .u64 m.previousGeneration),
   (lit "previousPolicyId", .text m.previousPolicyId),
   (lit "schemaVersion", .u32 m.schemaVersion),
   (lit "apiVersion", .text m.apiVersion),
   (lit "kind", .text m.kind),
   (lit "activePolicyFile", .text m.activePolicyFile),
   (lit "versionedPolicyFile", .text m.versionedPolicyFile),
   (lit "committedAtUnixEpochMs", .u64 m.committedAtUnixEpochMs),
   (lit "canonicalHash", .text m.canonicalHash),
   (lit "canonicalHashAlgorithm", .text m.canonicalHashAlgorithm)]

/-- A member whose value is an object, one more level indented. -/
def nestedObject (key : Text) (nested : Fields) (tail : Text) : Text :=
  lit ",\n  \"" ++ key ++ lit "\": \x7b\n" ++ docText (objectMembers [] (lit "    ") nested) tail

def bootstrapText : Text :=
  nestedObject (lit "bootstrap")
    [(lit "file", .text m.bootstrap.file), (lit "role", .text m.bootstrap.role)]
    (lit ",\n    \"overwriteProtection\": " ++
      (if m.bootstrap.overwriteProtection then lit "true" else lit "false") ++ lit "\n  \x7d")

def compatibilityText : Text :=
  nestedObject (lit "compatibility")
    [(lit "policyIrVersion", .text m.compatibility.policyIrVersion),
     (lit "identityVersion", .text m.compatibility.identityVersion),
     (lit "emitterVersion", .text m.compatibility.emitterVersion),
     (lit "runtimeMinVersion", .text m.compatibility.runtimeMinVersion),
     (lit "runtimeCapabilityProfile", .text m.compatibility.runtimeCapabilityProfile)]
    (lit "\n  \x7d")

end PersistedPolicyMetadata

def serializeMetadata (m : PersistedPolicyMetadata) : Text :=
  if m.metadataSchemaVersion = 0 then docText (recordMembers m.legacyFields) recordTail
  else
    docText (recordMembers m.fields) (m.bootstrapText ++ m.compatibilityText ++ recordTail)

/-! ## Reading metadata -/

/-- The first of the two words that stands behind the colon of the key. -/
def readOverwriteProtection (json : Text) : Bool :=
  match fromColon json (lit "overwriteProtection") with
  | none => true
  | some colon =>
    match afterFirst (lit "true") colon, afterFirst (lit "false") colon with
    | some _, none => true
    | some afterTrue, some afterFalse => afterFalse.length + 1 < afterTrue.length
    | none, some _ => false
    | none, none => true

/-- `none` if a number is out of range, which throws. -/
def readMetadata (json : Text) : Option PersistedPolicyMetadata := do
  let l := lookupIn json
  let metadataSchemaVersion ← l.u32 (lit "metadataSchemaVersion")
  let generation ← l.u64 (lit "generation")
  let writtenAtUnixEpochMs ← l.u64 (lit "writtenAtUnixEpochMs")
  let previousGeneration ← l.u64 (lit "previousGeneration")
  let schemaVersion ← l.u32 (lit "schemaVersion")
  let committedAtUnixEpochMs ← l.u64 (lit "committedAtUnixEpochMs")
  return {
    metadataSchemaVersion
    resourceKey := l.text (lit "resourceKey")
    generation
    policyIdentity := l.text (lit "policyId")
    candidatePolicyIdentity := l.text (lit "candidatePolicyIdentity")
    persistedPolicyIdentity := l.text (lit "persistedPolicyIdentity")
    previousPolicyIdentity := l.text (lit "previousPolicyIdentity")
    expectedBaseIdentity := l.text (lit "expectedBaseIdentity")
    sourceType := l.text (lit "sourceType")
    writtenAtUnixEpochMs
    operatorId := l.text (lit "operatorId")
    requestId := l.text (lit "requestId")
    canonicalHash := l.text (lit "canonicalHash")
    canonicalHashAlgorithm := l.text (lit "canonicalHashAlgorithm")
    applyId := l.text (lit "applyId")
    previousGeneration
    previousPolicyId := l.text (lit "previousPolicyId")
    schemaVersion
    apiVersion := l.text (lit "apiVersion")
    kind := l.text (lit "kind")
    activePolicyFile := l.text (lit "activePolicyFile")
    versionedPolicyFile := l.text (lit "versionedPolicyFile")
    committedAtUnixEpochMs
    bootstrap :=
      { file := l.text (lit "file"), role := l.text (lit "role")
        overwriteProtection := readOverwriteProtection json }
    compatibility :=
      { policyIrVersion := l.text (lit "policyIrVersion")
        identityVersion := l.text (lit "identityVersion")
        emitterVersion := l.text (lit "emitterVersion")
        runtimeMinVersion := l.text (lit "runtimeMinVersion")
        runtimeCapabilityProfile := l.text (lit "runtimeCapabilityProfile") } }

def readLegacyMetadata (json : Text) : Option PersistedPolicyMetadata := do
  let l := lookupIn json
  let generation ← l.u64 (lit "generation")
  let writtenAtUnixEpochMs ← l.u64 (lit "written_at_unix_epoch_ms")
  return {
    policyIdentity := l.text (lit "policy_identity")
    candidatePolicyIdentity := l.text (lit "candidate_policy_identity")
    persistedPolicyIdentity := l.text (lit "persisted_policy_identity")
    previousPolicyIdentity := l.text (lit "previous_policy_identity")
    expectedBaseIdentity := l.text (lit "expected_base_identity")
    generation
    sourceType := l.text (lit "source_type")
    writtenAtUnixEpochMs
    operatorId := l.text (lit "operator_id")
    requestId := l.text (lit "request_id")
    canonicalYamlSha256 := l.text (lit "canonical_yaml_sha256")
    activePolicyFile := l.text (lit "active_policy_file")
    canonicalHash := l.text (lit "canonical_hash")
    canonicalHashAlgorithm := l.text (lit "canonical_hash_algorithm")
    versionedPolicyFile := l.text (lit "versioned_policy_file") }

def deserializeMetadata (json : Text) : Option PersistedPolicyMetadata :=
  if (afterFirst (quoted (lit "metadataSchemaVersion")) json).isSome then readMetadata json
  else readLegacyMetadata json

/-! ## Files -/

abbrev StateDirectory := Text → Option Text

def StateDirectory.write (dir : StateDirectory) (name content : Text) : StateDirectory :=
  fun other => if other = name then some content else dir other

def padLeft (width : Nat) (digits : Text) : Text :=
  List.replicate (width - digits.length) '0' ++ digits

def withoutSha256 (hash : Text) : Text :=
  if (lit "sha256:").isPrefixOf hash then hash.drop 7 else hash

/-- The number is printed into a buffer of 16 characters. -/
def makeVersionedFilename (generation : UInt64) (policyId : Text) : Text :=
  lit "versions/" ++ (padLeft 10 (Nat.toDigits 10 generation.toNat)).take 15 ++ lit "-sha256_" ++
    (withoutSha256 policyId).take 8 ++ lit ".yaml"

/-- The file accesses that fail, with the error of the system. -/
structure PersistFaults where
  createStateDir : Option Text := none
  createVersionsDir : Option Text := none
  openVersioned : Bool := false
  writeVersioned : Option Text := none
  writeActive : Option Text := none
  writeMetadata : Option Text := none

section Persist

variable (L : IrLanguage) (config : LocalPolicyPersistenceConfig)
  (faults : PersistFaults)

/-- A version that is there already is kept, if it has the same hash. -/
def persistVersioned (dir : StateDirectory) (name yaml : Text) : Except Text StateDirectory :=
  match dir name with
  | some existing =>
    if faults.openVersioned then
      .error (lit "Failed to open existing versioned policy file (VERSIONED_POLICY_WRITE_FAILED)")
    else if L.sha256Hex existing ≠ L.sha256Hex yaml then
      .error (lit "Versioned policy generation conflict (VERSIONED_POLICY_CONFLICT)")
    else .ok dir
  | none =>
    match faults.writeVersioned with
    | some error =>
      .error (lit "Versioned policy write failed (VERSIONED_POLICY_WRITE_FAILED): " ++ error)
    | none => .ok (dir.write name yaml)

def persistedMetadata (metadata : PersistedPolicyMetadata) (yaml : Text) :
    PersistedPolicyMetadata :=
  { metadata with
    canonicalYamlSha256 := L.sha256Hex yaml
    canonicalHash := lit "sha256:" ++ L.sha256Hex yaml
    canonicalHashAlgorithm := lit "sha256"
    versionedPolicyFile := makeVersionedFilename metadata.generation metadata.policyIdentity }

/-- The files that are there at the end, and the error if a step failed. -/
def persistActivePolicyCanonicalYaml (dir : StateDirectory)
    (document : PolicyIr) (metadata : PersistedPolicyMetadata) :
    StateDirectory × Except Text Unit :=
  let yaml := L.emitPolicyIrCanonicalYaml document
  if config.enabled = false then (dir, .ok ())
  else if config.stateDir = [] then (dir, .error (lit "State directory is empty"))
  else
    match faults.createStateDir, faults.createVersionsDir with
    | some error, _ => (dir, .error (lit "Failed to create state directory: " ++ error))
    | none, some error =>
      (dir, .error (
        lit "Failed to create versions directory (VERSIONED_POLICY_DIRECTORY_CREATE_FAILED): " ++
          error))
    | none, none =>
      match persistVersioned L faults dir
          (makeVersionedFilename metadata.generation metadata.policyIdentity) yaml with
      | .error error => (dir, .error error)
      | .ok versioned =>
        match faults.writeActive, faults.writeMetadata with
        | some error, _ => (versioned, .error error)
        | none, some error =>
          (versioned.write config.activePolicyFilename yaml, .error error)
        | none, none =>
          ((versioned.write config.activePolicyFilename yaml).write config.metadataFilename
            (serializeMetadata (persistedMetadata L metadata yaml)), .ok ())

end Persist

/-! ## Loading -/

/-- `missing` if neither of the two files is there. -/
structure PersistedLoadError where
  error : Text
  missing : Bool := false

def sourceTypes : List Text :=
  [lit "bootstrap-import", lit "taperql-apply", lit "rollback", lit "manual-repair",
    lit "manual-adopt", lit "unknown"]

variable (m : PersistedPolicyMetadata)

/-- The reason for which metadata is refused before any policy is read. -/
def metadataError : Option Text :=
  if 1 < m.metadataSchemaVersion then
    some (lit "Metadata schema version unsupported (METADATA_SCHEMA_UNSUPPORTED)")
  else if m.metadataSchemaVersion = 1 then
    if m.resourceKey = [] ∨ m.generation = 0 ∨ m.policyIdentity = [] ∨ m.canonicalHash = [] ∨
        m.canonicalHashAlgorithm = [] ∨ m.sourceType = [] ∨ m.schemaVersion = 0 ∨
        m.apiVersion = [] ∨ m.kind = [] ∨ m.activePolicyFile = [] ∨ m.writtenAtUnixEpochMs = 0 then
      some (lit "Metadata is missing required fields (METADATA_REQUIRED_FIELD_MISSING)")
    else if m.sourceType ∉ sourceTypes then
      some (lit "Metadata sourceType is invalid (METADATA_REQUIRED_FIELD_MISSING)")
    else none
  else if m.policyIdentity = [] ∧ m.canonicalHash = [] then
    some (lit "Metadata missing policy identity")
  else if m.canonicalHash = [] ∧ m.canonicalYamlSha256 = [] then
    some (lit "Metadata missing integrity hash (METADATA_REQUIRED_FIELD_MISSING)")
  else none

/-- A path that leads out of the directory. -/
def unsafePath (path : Text) : Bool := occursIn (lit "..") path || path.head? = some '/'

def pathError : Option Text :=
  if unsafePath m.activePolicyFile then
    some (lit "Metadata active_policy_file path invalid (METADATA_PATH_INVALID)")
  else if unsafePath m.versionedPolicyFile then
    some (lit "Metadata versioned_policy_file path invalid (METADATA_PATH_INVALID)")
  else none

def PersistedPolicyMetadata.expectedHash : Text :=
  withoutSha256
    (if m.metadataSchemaVersion = 1 ∨ m.canonicalHash ≠ [] then m.canonicalHash
    else m.canonicalYamlSha256)

/-- The reason for which the YAML of a schema 1 policy does not go with its metadata. -/
def crossError (document : PolicyIr) (m : PersistedPolicyMetadata) : Option Text :=
  if m.metadataSchemaVersion ≠ 1 then none
  else if document.generation ≠ m.generation then
    some (lit "Generation mismatch between YAML and metadata (METADATA_GENERATION_MISMATCH)")
  else if document.policyId ≠ m.policyIdentity then
    some (lit "PolicyId mismatch between YAML and metadata (METADATA_POLICY_ID_MISMATCH)")
  else if document.schemaVersionNum ≠ m.schemaVersion then
    some (lit "Schema version mismatch between YAML and metadata")
  else if document.apiVersion ≠ m.apiVersion then
    some (lit "API version unsupported or mismatch (METADATA_API_VERSION_UNSUPPORTED)")
  else if document.kind ≠ m.kind then
    some (lit "Kind unsupported or mismatch (METADATA_KIND_UNSUPPORTED)")
  else none

section Load

variable (L : IrLanguage) (config : LocalPolicyPersistenceConfig)
  (dir : StateDirectory)

/-- `std::filesystem::path(state_dir) / name`, for a name that is not absolute. -/
def LocalPolicyPersistenceConfig.path (name : Text) : Text :=
  config.stateDir ++ '/' :: name

/-- A file is read as its text is, and remembers its path. -/
def loadPolicyIrFromYamlFile (path content : Text) : Except Text PolicyIr :=
  match L.loadYaml content with
  | .error error => .error error
  | .ok document => .ok { document with sourceName := path }

def versionedError (m : PersistedPolicyMetadata) : Option Text :=
  if m.versionedPolicyFile = [] then none
  else
    match dir m.versionedPolicyFile with
    | none =>
      some (lit "Versioned policy file missing (VERSIONED_POLICY_MISSING): " ++
        config.path m.versionedPolicyFile)
    | some content =>
      if withoutSha256 m.canonicalHash ≠ [] ∧
          L.sha256Hex content ≠ withoutSha256 m.canonicalHash then
        some (lit "Versioned policy hash mismatch (VERSIONED_POLICY_HASH_MISMATCH)")
      else none

/-- What follows once the metadata has been read. -/
def loadPersistedYaml (yaml : Text) (m : PersistedPolicyMetadata) : Except Text PolicyIr :=
  match (metadataError m).or (pathError m) with
  | some error => .error error
  | none =>
    if L.sha256Hex yaml ≠ m.expectedHash then
      .error (lit "Active policy file integrity check failed (METADATA_CANONICAL_HASH_MISMATCH)")
    else
      match versionedError L config dir m with
      | some error => .error error
      | none =>
        match loadPolicyIrFromYamlFile L (config.path config.activePolicyFilename) yaml with
        | .error error => .error (lit "Failed to parse active policy YAML: " ++ error)
        | .ok document =>
          match crossError document m with
          | some error => .error error
          | none =>
            let computed := L.computePolicyDocumentIdentity document
            if computed ≠ m.policyIdentity then
              .error (lit "Policy identity mismatch (computed=" ++ computed ++ lit ", meta=" ++
                m.policyIdentity ++ lit ")")
            else .ok document

/-- `none` if a number of the metadata is out of range, which throws. -/
def loadPersistedActivePolicy :
    Option (Except PersistedLoadError (PolicyIr × PersistedPolicyMetadata)) :=
  if config.enabled = false then some (.error { error := lit "Persistence is disabled" })
  else if config.stateDir = [] then some (.error { error := lit "State directory is empty" })
  else
    match dir config.activePolicyFilename, dir config.metadataFilename with
    | none, none =>
      some (.error
        { error := lit "Persisted active policy and metadata files do not exist", missing := true })
    | some yaml, some json =>
      (deserializeMetadata json).map fun m =>
        match loadPersistedYaml L config dir yaml m with
        | .error error => .error { error }
        | .ok document => .ok (document, m)
    | _, _ =>
      some (.error
        { error := lit
            "Incomplete persisted state: one of active policy or metadata is missing" })

end Load

/-! ## Startup -/

/-- `bootstrap` is what reading the bootstrap file gives. -/
structure StartupPolicyLoadConfig where
  bootstrapPolicyFile : Text := []
  bootstrap : Except Text PolicyIr := .error []
  persistence : LocalPolicyPersistenceConfig := {}
  fallbackToBootstrapOnPersistedPolicyError : Bool := false

structure StartupPolicy where
  loadedSource : Text
  policyIdentity : Text
  generation : UInt64
  policyIr : PolicyIr

section Startup

variable (L : IrLanguage) (config : StartupPolicyLoadConfig)

def loadBootstrap : Except Text StartupPolicy :=
  if config.bootstrapPolicyFile = [] then .error (lit "Bootstrap policy file is not configured")
  else
    match config.bootstrap with
    | .error error => .error (lit "Failed to load bootstrap policy file: " ++ error)
    | .ok policyIr =>
      .ok
        { loadedSource := lit "bootstrap"
          policyIdentity := L.computePolicyDocumentIdentity policyIr
          generation := 1
          policyIr }

/-- `none` if loading throws. -/
def loadStartupPolicyWithPersistence (dir : StateDirectory) : Option (Except Text StartupPolicy) :=
  if config.persistence.enabled = false ∨ config.persistence.stateDir = [] then
    some (loadBootstrap L config)
  else
    (loadPersistedActivePolicy L config.persistence dir).map fun
      | .ok (policyIr, metadata) =>
        .ok
          { loadedSource := lit "persisted", policyIdentity := metadata.policyIdentity
            generation := metadata.generation, policyIr }
      | .error failure =>
        if failure.missing || config.fallbackToBootstrapOnPersistedPolicyError then
          loadBootstrap L config
        else
          .error (lit "Persisted active policy file exists but is corrupt: " ++ failure.error)

/-- The policy that a restart loads from the directory, if it loads one. -/
def restartPolicy (dir : StateDirectory) : Option StartupPolicy :=
  match loadStartupPolicyWithPersistence L config dir with
  | some (.ok policy) => some policy
  | _ => none

end Startup

/-! ## Damaged texts

`std::stoull` throws at a number that 64 bits do not hold, and no reader catches that. -/

variable {json key : Text}

/-- The digits behind the key, if it is there, are a number of 64 bits. -/
def DigitsFit (json key : Text) : Prop :=
  ∀ colon ∈ fromColon json key, Decimal.value (digitsIn (colon.drop 1)) < 2 ^ 64

/-- The same for the keys of all fields that hold a number. -/
def NumbersFit (json : Text) (fields : Fields) : Prop :=
  ∀ field ∈ fields, (∃ v, field.2 = .text v) ∨ DigitsFit json field.1

/-- The same for the failure of a job, which is an object, or part of the job in older records. -/
def FailureFits (json : Text) : Prop :=
  jsonFieldIsNull json (lit "failure") = true ∨
    let object := extractJsonObject json (lit "failure")
    if object = [] then
      DigitsFit json olderFailureKeys.expectedGeneration ∧
        DigitsFit json olderFailureKeys.actualGeneration
    else NumbersFit object ({} : PolicyUpdateJobFailureRecord).fields

@[simp] theorem exists_u64_iff : (∃ n, (lookupIn json).u64 key = some n) ↔ DigitsFit json key := by
  cases hcolon : fromColon json key <;>
    simp [lookupIn, getJsonUint64Field, DigitsFit, hcolon, stoull]

@[simp] theorem exists_u32_iff : (∃ n, (lookupIn json).u32 key = some n) ↔ DigitsFit json key := by
  rw [← exists_u64_iff]
  simp [lookupIn, getJsonUint32Field]

@[simp] theorem checked_ne_outOfRange {α : Type} {incomplete : α → Bool} {record : Option α} :
    checked incomplete record ≠ .error .outOfRange ↔ ∃ r, record = some r := by
  cases record with
  | none => simp [checked]
  | some =>
    rw [checked]
    split <;> simp

theorem exists_failure_iff :
    (∃ failure, deserializePolicyUpdateJobFailure json = some failure) ↔ FailureFits json := by
  unfold deserializePolicyUpdateJobFailure FailureFits
  split
  next hnull => simp [hnull]
  next hnull =>
    dsimp only
    split <;> simp [hnull, readFailure, bind_eq_some_iff, NumbersFit,
      PolicyUpdateJobFailureRecord.fields]

/-- Each reader returns, with a record or an error, if and only if the numbers it looks up fit. -/
theorem readers_return_iff (json : Text) :
    (deserializeActivePointer json ≠ .error .outOfRange ↔
      NumbersFit json ({} : ActivePolicyPointer).fields) ∧
    (deserializeVersionRecord json ≠ .error .outOfRange ↔
      NumbersFit json ({} : PolicyVersionRecord).fields) ∧
    (deserializeAuditRecord json ≠ .error .outOfRange ↔
      NumbersFit json ({ recordVersion := ((lookupIn json).u32 (lit "recordVersion")).getD 0 } :
        PolicyAuditRecord).fields) ∧
    (deserializePolicyUpdateJobRecord json ≠ .error .outOfRange ↔
      NumbersFit json ({} : PolicyUpdateJobRecord).fields ∧ FailureFits json) ∧
    ((deserializeMetadata json).isSome = true ↔
      NumbersFit json
        (if (afterFirst (quoted (lit "metadataSchemaVersion")) json).isSome then
          ({} : PersistedPolicyMetadata).fields
        else ({} : PersistedPolicyMetadata).legacyFields)) := by
  refine ⟨?_, ?_, ?_, ?_, ?_⟩
  · simp [deserializeActivePointer, readActivePointer, bind_eq_some_iff, NumbersFit,
      ActivePolicyPointer.fields]
  · simp [deserializeVersionRecord, readVersionRecord, bind_eq_some_iff, NumbersFit,
      PolicyVersionRecord.fields]
  · -- the version says which numbers are looked up
    rw [deserializeAuditRecord, checked_ne_outOfRange]
    cases hread : (lookupIn json).u32 (lit "recordVersion") with
    | none =>
      have hver : ¬DigitsFit json (lit "recordVersion") := by simp [← exists_u32_iff, hread]
      simp [readAuditRecord, hread, NumbersFit, PolicyAuditRecord.fields, baseFields, hver]
    | some version =>
      have hver : DigitsFit json (lit "recordVersion") := by simp [← exists_u32_iff, hread]
      by_cases h₂ : 2 ≤ version <;> by_cases h₃ : 3 ≤ version <;>
        simp [readAuditRecord, bind_eq_some_iff, NumbersFit, PolicyAuditRecord.fields,
          baseFields, operationFields,
          eventFields, hread, hver, h₂, h₃]
  · simp [deserializePolicyUpdateJobRecord, readPolicyUpdateJobRecord, bind_eq_some_iff,
      NumbersFit, PolicyUpdateJobRecord.fields, exists_failure_iff, and_assoc]
  · unfold deserializeMetadata
    split
    · simp [readMetadata, isSome_iff_exists, bind_eq_some_iff, NumbersFit,
        PersistedPolicyMetadata.fields]
    · simp [readLegacyMetadata, isSome_iff_exists, bind_eq_some_iff, NumbersFit,
        PersistedPolicyMetadata.legacyFields]

/-- The generation is the first number that 64 bits do not hold. -/
theorem damaged_pointer_throws :
    deserializeActivePointer (lit "\"generation\":18446744073709551616") = .error .outOfRange := by
  decide +kernel

end ByteTaper.TaperQuery
