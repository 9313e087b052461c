import ByteTaper.ControlPlane.RecordValues

/-! # The records of the policy state store

`policy_state_record.cpp`: the active pointer, policy versions, audit records and update jobs, with
their texts. Every record is a list of fields; it is written as one object and read back key by
key. -/

namespace ByteTaper.ControlPlane

open List

/-! ## Fields -/

inductive FieldValue where
  | text (v : Text)
  | u32 (n : UInt32)
  | u64 (n : UInt64)

def FieldValue.json : FieldValue → JsonValue
  | .text v => .text v
  | .u32 n => .number n.toNat
  | .u64 n => .number n.toNat

abbrev Fields := List (Text × FieldValue)

/-- The fields as members of an object, one a line. -/
def objectMembers (opening indent : Text) : Fields → List JsonMember
  | [] => []
  | (key, value) :: rest =>
    { lead := opening ++ indent, key, value := value.json } ::
      rest.map fun (key, value) =>
        { lead := ',' :: '\n' :: indent, key, value := value.json }

/-- The members of a record that is one object. -/
def recordMembers (fields : Fields) : List JsonMember :=
  objectMembers ['\x7b', '\n'] [' ', ' '] fields

def recordTail : Text := ['\n', '\x7d', '\n']

/-- Ways to look up the value of a key. -/
@[ext] structure Lookup where
  text : Text → Text
  u32 : Text → Option UInt32
  u64 : Text → Option UInt64

/-- The readers of a text. -/
def lookupIn (json : Text) : Lookup where
  text := getJsonStringField json
  u32 := getJsonUint32Field json
  u64 := getJsonUint64Field json

/-- The lookup gives the value of the field. -/
def Lookup.Gives (l : Lookup) (field : Text × FieldValue) : Prop :=
  match field.2 with
  | .text v => l.text field.1 = v
  | .u32 n => l.u32 field.1 = some n
  | .u64 n => l.u64 field.1 = some n

/-- `outOfRange` is thrown by the number readers; `incomplete` is the answer `false`. -/
inductive ReadError where
  | outOfRange
  | incomplete
deriving DecidableEq

/-! ## Active pointers -/

@[ext] structure ActivePolicyPointer where
  recordType : Text := lit "ActivePolicyPointer"
  recordVersion : UInt32 := 1
  resourceKey : Text := []
  generation : UInt64 := 0
  policyId : Text := []
  canonicalHash : Text := []
  schemaVersion : UInt32 := 0
  apiVersion : Text := []
  kind : Text := []
  versionKey : Text := []
  yamlKey : Text := []
  sourceType : Text := []
  applyId : Text := []
  previousGeneration : UInt64 := 0
  previousPolicyId : Text := []
  committedAtUnixEpochMs : UInt64 := 0
deriving DecidableEq

def ActivePolicyPointer.fields (p : ActivePolicyPointer) : Fields :=
  [(lit "recordType", .text p.recordType),
   (lit "recordVersion", .u32 p.recordVersion),
   (lit "resourceKey", .text p.resourceKey),
   (lit "generation", .u64 p.generation),
   (lit "policyId", .text p.policyId),
   (lit "canonicalHash", .text p.canonicalHash),
   (lit "schemaVersion", .u32 p.schemaVersion),
   (lit "apiVersion", .text p.apiVersion),
   (lit "kind", .text p.kind),
   (lit "versionKey", .text p.versionKey),
   (lit "yamlKey", .text p.yamlKey),
   (lit "sourceType", .text p.sourceType),
   (lit "applyId", .text p.applyId),
   (lit "previousGeneration", .u64 p.previousGeneration),
   (lit "previousPolicyId", .text p.previousPolicyId),
   (lit "committedAtUnixEpochMs", .u64 p.committedAtUnixEpochMs)]

def serializeActivePointer (p : ActivePolicyPointer) : Text :=
  docText (recordMembers p.fields) recordTail

def readActivePointer (l : Lookup) : Option ActivePolicyPointer := do
  let recordVersion ← l.u32 (lit "recordVersion")
  let generation ← l.u64 (lit "generation")
  let schemaVersion ← l.u32 (lit "schemaVersion")
  let previousGeneration ← l.u64 (lit "previousGeneration")
  let committedAtUnixEpochMs ← l.u64 (lit "committedAtUnixEpochMs")
  return {
    recordType := l.text (lit "recordType")
    recordVersion
    resourceKey := l.text (lit "resourceKey")
    generation
    policyId := l.text (lit "policyId")
    canonicalHash := l.text (lit "canonicalHash")
    schemaVersion
    apiVersion := l.text (lit "apiVersion")
    kind := l.text (lit "kind")
    versionKey := l.text (lit "versionKey")
    yamlKey := l.text (lit "yamlKey")
    sourceType := l.text (lit "sourceType")
    applyId := l.text (lit "applyId")
    previousGeneration
    previousPolicyId := l.text (lit "previousPolicyId")
    committedAtUnixEpochMs }

/-- Keep a record that has been read if it is complete. -/
def checked {α : Type} (incomplete : α → Bool) : Option α → Except ReadError α
  | none => .error .outOfRange
  | some record => if incomplete record then .error .incomplete else .ok record

def deserializeActivePointer (json : Text) : Except ReadError ActivePolicyPointer :=
  checked (fun p => p.recordType = [] || p.generation = 0 || p.policyId = [])
    (readActivePointer (lookupIn json))

theorem readActivePointer_eq_some {l : Lookup} {p} :
    readActivePointer l = some p ↔ ∀ field ∈ p.fields, l.Gives field := by
  simp only [readActivePointer, ActivePolicyPointer.fields, forall_mem_cons, Lookup.Gives,
    Option.bind_eq_bind, Option.bind_eq_some_iff, Option.pure_def, Option.some.injEq,
    ActivePolicyPointer.ext_iff, not_mem_nil, false_implies, implies_true, and_true]
  constructor
  · rintro ⟨_, h₁, _, h₂, _, h₃, _, h₄, _, h₅, h⟩
    simp_all
  · rintro h
    simp_all

/-! ## Policy versions -/

@[ext] structure PolicyVersionRecord where
  recordType : Text := lit "PolicyVersionRecord"
  recordVersion : UInt32 := 1
  resourceKey : Text := []
  generation : UInt64 := 0
  policyId : Text := []
  canonicalHash : Text := []
  schemaVersion : UInt32 := 0
  apiVersion : Text := []
  kind : Text := []
  yamlKey : Text := []
  sourceType : Text := []
  applyId : Text := []
  previousGeneration : UInt64 := 0
  previousPolicyId : Text := []
  createdAtUnixEpochMs : UInt64 := 0
deriving DecidableEq

def PolicyVersionRecord.fields (r : PolicyVersionRecord) : Fields :=
  [(lit "recordType", .text r.recordType),
   (lit "recordVersion", .u32 r.recordVersion),
   (lit "resourceKey", .text r.resourceKey),
   (lit "generation", .u64 r.generation),
   (lit "policyId", .text r.policyId),
   (lit "canonicalHash", .text r.canonicalHash),
   (lit "schemaVersion", .u32 r.schemaVersion),
   (lit "apiVersion", .text r.apiVersion),
   (lit "kind", .text r.kind),
   (lit "yamlKey", .text r.yamlKey),
   (lit "sourceType", .text r.sourceType),
   (lit "applyId", .text r.applyId),
   (lit "previousGeneration", .u64 r.previousGeneration),
   (lit "previousPolicyId", .text r.previousPolicyId),
   (lit "createdAtUnixEpochMs", .u64 r.createdAtUnixEpochMs)]

def serializeVersionRecord (r : PolicyVersionRecord) : Text :=
  docText (recordMembers r.fields) recordTail

def readVersionRecord (l : Lookup) : Option PolicyVersionRecord := do
  let recordVersion ← l.u32 (lit "recordVersion")
  let generation ← l.u64 (lit "generation")
  let schemaVersion ← l.u32 (lit "schemaVersion")
  let previousGeneration ← l.u64 (lit "previousGeneration")
  let createdAtUnixEpochMs ← l.u64 (lit "createdAtUnixEpochMs")
  return {
    recordType := l.text (lit "recordType")
    recordVersion
    resourceKey := l.text (lit "resourceKey")
    generation
    policyId := l.text (lit "policyId")
    canonicalHash := l.text (lit "canonicalHash")
    schemaVersion
    apiVersion := l.text (lit "apiVersion")
    kind := l.text (lit "kind")
    yamlKey := l.text (lit "yamlKey")
    sourceType := l.text (lit "sourceType")
    applyId := l.text (lit "applyId")
    previousGeneration
    previousPolicyId := l.text (lit "previousPolicyId")
    createdAtUnixEpochMs }

def deserializeVersionRecord (json : Text) : Except ReadError PolicyVersionRecord :=
  checked (fun r => r.recordType = [] || r.generation = 0 || r.policyId = [])
    (readVersionRecord (lookupIn json))

theorem readVersionRecord_eq_some {l : Lookup} {r} :
    readVersionRecord l = some r ↔ ∀ field ∈ r.fields, l.Gives field := by
  simp only [readVersionRecord, PolicyVersionRecord.fields, forall_mem_cons, Lookup.Gives,
    Option.bind_eq_bind, Option.bind_eq_some_iff, Option.pure_def, Option.some.injEq,
    PolicyVersionRecord.ext_iff, not_mem_nil, false_implies, implies_true, and_true]
  constructor
  · rintro ⟨_, h₁, _, h₂, _, h₃, _, h₄, _, h₅, h⟩
    simp_all
  · intro h
    simp_all

/-! ## Audit records -/

@[ext] structure PolicyAuditRecord where
  recordType : Text := lit "PolicyAuditRecord"
  recordVersion : UInt32 := 3
  applyId : Text := []
  resourceKey : Text := []
  generation : UInt64 := 0
  policyId : Text := []
  sourceType : Text := []
  operatorId : Text := []
  requestId : Text := []
  recordedAtUnixEpochMs : UInt64 := 0
  operation : Text := []
  beforeGeneration : UInt64 := 0
  afterGeneration : UInt64 := 0
  targetGeneration : UInt64 := 0
  result : Text := []
  failureReason : Text := []
  eventId : Text := []
  eventType : Text := []
  jobId : Text := []
  beforePolicyId : Text := []
  afterPolicyId : Text := []
  canonicalHash : Text := []
  lifecycleStatus : Text := []
  failureCode : Text := []
  failureStage : Text := []
  message : Text := []
deriving DecidableEq

namespace PolicyAuditRecord

variable (r : PolicyAuditRecord)

def baseFields : Fields :=
  [(lit "recordType", .text r.recordType),
   (lit "recordVersion", .u32 r.recordVersion),
   (lit "applyId", .text r.applyId),
   (lit "resourceKey", .text r.resourceKey),
   (lit "generation", .u64 r.generation),
   (lit "policyId", .text r.policyId),
   (lit "sourceType", .text r.sourceType),
   (lit "operatorId", .text r.operatorId),
   (lit "requestId", .text r.requestId),
   (lit "recordedAtUnixEpochMs", .u64 r.recordedAtUnixEpochMs)]

def operationFields : Fields :=
  [(lit "operation", .text r.operation),
   (lit "beforeGeneration", .u64 r.beforeGeneration),
   (lit "afterGeneration", .u64 r.afterGeneration),
   (lit "targetGeneration", .u64 r.targetGeneration),
   (lit "result", .text r.result),
   (lit "failureReason", .text r.failureReason)]

def eventFields : Fields :=
  [(lit "eventId", .text r.eventId),
   (lit "eventType", .text r.eventType),
   (lit "jobId", .text r.jobId),
   (lit "beforePolicyId", .text r.beforePolicyId),
   (lit "afterPolicyId", .text r.afterPolicyId),
   (lit "canonicalHash", .text r.canonicalHash),
   (lit "status", .text r.lifecycleStatus),
   (lit "failureCode", .text r.failureCode),
   (lit "failureStage", .text r.failureStage),
   (lit "message", .text r.message)]

/-- The fields that are written: those of an operation from version 2 on, those of an event from
    version 3 on. -/
def fields : Fields :=
  r.baseFields ++ (if 2 ≤ r.recordVersion then r.operationFields else []) ++
    (if 3 ≤ r.recordVersion then r.eventFields else [])

/-- The record with every field that is not written at its default. -/
def written : PolicyAuditRecord :=
  { recordType := r.recordType
    recordVersion := r.recordVersion
    applyId := r.applyId
    resourceKey := r.resourceKey
    generation := r.generation
    policyId := r.policyId
    sourceType := r.sourceType
    operatorId := r.operatorId
    requestId := r.requestId
    recordedAtUnixEpochMs := r.recordedAtUnixEpochMs
    operation := if 2 ≤ r.recordVersion then r.operation else []
    beforeGeneration := if 2 ≤ r.recordVersion then r.beforeGeneration else 0
    afterGeneration := if 2 ≤ r.recordVersion then r.afterGeneration else 0
    targetGeneration := if 2 ≤ r.recordVersion then r.targetGeneration else 0
    result := if 2 ≤ r.recordVersion then r.result else []
    failureReason := if 2 ≤ r.recordVersion then r.failureReason else []
    eventId := if 3 ≤ r.recordVersion then r.eventId else []
    eventType := if 3 ≤ r.recordVersion then r.eventType else []
    jobId := if 3 ≤ r.recordVersion then r.jobId else []
    beforePolicyId := if 3 ≤ r.recordVersion then r.beforePolicyId else []
    afterPolicyId := if 3 ≤ r.recordVersion then r.afterPolicyId else []
    canonicalHash := if 3 ≤ r.recordVersion then r.canonicalHash else []
    lifecycleStatus := if 3 ≤ r.recordVersion then r.lifecycleStatus else []
    failureCode := if 3 ≤ r.recordVersion then r.failureCode else []
    failureStage := if 3 ≤ r.recordVersion then r.failureStage else []
    message := if 3 ≤ r.recordVersion then r.message else [] }

end PolicyAuditRecord

def serializeAuditRecord (r : PolicyAuditRecord) : Text :=
  docText (recordMembers r.fields) recordTail

def readAuditRecord (l : Lookup) : Option PolicyAuditRecord := do
  let recordVersion ← l.u32 (lit "recordVersion")
  let generation ← l.u64 (lit "generation")
  let recordedAtUnixEpochMs ← l.u64 (lit "recordedAtUnixEpochMs")
  let operationNumber (key : Text) : Option UInt64 :=
    if 2 ≤ recordVersion then l.u64 key else some 0
  let operationText (key : Text) : Text := if 2 ≤ recordVersion then l.text key else []
  let eventText (key : Text) : Text := if 3 ≤ recordVersion then l.text key else []
  let beforeGeneration ← operationNumber (lit "beforeGeneration")
  let afterGeneration ← operationNumber (lit "afterGeneration")
  let targetGeneration ← operationNumber (lit "targetGeneration")
  return {
    recordType := l.text (lit "recordType")
    recordVersion
    applyId := l.text (lit "applyId")
    resourceKey := l.text (lit "resourceKey")
    generation
    policyId := l.text (lit "policyId")
    sourceType := l.text (lit "sourceType")
    operatorId := l.text (lit "operatorId")
    requestId := l.text (lit "requestId")
    recordedAtUnixEpochMs
    operation := operationText (lit "operation")
    beforeGeneration
    afterGeneration
    targetGeneration
    result := operationText (lit "result")
    failureReason := operationText (lit "failureReason")
    eventId := eventText (lit "eventId")
    eventType := eventText (lit "eventType")
    jobId := eventText (lit "jobId")
    beforePolicyId := eventText (lit "beforePolicyId")
    afterPolicyId := eventText (lit "afterPolicyId")
    canonicalHash := eventText (lit "canonicalHash")
    lifecycleStatus := eventText (lit "status")
    failureCode := eventText (lit "failureCode")
    failureStage := eventText (lit "failureStage")
    message := eventText (lit "message") }

def deserializeAuditRecord (json : Text) : Except ReadError PolicyAuditRecord :=
  checked (fun r => r.recordType = [] || r.applyId = []) (readAuditRecord (lookupIn json))

open PolicyAuditRecord

theorem readAuditRecord_eq_some {l : Lookup} {r : PolicyAuditRecord} :
    readAuditRecord l = some r.written ↔ ∀ field ∈ r.fields, l.Gives field := by
  simp only [readAuditRecord, PolicyAuditRecord.fields, written,
    forall_mem_append, Option.bind_eq_bind, Option.bind_eq_some_iff, Option.pure_def,
    Option.some.injEq, PolicyAuditRecord.ext_iff]
  by_cases h₂ : 2 ≤ r.recordVersion <;> by_cases h₃ : 3 ≤ r.recordVersion <;>
    simp only [h₂, h₃, if_true, if_false, baseFields, operationFields, eventFields, forall_mem_cons,
      Lookup.Gives, not_mem_nil, false_implies, implies_true, and_true]
  all_goals
    constructor
    · rintro ⟨_, h₁, _, h₂, _, h₃, _, h₄, _, h₅, _, h₆, htype, rfl, h⟩
      simp_all
    · intro h
      simp_all

/-! ## Update jobs -/

@[ext] structure PolicyUpdateJobFailureRecord where
  stage : Text := []
  code : Text := []
  message : Text := []
  expectedGeneration : UInt64 := 0
  actualGeneration : UInt64 := 0
deriving DecidableEq

@[ext] structure PolicyUpdateJobRecord where
  recordType : Text := lit "PolicyUpdateJobRecord"
  recordVersion : UInt32 := 1
  jobId : Text := []
  resourceKey : Text := []
  logicalShardId : UInt32 := 0
  state : Text := []
  sourceType : Text := []
  operatorId : Text := []
  requestId : Text := []
  expectedBaseGeneration : UInt64 := 0
  expectedBasePolicyId : Text := []
  candidateGeneration : UInt64 := 0
  candidatePolicyId : Text := []
  candidateCanonicalHash : Text := []
  submittedAtUnixEpochMs : UInt64 := 0
  updatedAtUnixEpochMs : UInt64 := 0
  failure : PolicyUpdateJobFailureRecord := {}
  activationStatus : Text := []
  activationStage : Text := []
  activationMessage : Text := []
deriving DecidableEq

variable (r : PolicyUpdateJobRecord)

def policyUpdateJobHasFailureDetails : Bool :=
  r.state = lit "failed" || r.failure.stage ≠ [] || r.failure.code ≠ [] ||
    r.failure.message ≠ [] || r.failure.expectedGeneration ≠ 0 || r.failure.actualGeneration ≠ 0

/-- The keys under which a failure is looked up: those of the object, or those of older records. -/
structure FailureKeys where
  stage : Text
  code : Text
  message : Text
  expectedGeneration : Text
  actualGeneration : Text

def failureKeys : FailureKeys where
  stage := lit "stage"
  code := lit "code"
  message := lit "message"
  expectedGeneration := lit "expectedGeneration"
  actualGeneration := lit "actualGeneration"

def olderFailureKeys : FailureKeys where
  stage := lit "failureStage"
  code := lit "failureCode"
  message := lit "failureMessage"
  expectedGeneration := lit "failureExpectedGeneration"
  actualGeneration := lit "failureActualGeneration"

def PolicyUpdateJobFailureRecord.fields (f : PolicyUpdateJobFailureRecord) : Fields :=
  [(failureKeys.stage, .text f.stage),
   (failureKeys.code, .text f.code),
   (failureKeys.message, .text f.message),
   (failureKeys.expectedGeneration, .u64 f.expectedGeneration),
   (failureKeys.actualGeneration, .u64 f.actualGeneration)]

/-- The fields of a job besides its failure. -/
def PolicyUpdateJobRecord.fields : Fields :=
  [(lit "recordType", .text r.recordType),
   (lit "recordVersion", .u32 r.recordVersion),
   (lit "jobId", .text r.jobId),
   (lit "resourceKey", .text r.resourceKey),
   (lit "logicalShardId", .u32 r.logicalShardId),
   (lit "state", .text r.state),
   (lit "sourceType", .text r.sourceType),
   (lit "operatorId", .text r.operatorId),
   (lit "requestId", .text r.requestId),
   (lit "expectedBaseGeneration", .u64 r.expectedBaseGeneration),
   (lit "expectedBasePolicyId", .text r.expectedBasePolicyId),
   (lit "candidateGeneration", .u64 r.candidateGeneration),
   (lit "candidatePolicyId", .text r.candidatePolicyId),
   (lit "candidateCanonicalHash", .text r.candidateCanonicalHash),
   (lit "submittedAtUnixEpochMs", .u64 r.submittedAtUnixEpochMs),
   (lit "updatedAtUnixEpochMs", .u64 r.updatedAtUnixEpochMs),
   (lit "activationStatus", .text r.activationStatus),
   (lit "activationStage", .text r.activationStage),
   (lit "activationMessage", .text r.activationMessage)]

def failureMember (value : JsonValue) : JsonMember where
  lead := [',', '\n', ' ', ' ']
  key := lit "failure"
  value := value

def failureMembers (f : PolicyUpdateJobFailureRecord) : List JsonMember :=
  objectMembers ['\n'] [' ', ' ', ' ', ' '] f.fields

def failureTail : Text := ['\n', ' ', ' ', '\x7d']

/-- The members of a job, and behind its failure object the members of that. -/
def PolicyUpdateJobRecord.members : List JsonMember :=
  recordMembers r.fields ++
    if policyUpdateJobHasFailureDetails r then
      failureMember .object :: failureMembers r.failure
    else [failureMember .null]

def PolicyUpdateJobRecord.tail : Text :=
  if policyUpdateJobHasFailureDetails r then failureTail ++ recordTail else recordTail

def serializePolicyUpdateJobRecord : Text :=
  docText r.members r.tail

def readFailure (l : Lookup) (keys : FailureKeys) : Option PolicyUpdateJobFailureRecord := do
  let expectedGeneration ← l.u64 keys.expectedGeneration
  let actualGeneration ← l.u64 keys.actualGeneration
  return {
    stage := l.text keys.stage
    code := l.text keys.code
    message := l.text keys.message
    expectedGeneration
    actualGeneration }

def deserializePolicyUpdateJobFailure (json : Text) : Option PolicyUpdateJobFailureRecord :=
  if jsonFieldIsNull json (lit "failure") then some {}
  else
    let failureJson := extractJsonObject json (lit "failure")
    if failureJson = [] then readFailure (lookupIn json) olderFailureKeys
    else readFailure (lookupIn failureJson) failureKeys

def readPolicyUpdateJobRecord (l : Lookup) (failure : Option PolicyUpdateJobFailureRecord) :
    Option PolicyUpdateJobRecord := do
  let recordVersion ← l.u32 (lit "recordVersion")
  let logicalShardId ← l.u32 (lit "logicalShardId")
  let expectedBaseGeneration ← l.u64 (lit "expectedBaseGeneration")
  let candidateGeneration ← l.u64 (lit "candidateGeneration")
  let submittedAtUnixEpochMs ← l.u64 (lit "submittedAtUnixEpochMs")
  let updatedAtUnixEpochMs ← l.u64 (lit "updatedAtUnixEpochMs")
  let failure ← failure
  return {
    recordType := l.text (lit "recordType")
    recordVersion
    jobId := l.text (lit "jobId")
    resourceKey := l.text (lit "resourceKey")
    logicalShardId
    state := l.text (lit "state")
    sourceType := l.text (lit "sourceType")
    operatorId := l.text (lit "operatorId")
    requestId := l.text (lit "requestId")
    expectedBaseGeneration
    expectedBasePolicyId := l.text (lit "expectedBasePolicyId")
    candidateGeneration
    candidatePolicyId := l.text (lit "candidatePolicyId")
    candidateCanonicalHash := l.text (lit "candidateCanonicalHash")
    submittedAtUnixEpochMs
    updatedAtUnixEpochMs
    failure
    activationStatus := l.text (lit "activationStatus")
    activationStage := l.text (lit "activationStage")
    activationMessage := l.text (lit "activationMessage") }

def deserializePolicyUpdateJobRecord (json : Text) : Except ReadError PolicyUpdateJobRecord :=
  checked (fun r => r.recordType = [] || r.jobId = [])
    (readPolicyUpdateJobRecord (lookupIn json) (deserializePolicyUpdateJobFailure json))

theorem readPolicyUpdateJobRecord_eq_some {l : Lookup} {failure r} :
    readPolicyUpdateJobRecord l failure = some r ↔
      (∀ field ∈ r.fields, l.Gives field) ∧ failure = some r.failure := by
  simp only [readPolicyUpdateJobRecord, PolicyUpdateJobRecord.fields, forall_mem_cons,
    Lookup.Gives, Option.bind_eq_bind, Option.bind_eq_some_iff, Option.pure_def,
    Option.some.injEq, PolicyUpdateJobRecord.ext_iff, not_mem_nil, false_implies,
    implies_true, and_true]
  constructor
  · rintro ⟨_, h₁, _, h₂, _, h₃, _, h₄, _, h₅, _, h₆, _, h₇, h⟩
    simp_all
  · intro h
    simp_all

end ByteTaper.ControlPlane
