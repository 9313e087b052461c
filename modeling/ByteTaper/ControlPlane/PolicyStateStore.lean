import ByteTaper.ControlPlane.PolicyStateKey
import ByteTaper.ControlPlane.PolicyStateRecord
import ByteTaper.Library.Program

/-! # The policy state store

`rocksdb_policy_state_store.cpp`: the calls of the store that the control plane makes, over a map
from keys to values. The database is a parameter with its documented behaviour: a batch is written
as a whole or not at all, and any access may fail, as `Disk` says for one call. Every call holds the
mutex of the store, so it is one step. -/

namespace ByteTaper.ControlPlane

/-! ## The database -/

abbrev Db := Text → Option Text

/-- What a call meets: whether the database is open, and which of its accesses fail. -/
structure Disk where
  isOpen : Bool := true
  getError : Text → Option Text := fun _ => none
  writeError : Option Text := none

inductive GetStatus where
  | ok (value : Text)
  | notFound
  | failed (error : Text)

variable (disk : Disk)

def Disk.get (db : Db) (key : Text) : GetStatus :=
  match disk.getError key with
  | some error => .failed error
  | none =>
    match db key with
    | some value => .ok value
    | none => .notFound

abbrev Batch := List (Text × Text)

def Db.put (db : Db) (key value : Text) : Db := fun k => if k = key then some value else db k

def Db.write (db : Db) (batch : Batch) : Db :=
  batch.foldl (fun db entry => db.put entry.1 entry.2) db

inductive PolicyStateErrorCode where
  | dbOpenFailed | dbWriteFailed | dbReadFailed
  | versionNotFound | versionConflict
  | activePointerNotFound | activePointerConflict | activePointerInvalid
  | activePointerTargetMissing
  | auditWriteFailed | jobNotFound | jobWriteFailed
deriving DecidableEq

structure StoreError where
  code : PolicyStateErrorCode
  error : Text

/-- The result of a call and the batch it writes. The result is `none` if reading a record throws. -/
abbrev CallResult (α : Type) := Option (Except StoreError α) × Batch

def threw {α : Type} : CallResult α := (none, [])

def refuse {α : Type} (code : PolicyStateErrorCode) (error : Text) : CallResult α :=
  (some (.error ⟨code, error⟩), [])

/-- Write a batch; a batch that cannot be written leaves nothing. -/
def Disk.commit {α : Type} (disk : Disk) (failure : PolicyStateErrorCode) (batch : Batch)
    (result : α) : CallResult α :=
  match disk.writeError with
  | some error => refuse failure error
  | none => (some (.ok result), batch)

def notOpen {α : Type} : CallResult α := refuse .dbOpenFailed (lit "policy state db is not open")

/-! ## Checks that two calls share -/

/-- What is at the version key of a candidate. -/
inductive VersionSlot where
  | free
  | same
  | refused (error : StoreError)
  | threw

variable (db : Db) (key : PolicyResourceKey)

def checkVersionYaml (yamlKey yaml : Text) : VersionSlot :=
  match disk.get db yamlKey with
  | .notFound =>
    .refused ⟨.versionConflict, lit "policy version yaml missing for existing generation"⟩
  | .failed error => .refused ⟨.dbReadFailed, error⟩
  | .ok existingYaml =>
    if existingYaml ≠ yaml then
      .refused ⟨.versionConflict, lit "policy version yaml content conflict (VERSION_CONFLICT)"⟩
    else .same

def checkVersion (version : PolicyVersionRecord) (yaml : Text) : VersionSlot :=
  match disk.get db (makeVersionKey key version.generation) with
  | .ok existingJson =>
    match deserializeVersionRecord existingJson with
    | .error .outOfRange => .threw
    | .error .incomplete =>
      .refused ⟨.dbReadFailed, lit "existing policy version record is invalid"⟩
    | .ok existing =>
      if existing.canonicalHash ≠ version.canonicalHash then
        .refused ⟨.versionConflict, lit "policy version conflict (VERSION_CONFLICT)"⟩
      else checkVersionYaml disk db (makeYamlKey key version.generation) yaml
  | .notFound => .free
  | .failed error => .refused ⟨.dbReadFailed, error⟩

structure ExpectedActivePolicy where
  generation : UInt64 := 0
  policyId : Text := []

/-- How the pointer that is there compares with the expected and the next one. -/
inductive ActiveSlot where
  | idempotent
  | expected
  | refused (error : StoreError)
  | threw

def checkActive (expected : ExpectedActivePolicy)
    (next : ActivePolicyPointer) : ActiveSlot :=
  match disk.get db (makeActiveKey key) with
  | .ok currentJson =>
    match deserializeActivePointer currentJson with
    | .error .outOfRange => .threw
    | .error .incomplete =>
      .refused ⟨.activePointerInvalid,
        lit "active policy pointer is invalid (ACTIVE_POINTER_INVALID)"⟩
    | .ok current =>
      if current.generation = next.generation ∧ current.policyId = next.policyId then .idempotent
      else if current.generation ≠ expected.generation ∨ current.policyId ≠ expected.policyId then
        .refused ⟨.activePointerConflict,
          lit "active policy pointer conflict (ACTIVE_POINTER_CONFLICT)"⟩
      else .expected
  | .failed error => .refused ⟨.dbReadFailed, error⟩
  | .notFound =>
    if expected.generation ≠ 0 then
      .refused ⟨.activePointerConflict,
        lit "active policy pointer conflict (ACTIVE_POINTER_CONFLICT)"⟩
    else .expected

/-- The version that a pointer refers to is there. -/
def checkTarget (next : ActivePolicyPointer) : Except StoreError Unit :=
  match disk.get db next.versionKey with
  | .notFound =>
    .error ⟨.activePointerTargetMissing,
      lit "active pointer target version missing (ACTIVE_POINTER_TARGET_MISSING)"⟩
  | .failed error => .error ⟨.dbReadFailed, error⟩
  | .ok _ => .ok ()

/-! ## What is stored -/

def storedVersion (version : PolicyVersionRecord) : PolicyVersionRecord :=
  { version with
    resourceKey := key.toText
    yamlKey := makeYamlKey key version.generation }

def storedPointer (next : ActivePolicyPointer) : ActivePolicyPointer :=
  { next with resourceKey := key.toText }

def storedAudit (audit : PolicyAuditRecord) : PolicyAuditRecord :=
  { audit with resourceKey := key.toText }

def versionBatch (version : PolicyVersionRecord) (yaml : Text) : Batch :=
  [(makeVersionKey key version.generation, serializeVersionRecord (storedVersion key version)),
   (makeYamlKey key version.generation, yaml)]

def activeEntry (next : ActivePolicyPointer) : Text × Text :=
  (makeActiveKey key, serializeActivePointer (storedPointer key next))

def auditEntry (audit : PolicyAuditRecord) : Text × Text :=
  (makeAuditKey key audit.applyId, serializeAuditRecord (storedAudit key audit))

/-! ## The calls -/

def storePolicyVersion (version : PolicyVersionRecord) (yaml : Text) : CallResult Unit :=
  if !disk.isOpen then notOpen
  else
    match checkVersion disk db key version yaml with
    | .threw => threw
    | .refused e => refuse e.code e.error
    | .same => (some (.ok ()), [])
    | .free => disk.commit .dbWriteFailed (versionBatch key version yaml) ()

structure LoadedVersion where
  record : PolicyVersionRecord
  canonicalYaml : Text

def loadPolicyVersion (generation : UInt64) : CallResult LoadedVersion :=
  if !disk.isOpen then notOpen
  else
    match disk.get db (makeVersionKey key generation) with
    | .notFound => refuse .versionNotFound (lit "policy version not found (VERSION_NOT_FOUND)")
    | .failed error => refuse .dbReadFailed error
    | .ok versionJson =>
      match deserializeVersionRecord versionJson with
      | .error .outOfRange => threw
      | .error .incomplete => refuse .dbReadFailed (lit "policy version record is invalid")
      | .ok record =>
        match disk.get db (makeYamlKey key generation) with
        | .notFound =>
          refuse .versionNotFound (lit "policy version yaml not found (VERSION_NOT_FOUND)")
        | .failed error => refuse .dbReadFailed error
        | .ok canonicalYaml => (some (.ok { record, canonicalYaml }), [])

def loadActivePointer : CallResult ActivePolicyPointer :=
  if !disk.isOpen then notOpen
  else
    match disk.get db (makeActiveKey key) with
    | .notFound =>
      refuse .activePointerNotFound
        (lit "active policy pointer not found (ACTIVE_POINTER_NOT_FOUND)")
    | .failed error => refuse .dbReadFailed error
    | .ok activeJson =>
      match deserializeActivePointer activeJson with
      | .error .outOfRange => threw
      | .error .incomplete =>
        refuse .activePointerInvalid
          (lit "active policy pointer is invalid (ACTIVE_POINTER_INVALID)")
      | .ok pointer => (some (.ok pointer), [])

/-- The result says whether the pointer was there already. -/
def compareAndPromoteActive (expected : ExpectedActivePolicy)
    (next : ActivePolicyPointer) : CallResult Bool :=
  if !disk.isOpen then notOpen
  else
    match checkActive disk db key expected next with
    | .threw => threw
    | .refused e => refuse e.code e.error
    | .idempotent => (some (.ok true), [])
    | .expected =>
      if next.versionKey = [] then
        refuse .activePointerTargetMissing (lit "active pointer version key is empty")
      else
        match checkTarget disk db next with
        | .error e => refuse e.code e.error
        | .ok () => disk.commit .dbWriteFailed [activeEntry key next] false

structure CommitParams where
  resourceKey : PolicyResourceKey
  version : PolicyVersionRecord
  canonicalYaml : Text
  expectedActive : ExpectedActivePolicy
  nextPointer : ActivePolicyPointer
  audit : PolicyAuditRecord

/-- The part of `commit_policy_generation_with_audit` behind the two checks. -/
def commitGeneration (params : CommitParams) (writeVersion : Bool) : CallResult Unit :=
  if params.nextPointer.versionKey = [] then
    refuse .activePointerTargetMissing (lit "active pointer version key is empty")
  else
    let entries := [activeEntry params.resourceKey params.nextPointer,
      auditEntry params.resourceKey params.audit]
    if writeVersion then
      disk.commit .dbWriteFailed
        (versionBatch params.resourceKey params.version params.canonicalYaml ++ entries) ()
    else
      match checkTarget disk db params.nextPointer with
      | .error e => refuse e.code e.error
      | .ok () => disk.commit .dbWriteFailed entries ()

/-- The active pointer is checked, and the generation written if it is the expected one. -/
def commitOnActive (params : CommitParams) (writeVersion : Bool) : CallResult Unit :=
  match checkActive disk db params.resourceKey params.expectedActive params.nextPointer with
  | .threw => threw
  | .refused e => refuse e.code e.error
  | .idempotent => disk.commit .dbWriteFailed [auditEntry params.resourceKey params.audit] ()
  | .expected => commitGeneration disk db params writeVersion

def commitPolicyGenerationWithAudit (params : CommitParams) : CallResult Unit :=
  if !disk.isOpen then notOpen
  else if params.audit.applyId = [] then
    refuse .auditWriteFailed (lit "audit apply_id is empty")
  else
    match checkVersion disk db params.resourceKey params.version params.canonicalYaml with
    | .threw => threw
    | .refused e => refuse e.code e.error
    | .same => commitOnActive disk db params false
    | .free => commitOnActive disk db params true

def appendAuditRecord (record : PolicyAuditRecord) : CallResult Unit :=
  if !disk.isOpen then notOpen
  else if record.applyId = [] then refuse .auditWriteFailed (lit "audit apply_id is empty")
  else disk.commit .auditWriteFailed [auditEntry key record] ()

def storePolicyUpdateJob (job : PolicyUpdateJobRecord) : CallResult Unit :=
  if !disk.isOpen then notOpen
  else if job.jobId = [] then refuse .jobWriteFailed (lit "job id is empty")
  else
    disk.commit .jobWriteFailed
      [(makeJobKey key job.jobId,
        serializePolicyUpdateJobRecord { job with resourceKey := key.toText })] ()

/-! ## The store as an interface -/

inductive StoreCall where
  | storePolicyVersion (version : PolicyVersionRecord) (yaml : Text)
  | loadPolicyVersion (generation : UInt64)
  | loadActivePointer
  | compareAndPromoteActive (expected : ExpectedActivePolicy) (next : ActivePolicyPointer)
  | commitPolicyGenerationWithAudit (version : PolicyVersionRecord) (yaml : Text)
      (expected : ExpectedActivePolicy) (next : ActivePolicyPointer) (audit : PolicyAuditRecord)
  | appendAuditRecord (record : PolicyAuditRecord)
  | storePolicyUpdateJob (job : PolicyUpdateJobRecord)

def StoreCall.Value : StoreCall → Type
  | .storePolicyVersion .. => Unit
  | .loadPolicyVersion _ => LoadedVersion
  | .loadActivePointer => ActivePolicyPointer
  | .compareAndPromoteActive .. => Bool
  | .commitPolicyGenerationWithAudit .. => Unit
  | .appendAuditRecord _ => Unit
  | .storePolicyUpdateJob _ => Unit

/-- A call for the resource `key`. -/
def StoreCall.result (key : PolicyResourceKey) (disk : Disk) (db : Db) :
    (c : StoreCall) → CallResult c.Value
  | .storePolicyVersion version yaml => ControlPlane.storePolicyVersion disk db key version yaml
  | .loadPolicyVersion generation => ControlPlane.loadPolicyVersion disk db key generation
  | .loadActivePointer => ControlPlane.loadActivePointer disk db key
  | .compareAndPromoteActive expected next =>
    ControlPlane.compareAndPromoteActive disk db key expected next
  | .commitPolicyGenerationWithAudit version yaml expected next audit =>
    ControlPlane.commitPolicyGenerationWithAudit disk db
      { resourceKey := key, version, canonicalYaml := yaml, expectedActive := expected,
        nextPointer := next, audit }
  | .appendAuditRecord record => ControlPlane.appendAuditRecord disk key record
  | .storePolicyUpdateJob job => ControlPlane.storePolicyUpdateJob disk key job

/-- The store of one resource. -/
def policyStateStore (key : PolicyResourceKey) : Shared.Interface Db where
  Call := StoreCall
  Answer c := Except StoreError c.Value
  Env := Disk
  perform c disk db := ((c.result key disk db).1, db.write (c.result key disk db).2)

end ByteTaper.ControlPlane
