import ByteTaper.ControlPlane.PolicyStateContract
import ByteTaper.ControlPlane.PolicyUpdateQueue
import ByteTaper.Library.Calls

/-! # Lifecycle events in the audit

`policy_lifecycle_event.cpp` and the audit part of `PolicyLifecycleEmitter::emit`: an event becomes
an audit record, which `append_audit_record` puts under a key made of the resource key and the apply
id. The clock is the parameter `now`. Logs and metrics are left out, and so are the fields of an
event that only they read. -/

namespace ByteTaper.ControlPlane

open List

inductive PolicyLifecycleEventType where
  | policyDryRunRequested | policyApplySubmitted | policyApplyQueued | policyApplyProcessing
  | policyApplyCandidateBuilt | policyVersionStored | policyActivePromoted | policyApplyCommitted
  | policyApplyFailed | policyActivationStarted | policyActivationSucceeded
  | policyActivationFailed | runtimeConverged | runtimeStale | runtimeActivationFailed
  | policyMismatchDetected | manualRepairRequested | manualRepairCompleted | manualAdoptRequested
  | manualAdoptCompleted | policyRollbackRequested | policyRollbackCompleted

def PolicyLifecycleEventType.toText : PolicyLifecycleEventType → Text
  | policyDryRunRequested => lit "policy_dry_run_requested"
  | policyApplySubmitted => lit "policy_apply_submitted"
  | policyApplyQueued => lit "policy_apply_queued"
  | policyApplyProcessing => lit "policy_apply_processing"
  | policyApplyCandidateBuilt => lit "policy_apply_candidate_built"
  | policyVersionStored => lit "policy_version_stored"
  | policyActivePromoted => lit "policy_active_promoted"
  | policyApplyCommitted => lit "policy_apply_committed"
  | policyApplyFailed => lit "policy_apply_failed"
  | policyActivationStarted => lit "policy_activation_started"
  | policyActivationSucceeded => lit "policy_activation_succeeded"
  | policyActivationFailed => lit "policy_activation_failed"
  | runtimeConverged => lit "runtime_converged"
  | runtimeStale => lit "runtime_stale"
  | runtimeActivationFailed => lit "runtime_activation_failed"
  | policyMismatchDetected => lit "policy_mismatch_detected"
  | manualRepairRequested => lit "manual_repair_requested"
  | manualRepairCompleted => lit "manual_repair_completed"
  | manualAdoptRequested => lit "manual_adopt_requested"
  | manualAdoptCompleted => lit "manual_adopt_completed"
  | policyRollbackRequested => lit "policy_rollback_requested"
  | policyRollbackCompleted => lit "policy_rollback_completed"

structure PolicyLifecycleEvent where
  eventType : PolicyLifecycleEventType := .policyApplySubmitted
  resourceKey : Text := []
  operatorId : Text := []
  requestId : Text := []
  applyId : Text := []
  jobId : Text := []
  eventId : Text := []
  beforeGeneration : UInt64 := 0
  afterGeneration : UInt64 := 0
  targetGeneration : UInt64 := 0
  beforePolicyId : Text := []
  afterPolicyId : Text := []
  policyId : Text := []
  canonicalHash : Text := []
  sourceType : Text := []
  operation : Text := []
  stage : Text := []
  status : Text := []
  errorCode : Text := []
  message : Text := []
  recordedAtUnixEpochMs : UInt64 := 0

/-- A job with what its events carry besides. -/
structure LifecycleJob extends PolicyUpdateJob where
  operatorId : Text := []
  requestId : Text := []
  candidateGeneration : UInt64 := 0
  candidatePolicyId : Text := []
  candidateCanonicalHash : Text := []
  failure : PolicyUpdateJobFailureRecord := {}

def makeLifecycleEventFromJob (job : LifecycleJob) (type : PolicyLifecycleEventType)
    (now : UInt64) : PolicyLifecycleEvent where
  eventType := type
  resourceKey := job.resourceKey
  jobId := job.jobId
  requestId := job.requestId
  operatorId := job.operatorId
  applyId := if job.requestId = [] then job.jobId else job.requestId
  sourceType := job.sourceType
  beforeGeneration := job.expectedBaseGeneration
  beforePolicyId := job.expectedBasePolicyId
  afterGeneration := job.candidateGeneration
  afterPolicyId := job.candidatePolicyId
  policyId := job.candidatePolicyId
  canonicalHash := job.candidateCanonicalHash
  stage := job.failure.stage
  errorCode := job.failure.code
  message := job.failure.message
  recordedAtUnixEpochMs := now

def lifecycleEventToAuditRecord (event : PolicyLifecycleEvent) (now : UInt64) : PolicyAuditRecord :=
  let applyId := if event.applyId = [] then event.requestId else event.applyId
  let success := event.status = lit "success" || event.status = []
  { applyId
    eventId := if event.eventId = [] then applyId else event.eventId
    resourceKey := event.resourceKey
    generation :=
      if event.afterGeneration ≠ 0 then event.afterGeneration else event.beforeGeneration
    policyId := if event.afterPolicyId = [] then event.policyId else event.afterPolicyId
    sourceType := event.sourceType
    operatorId := event.operatorId
    requestId := event.requestId
    recordedAtUnixEpochMs :=
      if event.recordedAtUnixEpochMs ≠ 0 then event.recordedAtUnixEpochMs else now
    operation := if event.operation = [] then event.eventType.toText else event.operation
    beforeGeneration := event.beforeGeneration
    afterGeneration := event.afterGeneration
    targetGeneration := event.targetGeneration
    eventType := event.eventType.toText
    jobId := event.jobId
    beforePolicyId := event.beforePolicyId
    afterPolicyId := event.afterPolicyId
    canonicalHash := event.canonicalHash
    lifecycleStatus := event.status
    failureCode := event.errorCode
    failureStage := event.stage
    message := event.message
    result := if success then lit "success" else lit "failure"
    failureReason := if success then [] else event.message }

structure PolicyLifecycleEmitterConfig where
  policyStateStore : Bool
  auditRetentionEnabled : Bool := true
  auditEnabled : Bool := true

structure PolicyLifecycleEmitResult where
  ok : Bool := true
  auditWritten : Bool := false
  error : Text := []

def PolicyLifecycleEmitterConfig.emit (config : PolicyLifecycleEmitterConfig) (disk : Disk)
    (event : PolicyLifecycleEvent) (now : UInt64) : Option PolicyLifecycleEmitResult × Batch :=
  if config.auditEnabled && config.policyStateStore && config.auditRetentionEnabled then
    let key := (parseResourceKey event.resourceKey).getD .defaultRuntime
    let (audit, batch) := appendAuditRecord disk key (lifecycleEventToAuditRecord event now)
    (audit.map fun
      | .ok () => { auditWritten := true }
      | .error e =>
        { ok := false, error := if e.error = [] then lit "audit write failed" else e.error },
     batch)
  else (some {}, [])

/-! ## Runs of the audit -/

inductive AuditWrite where
  | event (config : PolicyLifecycleEmitterConfig) (event : PolicyLifecycleEvent) (now : UInt64)
  | record (key : PolicyResourceKey) (record : PolicyAuditRecord)
  | commit (params : CommitParams)

namespace AuditWrite

def resource : AuditWrite → PolicyResourceKey
  | event _ e _ => (parseResourceKey e.resourceKey).getD .defaultRuntime
  | record key _ => key
  | commit params => params.resourceKey

def audit : AuditWrite → PolicyAuditRecord
  | event _ e now => lifecycleEventToAuditRecord e now
  | record _ r => r
  | commit params => params.audit

def batch (disk : Disk) (db : Db) : AuditWrite → Batch
  | event config e now => (config.emit disk e now).2
  | record key r => (appendAuditRecord disk key r).2
  | commit params => (commitPolicyGenerationWithAudit disk db params).2

/-- The names of the resource have no slash. -/
def PlainNames (w : AuditWrite) : Prop :=
  '/' ∉ w.resource.namespaceName ∧ '/' ∉ w.resource.policyName

instance : DecidablePred PlainNames := fun _ => inferInstanceAs (Decidable (_ ∧ _))

end AuditWrite

/-- A write and what it meets; the answer is whether its record is written. -/
def auditStep (db : Db) (w : Disk × AuditWrite) : Db × Bool :=
  (db.write (w.2.batch w.1 db), !(w.2.batch w.1 db).isEmpty)

/-- The writes of a run, and whether each has written its record. -/
abbrev AuditHistory := List ((Disk × AuditWrite) × Bool)

/-- Every record that was written is there with its text. -/
def RecordsStay (db : Db) (history : AuditHistory) : Prop :=
  ∀ w, (w, true) ∈ history → db (makeAuditKey w.2.resource w.2.audit.applyId) =
    some (serializeAuditRecord (storedAudit w.2.resource w.2.audit))

/-- The records that were written for one resource with one apply id have one text. -/
def IdsDistinguish (history : AuditHistory) : Prop :=
  ∀ w w', (w, true) ∈ history → (w', true) ∈ history → w.2.resource = w'.2.resource →
    w.2.audit.applyId = w'.2.audit.applyId →
      serializeAuditRecord (storedAudit w.2.resource w.2.audit) =
        serializeAuditRecord (storedAudit w'.2.resource w'.2.audit)

section Run

variable {w w' : AuditWrite}

theorem resource_eq_of_start (h : w.PlainNames) (h' : w'.PlainNames) {t t' : Text}
    (heq : policyPrefix w.resource ++ '/' :: t = policyPrefix w'.resource ++ '/' :: t') :
    w.resource = w'.resource ∧ t = t' := by
  simp only [policyPrefix, append_assoc, append_cancel_left_eq, cons_append] at heq
  obtain ⟨hns, heq⟩ := Text.append_sep_inj h.1 h'.1 heq
  obtain ⟨hname, ht⟩ := Text.append_sep_inj h.2 h'.2 heq
  exact ⟨PolicyResourceKey.ext hns hname, ht⟩

theorem makeAuditKey_eq_iff (h : w.PlainNames) (h' : w'.PlainNames) {id id' : Text} :
    makeAuditKey w.resource id = makeAuditKey w'.resource id' ↔
      w.resource = w'.resource ∧ id = id' := by
  refine ⟨fun heq => ?_, fun ⟨hres, hid⟩ => by rw [hres, hid]⟩
  simp only [makeAuditKey, lit_audit, cons_append] at heq
  obtain ⟨hres, hid⟩ := resource_eq_of_start h h' heq
  simp only [List.cons.injEq, append_cancel_left_eq, true_and] at hid
  exact ⟨hres, hid⟩

/-- No version and no pointer is stored under an audit key, of whatever resource. -/
theorem aside_of_plain (h : w.PlainNames) (h' : w'.PlainNames) (id : Text) :
    Aside w'.resource (makeAuditKey w.resource id) := by
  by_cases hres : w'.resource = w.resource
  · rw [hres]
    exact audit_aside id
  have hne : ∀ t t', policyPrefix w'.resource ++ '/' :: t ≠ policyPrefix w.resource ++ '/' :: t' :=
    fun t t' heq => hres (resource_eq_of_start h' h heq).1
  constructor <;> intros <;>
    simp only [makeAuditKey, makeActiveKey, makeYamlKey, makeVersionKey, lit_active, lit_audit,
      lit_versions, append_assoc, cons_append] <;>
    exact hne _ _

theorem appendAuditRecord_cases (disk : Disk) (key : PolicyResourceKey) (r : PolicyAuditRecord) :
    (appendAuditRecord disk key r).2 = [] ∨ (appendAuditRecord disk key r).2 = [auditEntry key r] := by
  unfold appendAuditRecord
  split
  · exact .inl rfl
  split
  · exact .inl rfl
  · rcases disk.commit_cases .auditWriteFailed [auditEntry key r] () with ⟨e, he⟩ | he <;>
      simp [he, refuse]

/-- A write leaves nothing, or its record behind a version and a pointer. -/
theorem batch_cases (w : AuditWrite) (disk : Disk) (db : Db) : w.batch disk db = [] ∨
    ∃ others, w.batch disk db = others ++ [auditEntry w.resource w.audit] ∧
      ∀ k, Aside w.resource k → ∀ e ∈ others, e.1 ≠ k := by
  have hone : ∀ {batch : Batch}, batch = [] ∨ batch = [auditEntry w.resource w.audit] → batch = [] ∨
      ∃ others, batch = others ++ [auditEntry w.resource w.audit] ∧
        ∀ k, Aside w.resource k → ∀ e ∈ others, e.1 ≠ k :=
    (·.imp_right fun h => ⟨[], h, by simp⟩)
  cases w with
  | event config e now =>
    refine hone ?_
    show (config.emit disk e now).2 = [] ∨ (config.emit disk e now).2 = _
    unfold PolicyLifecycleEmitterConfig.emit
    split_ifs
    · exact appendAuditRecord_cases disk ((parseResourceKey e.resourceKey).getD .defaultRuntime)
        (lifecycleEventToAuditRecord e now)
    · exact .inl rfl
  | record key r => exact hone (appendAuditRecord_cases disk key r)
  | commit params =>
    rcases commit_cases disk db params with h | h | ⟨writeVersion, -, -, h⟩
    · exact .inl h
    · exact hone (.inr h)
    · refine .inr ⟨_, h.trans (append_assoc _ [_] [_]).symm,
        fun k (hk : Aside params.resourceKey k) => ?_⟩
      cases writeVersion <;>
        simp [versionBatch, activeEntry, hk.active, hk.version, hk.yaml]

theorem Db.write_notMem {batch : Batch} {k : Text} (h : ∀ e ∈ batch, e.1 ≠ k) (db : Db) :
    db.write batch k = db k := by
  induction batch generalizing db with
  | nil => rfl
  | cons e batch ih =>
    rw [forall_mem_cons] at h
    exact (ih h.2 _).trans (Db.put_ne h.1.symm db e.2)

/-- Of the audit records of all resources, a write changes its own at most. -/
theorem auditStep_audit (db : Db) (disk : Disk) (h : w.PlainNames) (h' : w'.PlainNames) :
    (auditStep db (disk, w')).1 (makeAuditKey w.resource w.audit.applyId) =
      if (auditStep db (disk, w')).2 ∧ w.resource = w'.resource ∧
          w.audit.applyId = w'.audit.applyId then
        some (serializeAuditRecord (storedAudit w'.resource w'.audit))
      else db (makeAuditKey w.resource w.audit.applyId) := by
  unfold auditStep
  rcases batch_cases w' disk db with hnone | ⟨others, hbatch, hothers⟩
  · simp [hnone]
  simp only [hbatch, Db.write_append, ← makeAuditKey_eq_iff h h']
  exact if_congr (by simp [auditEntry]) rfl
    (Db.write_notMem (hothers _ (aside_of_plain h h' _)) db)

end Run

/-- The events of these types for every job, on a store whose calls all succeed. -/
def jobEvents (jobs : List Text) (types : List PolicyLifecycleEventType) :
    List (Disk × AuditWrite) :=
  jobs.flatMap fun jobId => types.map fun type =>
    ({}, .event { policyStateStore := true }
      { makeLifecycleEventFromJob { jobId, resourceKey := lit "policy/a/b" } type 1 with
        status := lit "success" } 1)

end ByteTaper.ControlPlane
