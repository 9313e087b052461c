import ByteTaper.ControlPlane.PolicyHistory

/-! # Applying after a failed apply

An apply stores its version before it promotes the pointer, so a promotion that fails leaves a
version in the slot of the next generation. Whether the next apply or rollback succeeds then depends
on what that slot holds: `SlotOpen` says that it is free or holds the same candidate. -/

namespace ByteTaper.ControlPlane

open TaperQuery (TqPolicyDocument)

/-! ## Calls on a sound disk -/

section Calls

variable {key : PolicyResourceKey} {db : Db}

/-- No access fails. -/
def soundDisk : Disk := {}

/-- The slot of the version is free, or holds a version of the same hash with the same YAML. -/
def SlotOpen (key : PolicyResourceKey) (db : Db) (version : PolicyVersionRecord) (yaml : Text) :
    Prop :=
  db (makeVersionKey key version.generation) = none ∨
    ∃ v, VersionAt key db version.generation v yaml ∧ v.canonicalHash = version.canonicalHash

@[simp] theorem soundDisk_open : soundDisk.isOpen := rfl

theorem commit_sound {α : Type} (failure : PolicyStateErrorCode) (batch : Batch) (result : α) :
    soundDisk.commit failure batch result = (some (.ok result), batch) := rfl

theorem get_sound (k : Text) : soundDisk.get db k = match db k with
      | some v => .ok v
      | none => .notFound := rfl

variable {c : StoreCall} {next : Except StoreError c.Value → StoreProgram key} {disk : Disk}

theorem exec_invoke {answer} {batch : Batch} (h : c.result key disk db = (some answer, batch)) :
    (invoke c next).exec disk db = (next answer).exec disk (db.write batch) := by
  have hperf : (policyStateStore key).perform c disk db = (some answer, db.write batch) := by
    show ((c.result key disk db).1, db.write (c.result key disk db).2) = _
    rw [h]
  exact Shared.Program.exec_call_some hperf

theorem exec_invoke_none (h : (c.result key disk db).1 = none) :
    ((invoke c next).exec disk db).1 = none := by
  have hperf : (policyStateStore key).perform c disk db =
      (none, db.write (c.result key disk db).2) := by
    show ((c.result key disk db).1, _) = _
    rw [h]
    rfl
  exact congrArg Prod.fst (Shared.Program.exec_call_none hperf)

variable {active : ActivePolicyPointer} {yaml : Text} {version : PolicyVersionRecord}

theorem loadActivePointer_sound (h : ActiveAt key db active) :
    loadActivePointer soundDisk db key = (some (.ok active), []) := by
  obtain ⟨bytes, hbytes, hread⟩ := h
  simp [loadActivePointer, soundDisk_open, get_sound, hbytes, hread]

theorem loadPolicyVersion_sound {generation : UInt64} {v} (h : VersionAt key db generation v yaml) :
    loadPolicyVersion soundDisk db key generation = (some (.ok ⟨v, yaml⟩), []) := by
  obtain ⟨bytes, hbytes, hread, hyaml⟩ := h
  simp [loadPolicyVersion, soundDisk_open, get_sound, hbytes, hread, hyaml]

/-- On a sound disk the check of a slot passes exactly if it is open. -/
theorem checkVersion_sound :
    (checkVersion soundDisk db key version yaml = .free ∨
      checkVersion soundDisk db key version yaml = .same) ↔
      SlotOpen key db version yaml := by
  constructor
  · rintro (h | h)
    · exact .inl (checkVersion_free h)
    · exact .inr (checkVersion_same h)
  · rintro (h | ⟨v, ⟨bytes, hbytes, hread, hyaml⟩, hhash⟩)
    · exact .inl (by simp [checkVersion, get_sound, h])
    · exact .inr (by simp [checkVersion, checkVersionYaml, get_sound, hbytes, hread, hyaml, hhash])

theorem checkActive_sound {next} (h : ActiveAt key db active)
    (hne : active.generation ≠ next.generation) :
    checkActive soundDisk db key { generation := active.generation, policyId := active.policyId } next =
      .expected := by
  obtain ⟨bytes, hbytes, hread⟩ := h
  simp [checkActive, get_sound, hbytes, hread, hne]

theorem makeVersionKey_ne_nil (g : UInt64) : makeVersionKey key g ≠ [] := by
  simp [makeVersionKey, lit_versions]

/-- A version goes into an open slot, and only there. -/
theorem storePolicyVersion_sound (hslot : SlotOpen key db version yaml) :
    ∃ batch, storePolicyVersion soundDisk db key version yaml = (some (.ok ()), batch) ∧
      db.write batch (makeActiveKey key) = db (makeActiveKey key) ∧
      (db.write batch (makeVersionKey key version.generation)).isSome := by
  rcases checkVersion_sound.mpr hslot with h | h
  · refine ⟨versionBatch key version yaml, ?_, ?_, ?_⟩
    · simp [storePolicyVersion, soundDisk_open, h, commit_sound]
    · rw [write_versionBatch, if_neg (active_ne_yaml _), if_neg (active_ne_version _)]
    · rw [write_versionBatch, if_neg (versionKey_ne_yamlKey _ _), if_pos rfl]
      rfl
  · obtain ⟨v, ⟨bytes, hbytes, -, -⟩, -⟩ := checkVersion_same h
    exact ⟨[], by simp [storePolicyVersion, soundDisk_open, h], rfl, by simp [hbytes]⟩

theorem compareAndPromoteActive_sound {expected next}
    (h : checkActive soundDisk db key expected next = .expected)
    (hkey : next.versionKey = makeVersionKey key next.generation)
    (htgt : (db (makeVersionKey key next.generation)).isSome) :
    compareAndPromoteActive soundDisk db key expected next =
      (some (.ok false), [activeEntry key next]) := by
  obtain ⟨bytes, hbytes⟩ := Option.isSome_iff_exists.mp htgt
  simp [compareAndPromoteActive, h, hkey, makeVersionKey_ne_nil, checkTarget, get_sound, hbytes,
    commit_sound]

end Calls

/-! ## Applies -/

section Operations

variable {ρ : Type} {L : PolicyCompiler ρ} {key : PolicyResourceKey} {db : Db}

def OperationResult.Succeeded : OperationResult → Prop
  | .applied (.ok _) => True
  | .resolved (.ok _) => True
  | .imported result => result.ok = true
  | _ => False

/-- On its own, with no access failing, the program returns a success. -/
def Completes (p : StoreProgram key) (db : Db) : Prop :=
  ∃ result, (p.exec soundDisk db).1 = some result ∧ result.Succeeded

section

variable {c : StoreCall} {next : Except StoreError c.Value → StoreProgram key}

theorem completes_invoke {answer} {batch : Batch}
    (h : c.result key soundDisk db = (some answer, batch)) :
    Completes (invoke c next) db ↔ Completes (next answer) (db.write batch) := by
  unfold Completes
  rw [exec_invoke h]

theorem completes_of_invoke (h : Completes (invoke c next) db) :
    ∃ answer batch, c.result key soundDisk db = (some answer, batch) ∧
      Completes (next answer) (db.write batch) := by
  cases hans : (c.result key soundDisk db).1 with
  | none =>
    obtain ⟨result, hres, -⟩ := h
    rw [exec_invoke_none hans] at hres
    cases hres
  | some answer =>
    have hres : c.result key soundDisk db = (some answer, (c.result key soundDisk db).2) :=
      Prod.ext hans rfl
    exact ⟨answer, _, hres, (completes_invoke hres).mp h⟩

end

theorem not_completes_done {result : OperationResult} (h : ¬ result.Succeeded) :
    ¬ Completes (.done result : StoreProgram key) db := by
  rintro ⟨result', hdone, hsucceeded⟩
  obtain rfl := Option.some.inj hdone
  exact h hsucceeded

theorem ne_next (g : UInt64) : g ≠ g + 1 := by
  simp only [ne_eq, ← UInt64.toNat_inj, UInt64.toNat_add, UInt64.toNat_one]
  have hlt := g.toNat_lt
  omega

variable {active : ActivePolicyPointer} {c : Candidate ρ} {audit : PolicyAuditRecord}
  {request : PolicyRollbackRequest}

theorem requestId_ne_nil (h : validateRollbackRequest key request = none) :
    request.requestId ≠ [] := by
  unfold validateRollbackRequest at h
  split_ifs at h
  assumption

section

variable (hact : ActiveAt key db active)

include hact

/-- Storing and promoting a candidate succeeds exactly if its slot is open. -/
theorem applyStore_completes_iff (hc : c.generation = active.generation + 1) (times : CommitTimes) :
    Completes (applyStore active c times : StoreProgram key) db ↔
      SlotOpen key db (c.version active times) c.yaml := by
  constructor
  · intro h
    obtain ⟨answer, batch, hres, hnext⟩ := completes_of_invoke h
    cases answer with
    | error =>
      obtain ⟨result, hdone, hsucceeded⟩ := hnext
      obtain rfl := Option.some.inj hdone
      cases hsucceeded
    | ok =>
      rw [← checkVersion_sound]
      rcases storePolicyVersion_cases soundDisk db key _ c.yaml with ⟨-, hsame⟩ | ⟨hfree, -⟩
      · exact .inr (hsame (congrArg Prod.fst hres))
      · exact .inl hfree
  · intro hslot
    obtain ⟨batch, hstore, hsame, htgt⟩ := storePolicyVersion_sound hslot
    have hne : active.generation ≠ (c.pointer key active times).generation := by
      show active.generation ≠ c.generation
      rw [hc]
      exact ne_next _
    obtain ⟨bytes, hbytes, hread⟩ := hact
    have hprom := compareAndPromoteActive_sound
      (checkActive_sound ⟨bytes, hsame.trans hbytes, hread⟩ hne) rfl htgt
    refine (completes_invoke (c := .storePolicyVersion _ _) hstore).mpr ?_
    refine (completes_invoke (c := .compareAndPromoteActive _ _) hprom).mpr ?_
    exact ⟨_, rfl, trivial⟩

/-- The base policy can be read and installed. -/
def BaseUsable (L : PolicyCompiler ρ) (generation : UInt64) (yaml : Text) : Prop :=
  ∃ base, L.loadYaml yaml = .ok base ∧ L.installBase base generation = .ok ()

/-- The job has the candidate `c` on every base it can be built on. -/
def ValidCandidate (L : PolicyCompiler ρ) (job : PolicyUpdateJob) (active : ActivePolicyPointer)
    (yaml : Text) (c : Candidate ρ) : Prop :=
  ∀ base, L.loadYaml yaml = .ok base → L.installBase base active.generation = .ok () →
    ∃ ir, buildCandidate L job active base = .ok ir ∧ canonicalCandidate L job active ir = .ok c

variable {yaml : Text}

theorem executeApply_completes_iff {v}
    (hver : VersionAt key db active.generation v yaml) {job : PolicyUpdateJob}
    (hgen : job.expectedBaseGeneration = active.generation)
    (hpid : job.expectedBasePolicyId = active.policyId)
    (hvalid : ValidCandidate L job active yaml c) (times : CommitTimes) :
    Completes (executeApply L job times : StoreProgram key) db ↔
      BaseUsable L active.generation yaml ∧ SlotOpen key db (c.version active times) c.yaml := by
  rw [executeApply, completes_invoke (c := .loadActivePointer) (loadActivePointer_sound hact)]
  simp only [hgen, hpid, ne_eq, not_true_eq_false, or_self, if_false, Db.write_nil]
  rw [completes_invoke (c := .loadPolicyVersion _) (loadPolicyVersion_sound hver)]
  simp only [Db.write_nil]
  by_cases hbase : BaseUsable L active.generation yaml
  · obtain ⟨base, hload, hinst⟩ := hbase
    obtain ⟨ir, hbuild, hcan⟩ := hvalid base hload hinst
    have hcand := applyCandidate_eq_ok.mpr ⟨base, ir, hload, hinst, hbuild, hcan⟩
    simp only [hcand, applyStore_completes_iff hact (canonicalCandidate_eq_ok hcan).1]
    exact ⟨fun h => ⟨⟨base, hload, hinst⟩, h⟩, fun h => h.2⟩
  · constructor
    · intro h
      split at h
      next => exact absurd h (not_completes_done id)
      next c' hcand =>
        obtain ⟨base, ir, hload, hinst, -⟩ := applyCandidate_eq_ok.mp hcand
        exact absurd ⟨base, hload, hinst⟩ hbase
    · exact fun h => absurd h.1 hbase

/-! ## Rollbacks -/

/-- A commit for the expected active policy succeeds exactly if the slot of its candidate is
    open. -/
theorem commitWithAudit_sound_iff {version next}
    (hne : active.generation ≠ next.generation)
    (hkey : next.versionKey = makeVersionKey key version.generation) (haudit : audit.applyId ≠ []) :
    (commitPolicyGenerationWithAudit soundDisk db
        ⟨key, version, yaml, { generation := active.generation, policyId := active.policyId },
          next, audit⟩).1 = some (.ok ()) ↔
      SlotOpen key db version yaml := by
  rw [← checkVersion_sound]
  simp only [commitPolicyGenerationWithAudit, soundDisk_open, Bool.not_true, Bool.false_eq_true,
    if_false, haudit]
  cases hcheck : checkVersion soundDisk db key version yaml with
  | threw => simp [threw]
  | refused => simp [refuse]
  | free =>
    simp [commitOnActive, checkActive_sound hact hne, commitGeneration, hkey,
      makeVersionKey_ne_nil, commit_sound]
  | same =>
    obtain ⟨v, ⟨bytes, hbytes, -, -⟩, -⟩ := checkVersion_same hcheck
    simp [commitOnActive, checkActive_sound hact hne, commitGeneration, hkey,
      makeVersionKey_ne_nil, checkTarget, get_sound, hbytes, commit_sound]

theorem commitOn_completes_iff {input} (hexp : input.expectedActive =
      { generation := active.generation, policyId := active.policyId })
    (hcand : commitCandidate L input active = .ok c) (hne : active.generation ≠ c.generation)
    (haudit : audit.applyId ≠ []) (times : CommitTimes) (accepted : PolicyApplyStatus) :
    Completes (commitOn L input audit times (resolutionOf accepted) active : StoreProgram key) db ↔
      SlotOpen key db (c.version active times) c.yaml := by
  have hkey : (c.pointer key active times).versionKey =
      makeVersionKey key (c.version active times).generation := rfl
  have hiff : (commitPolicyGenerationWithAudit soundDisk db ⟨key, c.version active times, c.yaml,
          { generation := active.generation, policyId := active.policyId },
          c.pointer key active times, c.audit audit⟩).1 = some (.ok ()) ↔
      SlotOpen key db (c.version active times) c.yaml :=
    commitWithAudit_sound_iff hact hne hkey haudit
  unfold commitOn
  rw [if_neg (by simp [hexp]), hcand, ← hiff, hexp]
  constructor
  · intro h
    obtain ⟨answer, batch, hres, hnext⟩ := completes_of_invoke h
    cases answer with
    | error => exact absurd hnext (not_completes_done id)
    | ok => exact congrArg Prod.fst hres
  · intro hcmt
    refine (completes_invoke (c := .commitPolicyGenerationWithAudit _ _ _ _ _)
      (Prod.ext hcmt rfl)).mpr ?_
    exact ⟨_, rfl, trivial⟩

/-- The candidate of a rollback. -/
def rollbackCandidate (L : PolicyCompiler ρ) (request : PolicyRollbackRequest)
    (active : ActivePolicyPointer) (target : LoadedVersion) (loaded : TqPolicyDocument ρ) :
    Candidate ρ :=
  commitCandidateOf L (rollbackInput request active target) active target.canonicalYaml loaded

theorem executeRollback_completes_iff (hreq : validateRollbackRequest key request = none)
    (hconfirm : request.confirm)
    (hgen : request.expectedCurrentGeneration = active.generation)
    (hpid : request.expectedCurrentPolicyId = active.policyId) {target : LoadedVersion}
    (htgt : VersionAt key db request.targetGeneration target.record target.canonicalYaml)
    {loaded} (hload : L.loadYaml target.canonicalYaml = .ok loaded)
    (times : CommitTimes) :
    Completes (executeRollback L request times : StoreProgram key) db ↔
      SlotOpen key db ((rollbackCandidate L request active target loaded).version active times)
        target.canonicalYaml := by
  have hcand : commitCandidate L (rollbackInput request active target) active =
      .ok (rollbackCandidate L request active target loaded) := by
    simp [commitCandidate, rollbackInput, hload, rollbackCandidate]
  have hload' := loadActivePointer_sound hact
  simp only [executeRollback, hreq, hconfirm, Bool.not_true, Bool.false_eq_true, if_false,
    rollbackConfirmed]
  rw [completes_invoke (c := .loadActivePointer) hload']
  simp only [hgen, hpid, ne_eq, not_true_eq_false, or_self, if_false, Db.write_nil]
  rw [completes_invoke (c := .loadPolicyVersion _) (loadPolicyVersion_sound htgt)]
  simp only [Db.write_nil, commitPolicyGeneration]
  rw [completes_invoke (c := .loadActivePointer) hload']
  exact commitOn_completes_iff hact rfl hcand (ne_next active.generation)
    (requestId_ne_nil hreq) times .rollbackAccepted

end

/-! ## After any history -/

/-- In every state that a history reaches: an apply of a valid candidate on the active policy, with
    no access failing, succeeds exactly if the base policy can be read and installed and the slot of
    the next generation is open, and so does a rollback to a version that can be read. -/
theorem commits_succeed_iff {pool : Shared.Pool (policyStateStore key) OperationResult}
    (h : (policyHistory L key).ReachableUnder (historyContract L key).Guarded pool)
    {active : ActivePolicyPointer} (hactive : ActiveAt key pool.store active) (times : CommitTimes) :
    ∃ v yaml, VersionAt key pool.store active.generation v yaml ∧
      (∀ job c, job.expectedBaseGeneration = active.generation →
        job.expectedBasePolicyId = active.policyId → ValidCandidate L job active yaml c →
        (Completes (executeApply L job times : StoreProgram key) pool.store ↔
          BaseUsable L active.generation yaml ∧
            SlotOpen key pool.store (c.version active times) c.yaml)) ∧
      ∀ request target loaded, validateRollbackRequest key request = none →
        request.confirm = true → request.expectedCurrentGeneration = active.generation →
        request.expectedCurrentPolicyId = active.policyId →
        VersionAt key pool.store request.targetGeneration target.record target.canonicalYaml →
        L.loadYaml target.canonicalYaml = .ok loaded →
        (Completes (executeRollback L request times : StoreProgram key) pool.store ↔
          SlotOpen key pool.store
            ((rollbackCandidate L request active target loaded).version active times)
            target.canonicalYaml) := by
  have hpool : (historyContract L key).PoolKeeps pool :=
    Shared.Contract.poolKeeps_reachable (fun op db _ => operation_keeps op) (storeInv_empty L key) h
  obtain ⟨bytes, hbytes, hread⟩ := id hactive
  obtain ⟨p, v, yaml, ⟨bytes', hbytes', hp⟩, -, hver, -, -⟩ := hpool.inv.active bytes hbytes
  obtain rfl : bytes = bytes' := Option.some.inj (hbytes.symm.trans hbytes')
  obtain rfl : active = p := Except.ok.inj (hread.symm.trans hp)
  refine ⟨v, yaml, hver, ?_, ?_⟩
  · intro job c hgen hpid hvalid
    exact executeApply_completes_iff hactive hver hgen hpid hvalid times
  · intro request target loaded hreq hconfirm hgen hpid htgt hload
    exact executeRollback_completes_iff hactive hreq hconfirm hgen hpid htgt hload times

end Operations

/-! ## A slot that is taken -/

/-- A language in which a document is its text, and hashes are lengths. -/
def textCompiler : PolicyCompiler Empty where
  normalizeRoute := id
  routeIdentity _ := []
  printRoute _ := []
  normalizeRoute_idem := plainCompiler.normalizeRoute_idem
  siphash _ := 0
  sha256Hex yaml := Nat.toDigits 10 yaml.length
  loadYaml text := .ok { documentId := text }
  importerSha256Hex yaml := Nat.toDigits 10 yaml.length
  installBase _ _ := .ok ()
  planYaml _ _ _ := none
  applyTaperQuery base _ _ := .ok base

def textJob (source : Text) : PolicyUpdateJob where
  jobId := lit "job"
  resourceKey := lit "policy/default/runtime"
  sourceType := lit "yaml"
  expectedBaseGeneration := 1
  expectedBasePolicyId := lit "0000000000000000"
  source

/-- Every text is a valid candidate. -/
theorem textJob_valid (source : Text) (active : ActivePolicyPointer) (yaml : Text) :
    ∃ c, c.generation = active.generation + 1 ∧
      ValidCandidate textCompiler (textJob source) active yaml c := by
  refine ⟨_, rfl, fun base _ _ => ⟨_, if_pos rfl, rfl⟩⟩

theorem activeAt_of_load {key : PolicyResourceKey} {db : Db} {active}
    (h : (loadActivePointer soundDisk db key).1 = some (.ok active)) : ActiveAt key db active := by
  unfold loadActivePointer at h
  simp only [soundDisk_open, Bool.not_true, Bool.false_eq_true, if_false] at h
  split at h
  next => cases h
  next => cases h
  rename_i bytes hget
  split at h
  next => cases h
  next => cases h
  next p hread =>
    obtain rfl : p = active := Except.ok.inj (Option.some.inj h)
    exact ⟨bytes, Disk.get_ok hget, hread⟩

def bootstrapActions : List (Shared.Action (policyStateStore .defaultRuntime) (Operation Empty)) :=
  let disk : Disk := {}
  [.start 0 (.bootstrapImport { document := .ok {} }), .call 0 disk, .call 0 disk, .call 0 disk]

/-- The active policy is the imported one, and nothing is stored for the next generation. -/
def freshlyImported (pool : Shared.Pool (policyStateStore .defaultRuntime) OperationResult) : Bool :=
  match (loadActivePointer soundDisk pool.store .defaultRuntime).1 with
  | some (.ok active) =>
    active.generation = 1 && active.policyId = lit "0000000000000000" &&
      pool.store (makeVersionKey .defaultRuntime (active.generation + 1)) = none
  | _ => false

theorem commits_succeed_bootstrapped :
    ∃ pool, (policyHistory textCompiler .defaultRuntime).ReachableUnder
        (historyContract textCompiler .defaultRuntime).Guarded pool ∧
      Completes (executeApply textCompiler (textJob (lit "first")) {} : StoreProgram .defaultRuntime)
        pool.store := by
  obtain ⟨pool, hreach, hfresh⟩ :
      ∃ pool, (policyHistory textCompiler .defaultRuntime).ReachableUnder
          (historyContract textCompiler .defaultRuntime).Guarded pool ∧
        freshlyImported pool :=
    Transition.System.exists_guardedRun bootstrapActions (by decide +kernel)
  unfold freshlyImported at hfresh
  split at hfresh
  next active hload =>
    simp only [Bool.and_eq_true, decide_eq_true_eq] at hfresh
    obtain ⟨⟨hgen, hpid⟩, hfree⟩ := hfresh
    obtain ⟨v, yaml, hver, happly, -⟩ :=
      commits_succeed_iff hreach (activeAt_of_load hload) {}
    obtain ⟨c, hc, hvalid⟩ := textJob_valid (lit "first") active yaml
    refine ⟨pool, hreach, (happly _ c hgen.symm hpid.symm hvalid).mpr ⟨?_, .inl ?_⟩⟩
    · exact ⟨_, rfl, rfl⟩
    · show pool.store (makeVersionKey .defaultRuntime c.generation) = none
      rw [hc, hfree]
  next => cases hfresh

/-- A bootstrap import, and an apply that stores its version and stops before the promotion. -/
def stoppedActions : List (Shared.Action (policyStateStore .defaultRuntime) (Operation Empty)) :=
  let disk : Disk := {}
  bootstrapActions ++
    [.start 1 (.apply (textJob (lit "first")) {}), .call 1 disk, .call 1 disk, .call 1 disk, .stop 1]

/-- The failure of an apply on its own. -/
def applyFailureOf (job : PolicyUpdateJob) (db : Db) : Option ApplyFailure :=
  match ((executeApply textCompiler job {} : StoreProgram .defaultRuntime).exec soundDisk db).1 with
  | some (.applied (.error failure)) => some failure
  | _ => none

/-- What the job that comes second meets. -/
def blocksSecond (pool : Shared.Pool (policyStateStore .defaultRuntime) OperationResult) : Bool :=
  match (loadActivePointer soundDisk pool.store .defaultRuntime).1 with
  | some (.ok active) =>
    active.generation = 1 && active.policyId = lit "0000000000000000" &&
      applyFailureOf (textJob (lit "second one")) pool.store = some
        { stage := .storeVersion
          code := lit "POLICY_APPLY_STORE_VERSION_FAILED"
          message := lit "policy version conflict (VERSION_CONFLICT)" }
  | _ => false

/-- The version of an apply that stopped before its promotion blocks the next apply, though that
    names the active policy as its base and has a valid candidate. -/
theorem stopped_apply_blocks_next :
    ∃ pool active, (policyHistory textCompiler .defaultRuntime).ReachableUnder
        (historyContract textCompiler .defaultRuntime).Guarded pool ∧
      ActiveAt .defaultRuntime pool.store active ∧
      (textJob (lit "second one")).expectedBaseGeneration = active.generation ∧
      (textJob (lit "second one")).expectedBasePolicyId = active.policyId ∧
      (∀ yaml, ∃ c, c.generation = active.generation + 1 ∧
        ValidCandidate textCompiler (textJob (lit "second one")) active yaml c) ∧
      ¬ Completes
        (executeApply textCompiler (textJob (lit "second one")) {} : StoreProgram .defaultRuntime)
        pool.store := by
  obtain ⟨pool, hreach, hblocks⟩ :
      ∃ pool, (policyHistory textCompiler .defaultRuntime).ReachableUnder
          (historyContract textCompiler .defaultRuntime).Guarded pool ∧ blocksSecond pool :=
    Transition.System.exists_guardedRun stoppedActions (by decide +kernel)
  unfold blocksSecond at hblocks
  split at hblocks
  next active hload =>
    simp only [Bool.and_eq_true, decide_eq_true_eq] at hblocks
    obtain ⟨⟨hgen, hpid⟩, hfails⟩ := hblocks
    refine ⟨pool, active, hreach, activeAt_of_load hload, hgen.symm, hpid.symm,
      textJob_valid _ active, ?_⟩
    rintro ⟨result, hres, hsucceeded⟩
    unfold applyFailureOf at hfails
    split at hfails
    next failure hfailure =>
      obtain rfl := Option.some.inj (hres.symm.trans hfailure)
      exact hsucceeded
    next => cases hfails
  next => cases hblocks

end ByteTaper.ControlPlane
