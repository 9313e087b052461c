import ByteTaper.ControlPlane.PolicyStateContract

/-! # The history of the active pointer

What any interleaving of bootstrap imports, applies, rollbacks and adoptions does to the policy of
one resource, where calls may fail and operations may stop at any point. The active pointer refers
to a version of its generation; a pointer is replaced only by one of a greater generation that names
it as its predecessor; and a version, once stored, stays as it is.

This holds as long as the records that are written can be read back and no version is stored in the
slot of another generation. A generation that a runtime reports is adopted as it is, and the next
generation is computed in 64 bits, so that the order of generations can be lost. -/

namespace ByteTaper.ControlPlane

open TaperQuery (TqPolicyDocument)

/-! ## What operations keep -/

section Operations

variable {ρ : Type} {L : PolicyCompiler ρ} {key : PolicyResourceKey} {db : Db}

theorem loadActivePointer_silent (disk : Disk) (db : Db) (key : PolicyResourceKey) :
    (loadActivePointer disk db key).2 = [] := by
  unfold loadActivePointer
  split
  · rfl
  split
  · rfl
  · rfl
  split <;> rfl

theorem loadPolicyVersion_silent (disk : Disk) (db : Db) (key : PolicyResourceKey)
    (generation : UInt64) : (loadPolicyVersion disk db key generation).2 = [] := by
  unfold loadPolicyVersion
  split
  · rfl
  split
  · rfl
  · rfl
  split
  · rfl
  · rfl
  split <;> rfl

variable {active : ActivePolicyPointer} {c : Candidate ρ} {times : CommitTimes}
  {generation : UInt64} {ir : TqPolicyDocument ρ} {job : PolicyUpdateJob}
  {input : PolicyGenerationCommitInput}

theorem loadActivePointer_generation {disk : Disk}
    (h : (loadActivePointer disk db key).1 = some (.ok active)) : active.generation ≠ 0 := by
  unfold loadActivePointer at h
  split at h
  next => cases h
  split at h
  next => cases h
  next => cases h
  rename_i bytes hget
  split at h
  next => cases h
  next => cases h
  next p hread =>
    obtain rfl : p = active := Except.ok.inj (Option.some.inj h)
    exact deserializeActivePointer_generation hread

/-- A call that never writes may answer anything. -/
theorem keeps_of_silent {c : StoreCall} {next} (hsilent : ∀ disk db, (c.result key disk db).2 = [])
    (hnext : ∀ disk db' answer, (c.result key disk db').1 = some answer →
      (historyContract L key).Keeps (next answer) db') :
    (historyContract L key).Keeps (invoke c next) db := by
  intro db' _ hinv _ (disk : Disk)
  refine ⟨kept_of_silent hinv (hsilent disk db'), ?_⟩
  intro answer hans
  have hdb : ((policyStateStore key).perform c disk db').2 = db' := by
    show db'.write (c.result key disk db').2 = db'
    rw [hsilent, Db.write_nil]
  rw [hdb]
  exact hnext disk db' answer hans

/-- A candidate for the place of the active policy: its id is that of its YAML, and it is ahead. -/
structure Proper (L : PolicyCompiler ρ) (active : ActivePolicyPointer) (c : Candidate ρ) :
    Prop where
  policyId : PolicyIdOf L c.generation c.yaml c.policyId
  ahead : c.generation ≠ 0 → active.generation < c.generation

theorem next_generation {g : UInt64} (hg : g ≠ 0) : g + 1 ≠ 1 ∧ (g + 1 ≠ 0 → g < g + 1) := by
  simp only [ne_eq, UInt64.lt_iff_toNat_lt, ← UInt64.toNat_inj, UInt64.toNat_add] at hg ⊢
  have hlt := g.toNat_lt
  simp only [UInt64.toNat_zero, UInt64.toNat_one] at hg ⊢
  omega

theorem Proper.succeeds (h : Proper L active c) (times : CommitTimes) :
    Succeeds { generation := active.generation, policyId := active.policyId }
      (c.pointer key active times) :=
  ⟨h.ahead, rfl, rfl⟩

theorem Candidate.describes (c : Candidate ρ) (active : ActivePolicyPointer)
    (times : CommitTimes) : Describes (c.pointer key active times) (c.version active times) :=
  ⟨rfl, rfl, rfl⟩

theorem applyStore_keeps (h : Proper L active c) :
    (historyContract L key).Keeps (applyStore active c times) db := by
  intro db' _ hinv hwrite (disk : Disk)
  obtain ⟨hkept, hver⟩ := storePolicyVersion_keeps hinv h.policyId hwrite disk
  refine ⟨hkept, ?_⟩
  intro answer hans
  cases answer with
  | error => trivial
  | ok =>
    intro db' hgrows hinv hwrite (disk : Disk)
    refine ⟨compareAndPromoteActive_keeps hinv hwrite (h.succeeds times)
      ((hver hans).mono hgrows) (c.describes active times), ?_⟩
    intro answer _
    cases answer <;> trivial

theorem policyIdOf_loaded (hne : generation ≠ 1) {yaml : Text} {loaded}
    (hload : L.loadYaml yaml = .ok loaded) :
    PolicyIdOf L generation yaml (L.computePolicyDocumentIdentity loaded) := by
  rw [PolicyIdOf, if_neg hne]
  exact ⟨loaded, hload, rfl⟩

theorem policyIdOf_reparsed (hne : generation ≠ 1) {yaml : Text} {parsed}
    (h : L.emitAndReparse ir = .ok (yaml, parsed)) :
    PolicyIdOf L generation yaml (L.computePolicyDocumentIdentity parsed) := by
  simp only [TaperQuery.PolicyLanguage.emitAndReparse] at h
  split at h
  next => cases h
  next loaded hload =>
    obtain ⟨rfl, rfl⟩ := Prod.mk.inj (Except.ok.inj h)
    exact L.computePolicyDocumentIdentity_normalize loaded ▸ policyIdOf_loaded hne hload

theorem applyCandidate_eq_ok {baseYaml : Text} : applyCandidate L job active baseYaml = .ok c ↔
      ∃ base ir, L.loadYaml baseYaml = .ok base ∧ L.installBase base active.generation = .ok () ∧
        buildCandidate L job active base = .ok ir ∧ canonicalCandidate L job active ir = .ok c := by
  unfold applyCandidate
  cases L.loadYaml baseYaml with
  | error => simp [applyFailure, bind, Except.bind]
  | ok base =>
    simp only [bind, Except.bind, Except.ok.injEq]
    cases hbase : L.installBase base active.generation with
    | error => simp [applyFailure, hbase]
    | ok =>
      cases hir : buildCandidate L job active base with
      | error => simp [hbase, hir]
      | ok => simp [hbase, hir]

theorem canonicalCandidate_eq_ok (h : canonicalCandidate L job active ir = .ok c) :
    c.generation = active.generation + 1 ∧ L.emitAndReparse ir = .ok (c.yaml, c.document) ∧
      c.policyId = L.computePolicyDocumentIdentity c.document := by
  unfold canonicalCandidate at h
  split at h
  next => cases h
  next yaml parsed hemit =>
    obtain rfl := Except.ok.inj h
    exact ⟨rfl, hemit, rfl⟩

theorem applyCandidate_proper (hact : active.generation ≠ 0) {baseYaml : Text}
    (h : applyCandidate L job active baseYaml = .ok c) : Proper L active c := by
  obtain ⟨_, ir, -, -, -, hc⟩ := applyCandidate_eq_ok.mp h
  obtain ⟨hgen, hemit, hid⟩ := canonicalCandidate_eq_ok hc
  obtain ⟨hone, hahead⟩ := next_generation hact
  rw [← hgen] at hone hahead
  exact ⟨hid ▸ policyIdOf_reparsed hone hemit, hahead⟩

theorem executeApply_keeps (job : PolicyUpdateJob) (times : CommitTimes) :
    (historyContract L key).Keeps (executeApply L job times) db := by
  refine keeps_of_silent (fun disk db => loadActivePointer_silent disk db key) ?_
  intro disk db' answer hans
  cases answer with
  | error => trivial
  | ok =>
    simp only
    split
    next => trivial
    refine keeps_of_silent (fun disk db => loadPolicyVersion_silent disk db key _) ?_
    intro _ db'' answer _
    cases answer with
    | error => trivial
    | ok =>
      simp only
      split
      next => trivial
      next c hc =>
        exact applyStore_keeps (applyCandidate_proper (loadActivePointer_generation hans) hc)

/-! ### Commits -/

theorem commitCandidate_proper (hact : active.generation ≠ 0)
    (hoverride : input.candidateGenerationOverride ≠ 0 →
      active.generation < input.candidateGenerationOverride)
    (h : commitCandidate L input active = .ok c) : Proper L active c := by
  obtain ⟨hone, hahead⟩ := next_generation hact
  have hgen : ∀ yaml ir, (commitCandidateOf L input active yaml ir).generation ≠ 1 ∧
      ((commitCandidateOf L input active yaml ir).generation ≠ 0 →
        active.generation < (commitCandidateOf L input active yaml ir).generation) := by
    intro yaml ir
    simp only [commitCandidateOf]
    split
    next hne =>
      have hlt := hoverride hne
      refine ⟨?_, fun _ => hlt⟩
      intro h1
      rw [h1, UInt64.lt_iff_toNat_lt, UInt64.toNat_one] at hlt
      exact hact (UInt64.toNat_inj.mp (by simpa using hlt))
    next => exact ⟨hone, hahead⟩
  unfold commitCandidate at h
  split at h
  next => cases h
  rename_i loaded hload
  split at h
  next =>
    obtain rfl := Except.ok.inj h
    obtain ⟨hone, hahead⟩ := hgen input.canonicalYaml loaded
    exact ⟨policyIdOf_loaded hone hload, hahead⟩
  next =>
    split at h
    next => cases h
    next yaml parsed hemit =>
      obtain rfl := Except.ok.inj h
      obtain ⟨hone, hahead⟩ := hgen yaml parsed
      exact ⟨policyIdOf_reparsed hone hemit, hahead⟩

/-- A commit keeps the contract if the generation it asks for is ahead of the expected one. -/
theorem commitPolicyGeneration_keeps (hoverride : input.candidateGenerationOverride ≠ 0 →
      input.expectedActive.generation < input.candidateGenerationOverride)
    (audit : PolicyAuditRecord) (times : CommitTimes) (finish : CommitResult → OperationResult) :
    (historyContract L key).Keeps (commitPolicyGeneration L input audit times finish) db := by
  refine keeps_of_silent (fun disk db => loadActivePointer_silent disk db key) ?_
  intro disk db' answer hans
  cases answer with
  | error => trivial
  | ok active =>
    simp only [commitOn]
    split
    next => trivial
    rename_i hexpected
    simp only [not_or, not_not] at hexpected
    split
    next => trivial
    rename_i c hc
    have hproper := commitCandidate_proper (loadActivePointer_generation hans)
      (fun hne => hexpected.1 ▸ hoverride hne) hc
    intro db'' _ hinv hwrite (disk : Disk)
    have hexp : input.expectedActive =
        { generation := active.generation, policyId := active.policyId } := by
      rw [hexpected.1, hexpected.2]
    refine ⟨commit_keeps hinv hproper.policyId hwrite (hexp ▸ hproper.succeeds times)
      (c.describes active times), ?_⟩
    intro answer _
    cases answer <;> trivial

theorem executeRollback_keeps (request : PolicyRollbackRequest) (times : CommitTimes) :
    (historyContract L key).Keeps (executeRollback L request times) db := by
  unfold executeRollback
  split
  next => trivial
  split
  next => trivial
  refine keeps_of_silent (fun disk db => loadActivePointer_silent disk db key) ?_
  intro disk db' answer _
  cases answer with
  | error => trivial
  | ok =>
    simp only
    split
    next => trivial
    refine keeps_of_silent (fun disk db => loadPolicyVersion_silent disk db key _) ?_
    intro _ db'' answer _
    cases answer with
    | error => trivial
    | ok => exact commitPolicyGeneration_keeps (absurd rfl) _ _ _

theorem adoptCommit_keeps {request resolved} (h : generation ≠ 0 → active.generation < generation) :
    (historyContract L key).Keeps (adoptCommit L request times active resolved generation) db :=
  commitPolicyGeneration_keeps h _ _ _

theorem executeAdoptLocal_keeps (request : PolicyAdoptLocalRequest) (fetch : AdoptLocalFetch)
    (times : CommitTimes) :
    (historyContract L key).Keeps (executeAdoptLocal L request fetch times) db := by
  unfold executeAdoptLocal
  split
  next => trivial
  split
  next => trivial
  refine keeps_of_silent (fun disk db => loadActivePointer_silent disk db key) ?_
  intro disk db' answer hans
  cases answer with
  | error => trivial
  | ok =>
    have hnext := (next_generation (loadActivePointer_generation hans)).2
    simp only
    split
    next => trivial
    split
    next => trivial
    rename_i resolved _
    split
    next hahead =>
      refine keeps_of_silent (fun disk db => loadPolicyVersion_silent disk db key _) ?_
      intro _ db'' answer _
      cases answer with
      | error => exact adoptCommit_keeps fun _ => hahead
      | ok => exact adoptCommit_keeps hnext
    next => exact adoptCommit_keeps hnext

theorem bootstrap_policyIdOf (d : TqPolicyDocument ρ) :
    PolicyIdOf L 1 (bootstrapYaml L d) (bootstrapDocument L d).policyId := by
  exact ⟨d, rfl, rfl⟩

section

variable (input : BootstrapImportInput ρ)

theorem bootstrapFinish_keeps : (historyContract L key).Keeps (bootstrapFinish input) db := by
  unfold bootstrapFinish
  split <;> trivial

theorem bootstrapStore_keeps (d : TqPolicyDocument ρ) :
    (historyContract L key).Keeps (bootstrapStore L input d) db := by
  intro db' _ hinv hwrite (disk : Disk)
  obtain ⟨hkept, hver⟩ := storePolicyVersion_keeps hinv (bootstrap_policyIdOf d) hwrite disk
  refine ⟨hkept, ?_⟩
  intro answer hans
  cases answer with
  | error => trivial
  | ok =>
    intro db'' hgrows hinv' hwrite' (disk' : Disk)
    refine ⟨compareAndPromoteActive_keeps hinv' hwrite' ⟨fun _ => ?_, rfl, rfl⟩
      ((hver hans).mono hgrows) ⟨rfl, rfl, rfl⟩, ?_⟩
    · show (0 : UInt64) < 1
      decide
    · intro answer _
      cases answer with
      | error => trivial
      | ok => exact bootstrapFinish_keeps input

theorem importBootstrapPolicy_keeps :
    (historyContract L key).Keeps (importBootstrapPolicy L input) db := by
  unfold importBootstrapPolicy
  split
  next => trivial
  refine keeps_of_silent (fun disk db => loadActivePointer_silent disk db key) ?_
  intro disk db' answer _
  cases answer with
  | ok =>
    simp only [bootstrapSkipped]
    split
    next => trivial
    next => split <;> trivial
  | error =>
    simp only
    split
    next => trivial
    split
    next => trivial
    next d _ => exact bootstrapStore_keeps input d

end

/-- Every operation keeps the contract. -/
theorem operation_keeps (op : Operation ρ) : (historyContract L key).Keeps (op.program L) db := by
  have hcmt : ∀ (disk : Disk) failure k value, (disk.commit failure [(k, value)] ()).2 = [] ∨
      ∃ value', (disk.commit failure [(k, value)] ()).2 = [(k, value')] := by
    intro disk failure k value
    rcases Disk.commit_cases disk failure [(k, value)] () with ⟨e, he⟩ | he <;> simp [he, refuse]
  cases op with
  | bootstrapImport input => exact importBootstrapPolicy_keeps input
  | apply job times => exact executeApply_keeps job times
  | rollback request times => exact executeRollback_keeps request times
  | adoptLocal request fetch times => exact executeAdoptLocal_keeps request fetch times
  | appendAudit record =>
    intro db' _ hinv _ (disk : Disk)
    refine ⟨kept_of_aside hinv (audit_aside record.applyId) ?_, fun _ _ => trivial⟩
    simp only [StoreCall.result, appendAuditRecord]
    split
    next => exact .inl rfl
    split
    next => exact .inl rfl
    next => exact hcmt disk _ _ _
  | storeJob job =>
    intro db' _ hinv _ (disk : Disk)
    refine ⟨kept_of_aside hinv (job_aside job.jobId) ?_, fun _ _ => trivial⟩
    simp only [StoreCall.result, storePolicyUpdateJob]
    split
    next => exact .inl rfl
    split
    next => exact .inl rfl
    next => exact hcmt disk _ _ _

end Operations

/-! ## Every history -/

section History

variable {ρ : Type} (L : PolicyCompiler ρ) (key : PolicyResourceKey)

theorem storeInv_empty : StoreInv L key fun _ => none :=
  ⟨by simp, by simp, by simp⟩

/-- In every interleaving of operations on one resource whose calls write what can be read back and
    into slots that fit: the active pointer refers to a version of its generation, with its policy
    id, hash and resource; a pointer is only replaced by one of a greater generation that names it as
    its predecessor; and versions and their YAML stay as they are. -/
theorem activePointer_history {pool : Shared.Pool (policyStateStore key) OperationResult}
    (h : (policyHistory L key).ReachableUnder (historyContract L key).Guarded pool) :
    (∀ bytes, pool.store (makeActiveKey key) = some bytes →
      ∃ p, deserializeActivePointer bytes = .ok p ∧
        ∃ v yaml, VersionAt key pool.store p.generation v yaml ∧ v.generation = p.generation ∧
          v.policyId = p.policyId ∧ v.canonicalHash = p.canonicalHash ∧
          v.resourceKey = p.resourceKey) ∧
    (∀ i c next, pool.running i = some (.call c next) → Writable key pool.store c →
      ∀ disk, PointerAdvances key pool.store c disk) ∧
    ∀ pool', ({ policyHistory L key with init := pool }).ReachableUnder
        (historyContract L key).Guarded pool' →
      StoreGrows key pool.store pool'.store := by
  have hpool : (historyContract L key).PoolKeeps pool :=
    Shared.Contract.poolKeeps_reachable (fun op db _ => operation_keeps op) (storeInv_empty L key) h
  refine ⟨?_, ?_, ?_⟩
  · intro bytes hbytes
    obtain ⟨p, v, yaml, ⟨bytes', hbytes', hp⟩, hpkey, hat, hvkey, hdesc⟩ :=
      hpool.inv.active bytes hbytes
    obtain rfl : bytes = bytes' := Option.some.inj (hbytes.symm.trans hbytes')
    exact ⟨p, hp, v, yaml, hat, hdesc.generation, hdesc.policyId, hdesc.canonicalHash,
      hvkey.trans hpkey.symm⟩
  · intro i c next hi hwrite disk
    exact hpool.effect hi hwrite disk
  · -- more guarded actions keep the contract, and the store grows
    intro pool' hpool'
    let P := fun s : Shared.Pool (policyStateStore key) OperationResult =>
      (historyContract L key).PoolKeeps s ∧ StoreGrows key pool.store s.store
    have hinit : P pool := ⟨hpool, (historyContract L key).refl _⟩
    refine (hpool'.invariant (P := P) hinit ?_).2
    intro s a t hs hguard hstep
    obtain ⟨ht, hgrows⟩ := hs.1.step (fun op db _ => operation_keeps op) hguard hstep
    exact ⟨ht, (historyContract L key).trans hs.2 hgrows⟩

/-- So is every version that was stored: it has its YAML, and the policy id of what that loads as. -/
theorem storeInv_reachable {pool : Shared.Pool (policyStateStore key) OperationResult}
    (h : (policyHistory L key).ReachableUnder (historyContract L key).Guarded pool) :
    StoreInv L key pool.store :=
  (Shared.Contract.poolKeeps_reachable (fun op _ _ => operation_keeps op) (storeInv_empty L key)
    h).inv

end History

/-! ## A generation that wraps -/

/-- A language of documents without routes, in which every text is read as the empty document. -/
def plainCompiler : PolicyCompiler Empty where
  normalizeRoute := id
  routeIdentity _ := []
  printRoute _ := []
  normalizeRoute_idem _ := rfl
  siphash _ := 0
  sha256Hex _ := lit "ab"
  loadYaml _ := .ok {}
  importerSha256Hex _ := lit "cd"
  installBase _ _ := .ok ()
  planYaml _ _ _ := none
  applyTaperQuery base _ _ := .ok base

/-- A bootstrap import and an apply. -/
def applyActions : List (Shared.Action (policyStateStore .defaultRuntime) (Operation Empty)) :=
  let disk : Disk := {}
  [.start 0 (.bootstrapImport { document := .ok {} }), .call 0 disk, .call 0 disk, .call 0 disk,
   .start 1 (.apply
     { jobId := lit "job", resourceKey := lit "policy/default/runtime", sourceType := lit "yaml",
       expectedBaseGeneration := 1, expectedBasePolicyId := lit "0000000000000000",
       source := lit "policy" } {}),
   .call 1 disk, .call 1 disk, .call 1 disk, .call 1 disk]

def activeGeneration (pool : Shared.Pool (policyStateStore .defaultRuntime) OperationResult) :
    Option UInt64 :=
  (pool.store (makeActiveKey .defaultRuntime)).bind (getJsonUint64Field · (lit "generation"))

theorem activePointer_history_applied :
    ∃ pool, activeGeneration pool = some 2 ∧
      (policyHistory plainCompiler .defaultRuntime).ReachableUnder
        (historyContract plainCompiler .defaultRuntime).Guarded pool ∧
      ∀ bytes, pool.store (makeActiveKey .defaultRuntime) = some bytes →
        ∃ p, deserializeActivePointer bytes = .ok p ∧
          ∃ v yaml, VersionAt .defaultRuntime pool.store p.generation v yaml ∧
            v.generation = p.generation ∧ v.policyId = p.policyId ∧
            v.canonicalHash = p.canonicalHash ∧ v.resourceKey = p.resourceKey := by
  obtain ⟨pool, hreach, hgen⟩ : ∃ pool, (policyHistory plainCompiler .defaultRuntime).ReachableUnder
          (historyContract plainCompiler .defaultRuntime).Guarded pool ∧
        activeGeneration pool = some 2 :=
    Transition.System.exists_guardedRun applyActions (by decide +kernel)
  exact ⟨pool, hgen, hreach, (activePointer_history plainCompiler .defaultRuntime hreach).1⟩

theorem storeInv_reachable_applied :
    ∃ pool, activeGeneration pool = some 2 ∧ StoreInv plainCompiler .defaultRuntime pool.store := by
  refine .imp (fun pool ⟨hreach, hgen⟩ => ⟨hgen, storeInv_reachable _ _ hreach⟩)
    (Transition.System.exists_guardedRun applyActions ?_)
  decide +kernel

/-- A runtime reports the greatest generation, and its policy is adopted; then comes an apply. -/
def wrapActions : List (Shared.Action (policyStateStore .defaultRuntime) (Operation Empty)) :=
  let disk : Disk := {}
  [.start 0 (.bootstrapImport { document := .ok {} }), .call 0 disk, .call 0 disk, .call 0 disk,
   .start 1 (.adoptLocal
     { runtimeId := lit "edge", expectedCurrentGeneration := 1, confirmDivergentAdoption := true,
       requestId := lit "adopt" }
     (.fetched { canonicalYaml := lit "policy", localGeneration := 18446744073709551615 }) {}),
   .call 1 disk, .call 1 disk, .call 1 disk, .call 1 disk,
   .start 2 (.apply
     { jobId := lit "job", resourceKey := lit "policy/default/runtime", sourceType := lit "yaml",
       expectedBaseGeneration := 18446744073709551615,
       expectedBasePolicyId := lit "0000000000000000", source := lit "policy" } {}),
   .call 2 disk, .call 2 disk, .call 2 disk]

/-- The next call of program `i` writes a pointer of generation 0 over one of the greatest
    generation. -/
def wrapsNext (pool : Shared.Pool (policyStateStore .defaultRuntime) OperationResult) (i : Nat) :
    Bool :=
  match pool.running i, pool.store (makeActiveKey .defaultRuntime) with
  | some (.call c _), some bytes =>
    (getJsonUint64Field bytes (lit "generation") = some 18446744073709551615) &&
      ((StoreCall.result .defaultRuntime {} pool.store c).2.any fun entry =>
        entry.1 = makeActiveKey .defaultRuntime &&
          getJsonUint64Field entry.2 (lit "generation") = some 0)
  | _, _ => false

/-- After the adoption the active pointer is of generation 2^64 - 1, and the apply writes one of
    generation 0 over it. -/
theorem adopted_generation_wraps :
    ∃ pool, (policyHistory plainCompiler .defaultRuntime).Reachable pool ∧
      wrapsNext pool 2 = true ∧
      ∃ c next, pool.running 2 = some (.call c next) ∧
        ¬ PointerAdvances .defaultRuntime pool.store c {} := by
  obtain ⟨pool, hrun, hwraps⟩ :
      ∃ pool, (policyHistory plainCompiler .defaultRuntime).run wrapActions = some pool ∧
        wrapsNext pool 2 := Transition.System.exists_run (by decide +kernel)
  refine ⟨pool, .of_run (fun _ _ _ => trivial) hrun, hwraps, ?_⟩
  have h := hwraps
  unfold wrapsNext at h
  split at h
  next c next bytes hi _ =>
    refine ⟨c, next, hi, ?_⟩
    simp only [Bool.and_eq_true, List.any_eq_true, decide_eq_true_eq] at h
    obtain ⟨-, ⟨entryKey, entryBytes⟩, hmem, rfl, hzero⟩ := h
    intro hadvances
    obtain ⟨p, hp, -⟩ := hadvances entryBytes hmem
    have hread : getJsonUint64Field entryBytes (lit "generation") = some p.generation :=
      readActivePointer_eq_some.mp (checked_eq_ok.mp hp).1 (lit "generation", .u64 p.generation)
        (by simp [ActivePolicyPointer.fields])
    rw [hread] at hzero
    exact deserializeActivePointer_generation hp (Option.some.inj hzero)
  next => cases h

end ByteTaper.ControlPlane
