import ByteTaper.TaperQuery.ReportingOptions

/-! # What a rejected apply leaves behind

An apply is rejected by a check, by a file that cannot be written, or by an epoch that cannot be versioned.
The files are written one after the other and the epochs behind them, and nothing is taken back. So a
restart can find an active policy without its metadata, or a policy that was never served; and the epochs
that were versioned before the failure stay. -/

namespace ByteTaper.TaperQuery

open ByteTaper.Runtime Operational Option ActivationState

/-! ## Files -/

section Files

variable {L : IrLanguage} {startup : StartupPolicyLoadConfig}
  {config : LocalPolicyPersistenceConfig} {dir left : StateDirectory}
  {policy : PolicyIr} {m : PersistedPolicyMetadata} {yaml json : Text}

theorem StateDirectory.write_of_ne (dir : StateDirectory) {name other : Text} (content : Text)
    (h : other ≠ name) : dir.write name content other = dir other := if_neg h

theorem makeVersionedFilename_head (generation : UInt64) (policyId : Text) :
    (makeVersionedFilename generation policyId).head? = some 'v' := by
  have hvers : lit "versions/" = 'v' :: (lit "versions/").tail := by simp [lit]
  rw [makeVersionedFilename, hvers]
  rfl

variable (L config dir policy m yaml json) in
structure Loads : Prop where
  enabled : config.enabled = true
  stateDir : config.stateDir ≠ []
  active : dir config.activePolicyFilename = some yaml
  metadata : dir config.metadataFilename = some json
  read : deserializeMetadata json = some m
  accepted : loadPersistedYaml L config dir yaml m = .ok policy

theorem loads_iff : loadPersistedActivePolicy L config dir = some (.ok (policy, m)) ↔
    ∃ yaml json, Loads L config dir policy m yaml json := by
  constructor
  · intro hload
    unfold loadPersistedActivePolicy at hload
    split_ifs at hload with hon hdir
    · cases hload
    · cases hload
    split at hload
    next => cases hload
    next yaml json hyaml hjson =>
      obtain ⟨read, hread, hres⟩ := Option.map_eq_some_iff.mp hload
      split at hres
      next => cases hres
      next accepted hacc =>
        cases hres
        exact ⟨yaml, json, Bool.eq_true_of_not_eq_false hon, hdir, hyaml, hjson, hread, hacc⟩
    next => cases hload
  · rintro ⟨yaml, json, h⟩
    simp [loadPersistedActivePolicy, h.enabled, h.stateDir, h.active, h.metadata, h.read, h.accepted]

theorem loadPersistedYaml_ok (h : loadPersistedYaml L config dir yaml m = .ok policy) :
    L.sha256Hex yaml = m.expectedHash ∧ versionedError L config dir m = none ∧
      ∀ left, versionedError L config left m = none →
        loadPersistedYaml L config left yaml m = .ok policy := by
  unfold loadPersistedYaml at h ⊢
  split at h
  · cases h
  split_ifs at h with hhash
  split at h
  next => cases h
  next hnone =>
    refine ⟨not_not.mp hhash, hnone, fun left hleft => ?_⟩
    rw [if_neg hhash, hleft]
    exact h

variable (config m) in
/-- The files that a load looks at. -/
def readFiles : List Text :=
  [config.activePolicyFilename, config.metadataFilename, m.versionedPolicyFile]

theorem Loads.of_kept (h : Loads L config dir policy m yaml json)
    (hkept : ∀ name ∈ readFiles config m, ∀ content, dir name = some content →
      left name = some content) : Loads L config left policy m yaml json := by
  have hvers : versionedError L config dir m = none → versionedError L config left m = none := by
    unfold versionedError
    split_ifs with hnone
    · exact id
    · cases hcont : dir m.versionedPolicyFile with
      | none => nofun
      | some => rw [hkept _ (by simp [readFiles]) _ hcont]; exact id
  obtain ⟨-, hnone, hacc⟩ := loadPersistedYaml_ok h.accepted
  exact ⟨h.enabled, h.stateDir, hkept _ (by simp [readFiles]) _ h.active,
    hkept _ (by simp [readFiles]) _ h.metadata, h.read, hacc left (hvers hnone)⟩

theorem Loads.reads (h : Loads L config dir policy m yaml json) {name : Text}
    (hname : name ∈ readFiles config m) : name = [] ∨ ∃ content, dir name = some content := by
  simp only [readFiles, List.mem_cons, List.not_mem_nil, or_false] at hname
  obtain rfl | rfl | rfl := hname
  · exact .inr ⟨yaml, h.active⟩
  · exact .inr ⟨json, h.metadata⟩
  obtain ⟨-, hnone, -⟩ := loadPersistedYaml_ok h.accepted
  unfold versionedError at hnone
  split_ifs at hnone with hempty
  · exact .inl hempty
  · cases hcont : dir m.versionedPolicyFile with
    | none => simp [hcont] at hnone
    | some content => exact .inr ⟨content, rfl⟩

/-- A file that no restart looks at. -/
structure Unread (config : LocalPolicyPersistenceConfig) (dir : StateDirectory) (name : Text) :
    Prop where
  active : config.activePolicyFilename ≠ name
  metadata : config.metadataFilename ≠ name
  versioned : ∀ json metadata, dir config.metadataFilename = some json →
    deserializeMetadata json = some metadata → metadata.versionedPolicyFile ≠ name

/-- A file that is not looked at is not seen. -/
theorem loadPersistedActivePolicy_write {name : Text}
    (h : Unread config dir name) (content : Text) :
    loadPersistedActivePolicy L config (dir.write name content) =
      loadPersistedActivePolicy L config dir := by
  unfold loadPersistedActivePolicy
  rw [dir.write_of_ne content h.active, dir.write_of_ne content h.metadata]
  cases hyaml : dir config.activePolicyFilename with
  | none => cases dir config.metadataFilename <;> rfl
  | some =>
    cases hjson : dir config.metadataFilename with
    | none => rfl
    | some json =>
      cases hmeta : deserializeMetadata json with
      | none => simp only [hmeta, map_none]
      | some metadata =>
        have hvers : versionedError L config (dir.write name content) metadata =
            versionedError L config dir metadata := by
          unfold versionedError
          rw [dir.write_of_ne content (h.versioned json metadata hjson hmeta)]
        simp [hmeta, loadPersistedYaml, hvers]

theorem restartPolicy_write {name : Text} (h : Unread startup.persistence dir name) (content : Text) :
    restartPolicy L startup (dir.write name content) = restartPolicy L startup dir := by
  rw [restartPolicy, restartPolicy, loadStartupPolicyWithPersistence,
    loadStartupPolicyWithPersistence, loadPersistedActivePolicy_write h]

/-- Without a fallback, a restart loads the persisted policy, or the bootstrap policy if no file is there. -/
theorem restartPolicy_cases {start : StartupPolicy}
    (hfallback : startup.fallbackToBootstrapOnPersistedPolicyError = false)
    (hon : startup.persistence.enabled) (hdir : startup.persistence.stateDir ≠ [])
    (h : restartPolicy L startup dir = some start) :
    (∃ policy m yaml json, Loads L startup.persistence dir policy m yaml json ∧
      start.generation = m.generation) ∨
      dir startup.persistence.activePolicyFilename = none ∧
        dir startup.persistence.metadataFilename = none := by
  rw [restartPolicy, loadStartupPolicyWithPersistence, if_neg (by simp [hon, hdir])] at h
  cases hload : loadPersistedActivePolicy L startup.persistence dir with
  | none => simp [hload] at h
  | some result =>
    cases result with
    | ok loaded =>
      obtain ⟨yaml, json, hloads⟩ := loads_iff.mp hload
      refine .inl ⟨loaded.1, loaded.2, yaml, json, hloads, ?_⟩
      simp only [hload, map_some, some.injEq] at h
      rw [← h]
    | error failure =>
      simp only [hload, map_some, hfallback, Bool.or_false] at h
      split_ifs at h with hmissing
      refine .inr ?_
      unfold loadPersistedActivePolicy at hload
      rw [if_neg (by simp [hon]), if_neg hdir] at hload
      split at hload
      next hactive hmetadata => exact ⟨hactive, hmetadata⟩
      next =>
        obtain ⟨read, -, hres⟩ := map_eq_some_iff.mp hload
        split at hres <;> cases hres
        cases hmissing
      next =>
        cases hload
        cases hmissing

end Files

/-! ## Writing the files -/

/-- The files of an apply: the name of the version, the YAML and the metadata. -/
structure AppliedFiles where
  version : Text
  yaml : Text
  metadata : Text

def persistFiles (L : IrLanguage) (document : PolicyIr)
    (metadata : PersistedPolicyMetadata) : AppliedFiles :=
  let yaml := L.emitPolicyIrCanonicalYaml document
  { version := makeVersionedFilename metadata.generation metadata.policyIdentity
    yaml
    metadata := serializeMetadata (persistedMetadata L metadata yaml) }

def appliedFiles (L : IrLanguage) (config : LocalPolicyPersistenceConfig)
    (call : ApplyCall) (request : TqApplyRequest) (current : RuntimePolicySnapshot)
    (candidate parsed : PolicyIr) : AppliedFiles :=
  let p := preparedOf L request (.serving current) current candidate parsed {}
  let metadata := applyMetadata L config call request p
  let yaml := L.emitPolicyIrCanonicalYaml (applyDocument L config call request p)
  { version := makeVersionedFilename metadata.generation metadata.policyIdentity
    yaml
    metadata := serializeMetadata (persistedMetadata L metadata yaml) }

/-- The version is in the directory: nothing has failed before the active policy is written. -/
structure VersionWritten (L : IrLanguage) (config : LocalPolicyPersistenceConfig)
    (faults : PersistFaults) (files : AppliedFiles) (dir versioned : StateDirectory) : Prop where
  enabled : config.enabled = true
  stateDir : config.stateDir ≠ []
  created : faults.createStateDir = none ∧ faults.createVersionsDir = none
  version : persistVersioned L faults dir files.version files.yaml = .ok versioned

theorem persistVersioned_cases {L : IrLanguage} {faults : PersistFaults}
    {dir versioned : StateDirectory} {name yaml : Text}
    (h : persistVersioned L faults dir name yaml = .ok versioned) :
    (∃ existing, dir name = some existing ∧ L.sha256Hex existing = L.sha256Hex yaml) ∧
        versioned = dir ∨
      dir name = none ∧ versioned = dir.write name yaml := by
  unfold persistVersioned at h
  split at h
  next existing hexist =>
    split_ifs at h with _ hsame
    exact .inl ⟨⟨existing, hexist, not_not.mp hsame⟩, (Except.ok.inj h).symm⟩
  next hnone =>
    split at h
    · cases h
    · exact .inr ⟨hnone, (Except.ok.inj h).symm⟩

theorem VersionWritten.keeps {L config faults files} {dir versioned : StateDirectory}
    (h : VersionWritten L config faults files dir versioned) {name content : Text}
    (hname : dir name = some content) : versioned name = some content := by
  obtain ⟨-, rfl⟩ | ⟨hnone, rfl⟩ := persistVersioned_cases h.version
  · exact hname
  · exact (dir.write_of_ne _ (by rintro rfl; simp [hname] at hnone)).trans hname

/-- The directories that writing the files can leave, and whether all the files are written. -/
inductive WrittenUpTo (L : IrLanguage) (config : LocalPolicyPersistenceConfig)
    (faults : PersistFaults) (files : AppliedFiles) (dir : StateDirectory) :
    StateDirectory → Bool → Prop where
  | version {versioned : StateDirectory} {error : Text}
      (hversion : VersionWritten L config faults files dir versioned)
      (hactive : faults.writeActive = some error) :
      WrittenUpTo L config faults files dir versioned false
  | active {versioned : StateDirectory} {error : Text}
      (hversion : VersionWritten L config faults files dir versioned)
      (hactive : faults.writeActive = none) (hmetadata : faults.writeMetadata = some error) :
      WrittenUpTo L config faults files dir
        (versioned.write config.activePolicyFilename files.yaml) false
  | metadata {versioned : StateDirectory}
      (hversion : VersionWritten L config faults files dir versioned)
      (hactive : faults.writeActive = none) (hmetadata : faults.writeMetadata = none) :
      WrittenUpTo L config faults files dir
        ((versioned.write config.activePolicyFilename files.yaml).write config.metadataFilename
          files.metadata) true

section Outcome

variable {L : IrLanguage} {config : LocalPolicyPersistenceConfig}
  {call : ApplyCall} {request : TqApplyRequest} {current : RuntimePolicySnapshot}
  {candidate parsed : PolicyIr} {dir left : StateDirectory} {complete : Bool}

theorem persistOutcome_of_off (h : config.enabled = false ∨ config.stateDir = []) :
    persistOutcome L config call request current candidate parsed dir = (dir, .ok ()) := by
  refine if_neg fun hon => ?_
  rcases h with hoff | hempty
  · exact absurd hon.1 (by simp [hoff])
  · exact hon.2 hempty

theorem persistOutcome_of_on (hon : config.enabled) (hdir : config.stateDir ≠ []) :
    persistOutcome L config call request current candidate parsed dir =
      persistActivePolicyCanonicalYaml L config call.faults dir (applyDocument L config call request
          (preparedOf L request (.serving current) current candidate parsed {}))
        (applyMetadata L config call request
          (preparedOf L request (.serving current) current candidate parsed {})) :=
  if_pos ⟨hon, hdir⟩

theorem WrittenUpTo.persisted {faults : PersistFaults} {document metadata}
    (h : WrittenUpTo L config faults (persistFiles L document metadata) dir left complete) :
    (config.enabled ∧ config.stateDir ≠ []) ∧
      (persistActivePolicyCanonicalYaml L config faults dir document metadata).1 = left ∧
      ((persistActivePolicyCanonicalYaml L config faults dir document metadata).2 = .ok () ↔
        complete) := by
  cases h with
  | version hver hact =>
    obtain ⟨hon, hdir, hcr, hver⟩ := hver
    simp only [persistFiles] at hver
    simp [persistActivePolicyCanonicalYaml, hon, hdir, hcr, hver, hact]
  | active hver hact hmeta | metadata hver hact hmeta =>
    obtain ⟨hon, hdir, hcr, hver⟩ := hver
    simp only [persistFiles] at hver ⊢
    simp [persistActivePolicyCanonicalYaml, hon, hdir, hcr, hver, hact, hmeta]

theorem persist_cases (faults : PersistFaults) (dir : StateDirectory)
    (document : PolicyIr) (metadata : PersistedPolicyMetadata)
    (hon : config.enabled) (hdir : config.stateDir ≠ []) :
    (∃ error, persistActivePolicyCanonicalYaml L config faults dir document metadata =
      (dir, .error error)) ∨
      ∃ left complete,
        WrittenUpTo L config faults (persistFiles L document metadata) dir left complete := by
  cases hstate : faults.createStateDir with
  | some =>
    simp [persistActivePolicyCanonicalYaml, hon, hdir, hstate]
  | none =>
  cases hvers : faults.createVersionsDir with
  | some =>
    simp [persistActivePolicyCanonicalYaml, hon, hdir, hstate, hvers]
  | none =>
  cases hver : persistVersioned L faults dir (persistFiles L document metadata).version
      (persistFiles L document metadata).yaml with
  | error error =>
    simp only [persistFiles] at hver
    simp [persistActivePolicyCanonicalYaml, hon, hdir, hstate, hvers, hver]
  | ok versioned =>
    have hwr : VersionWritten L config faults (persistFiles L document metadata) dir versioned :=
      ⟨hon, hdir, ⟨hstate, hvers⟩, hver⟩
    cases hact : faults.writeActive with
    | some => exact .inr ⟨_, _, .version hwr hact⟩
    | none =>
      cases hmeta : faults.writeMetadata with
      | some => exact .inr ⟨_, _, .active hwr hact hmeta⟩
      | none => exact .inr ⟨_, _, .metadata hwr hact hmeta⟩

theorem WrittenUpTo.persistOutcome (h : WrittenUpTo L config call.faults
      (appliedFiles L config call request current candidate parsed) dir left complete) :
    (persistOutcome L config call request current candidate parsed dir).1 = left ∧
      ((persistOutcome L config call request current candidate parsed dir).2 = .ok () ↔
        complete) := by
  obtain ⟨⟨hon, hdir⟩, hpersisted⟩ := WrittenUpTo.persisted h
  rwa [persistOutcome_of_on hon hdir]

theorem persistOutcome_cases (L : IrLanguage)
    (config : LocalPolicyPersistenceConfig) (call : ApplyCall) (request : TqApplyRequest)
    (current : RuntimePolicySnapshot) (candidate parsed : PolicyIr) (dir : StateDirectory) :
    (config.enabled = false ∨ config.stateDir = []) ∨
      (∃ error, persistOutcome L config call request current candidate parsed dir =
        (dir, .error error)) ∨
      ∃ left complete, WrittenUpTo L config call.faults
        (appliedFiles L config call request current candidate parsed) dir left complete := by
  by_cases hoff : config.enabled = false ∨ config.stateDir = []
  · exact .inl hoff
  obtain ⟨hon, hdir⟩ : config.enabled ∧ config.stateDir ≠ [] := by
    simpa only [not_or, Bool.not_eq_false] using hoff
  rw [persistOutcome_of_on hon hdir]
  exact .inr (persist_cases _ _ _ _ hon hdir)

/-- What holds of the directory that is left holds at every exit behind a written file. -/
theorem persistOutcome_directory_iff (P : StateDirectory → Prop) (hdir : P dir) :
    P (persistOutcome L config call request current candidate parsed dir).1 ↔
      ∀ left complete, WrittenUpTo L config call.faults
        (appliedFiles L config call request current candidate parsed) dir left complete →
        P left := by
  constructor
  · intro hout left complete hwr
    exact hwr.persistOutcome.1 ▸ hout
  · intro hexits
    obtain hoff | ⟨error, herror⟩ | ⟨left, complete, hwr⟩ :=
      persistOutcome_cases L config call request current candidate parsed dir
    · rwa [persistOutcome_of_off hoff]
    · rwa [herror]
    · rw [hwr.persistOutcome.1]
      exact hexits left complete hwr

/-- The epochs are reached. -/
theorem persistOutcome_ok_iff :
    (persistOutcome L config call request current candidate parsed dir).2 = .ok () ↔
      (config.enabled = false ∨ config.stateDir = []) ∨ ∃ left, WrittenUpTo L config call.faults
          (appliedFiles L config call request current candidate parsed) dir left true := by
  constructor
  · intro hok
    obtain hoff | ⟨error, herror⟩ | ⟨left, complete, hwr⟩ :=
      persistOutcome_cases L config call request current candidate parsed dir
    · exact .inl hoff
    · rw [herror] at hok
      cases hok
    · obtain rfl := hwr.persistOutcome.2.mp hok
      exact .inr ⟨left, hwr⟩
  · rintro (hoff | ⟨left, hwr⟩)
    · rw [persistOutcome_of_off hoff]
    · exact hwr.persistOutcome.2.mpr rfl

end Outcome

/-! ## What is kept -/

/-- The served snapshot, the registered routes with their epochs, and what a restart loads. -/
structure KeepsAll (L : IrLanguage) (startup : StartupPolicyLoadConfig)
    (state after : ApplyServiceState) : Prop where
  snapshot : after.policyStore = state.policyStore
  epochs : ∀ routeId, after.registeredEpoch routeId = state.registeredEpoch routeId
  restart : restartPolicy L startup after.directory = restartPolicy L startup state.directory

/-- The policy that a restart loads is kept at every exit behind a written file: nothing looks at the version,
    and the active policy that is written is the one that was there. The epochs are reached without files
    only, and their first write fails. -/
structure HarmlessExits (L : IrLanguage) (config : LocalPolicyPersistenceConfig)
    (faults : PersistFaults) (files : AppliedFiles) (state : ApplyServiceState)
    (plan : RouteChanges) : Prop where
  version : ∀ versioned, VersionWritten L config faults files state.directory versioned →
    state.directory files.version = none → Unread config state.directory files.version
  active : ∀ versioned, VersionWritten L config faults files state.directory versioned →
    faults.writeActive = none →
      faults.writeMetadata ≠ none ∧ state.directory config.activePolicyFilename = some files.yaml
  epochs : config.enabled = false ∨ config.stateDir = [] →
    ∀ store, state.epochs = some store → FirstWriteFails store plan

/-- A restart would load a policy, of another generation than the files, which have names of their own. -/
structure InStep (L : IrLanguage) (startup : StartupPolicyLoadConfig)
    (files : AppliedFiles) (dir : StateDirectory) : Prop where
  fallback : startup.fallbackToBootstrapOnPersistedPolicyError = false
  starts : (restartPolicy L startup dir).isSome = true
  generation : ∀ start m, restartPolicy L startup dir = some start →
    deserializeMetadata files.metadata = some m → start.generation ≠ m.generation
  names : files.version ≠ startup.persistence.activePolicyFilename ∧
    files.version ≠ startup.persistence.metadataFilename ∧
    startup.persistence.activePolicyFilename ≠ startup.persistence.metadataFilename
  collision : ∀ yaml, dir startup.persistence.activePolicyFilename = some yaml →
    L.sha256Hex yaml = L.sha256Hex files.yaml → yaml = files.yaml

section Exits

variable {L : IrLanguage} {startup : StartupPolicyLoadConfig}
  {faults : PersistFaults} {files : AppliedFiles} {state : ApplyServiceState}
  {dir left versioned : StateDirectory} {plan : RouteChanges} {complete : Bool}

theorem HarmlessExits.restart (h : HarmlessExits L startup.persistence faults files state plan)
    (hwritten : WrittenUpTo L startup.persistence faults files state.directory left complete) :
    restartPolicy L startup left = restartPolicy L startup state.directory ∧ complete = false := by
  have hversion : ∀ versioned,
      VersionWritten L startup.persistence faults files state.directory versioned →
        restartPolicy L startup versioned = restartPolicy L startup state.directory := by
    intro versioned hver
    obtain ⟨-, rfl⟩ | ⟨hnone, rfl⟩ := persistVersioned_cases hver.version
    · rfl
    · exact restartPolicy_write (h.version _ hver hnone) _
  cases hwritten with
  | version hver => exact ⟨hversion _ hver, rfl⟩
  | @active versioned _ hver hact =>
    -- the active policy is replaced by itself
    have hsame : versioned.write startup.persistence.activePolicyFilename files.yaml = versioned := by
      have hkept := hver.keeps (h.active _ hver hact).2
      funext name
      by_cases hname : name = startup.persistence.activePolicyFilename
      · rw [hname, hkept]
        exact if_pos rfl
      · exact versioned.write_of_ne _ hname
    rw [hsame]
    exact ⟨hversion _ hver, rfl⟩
  | metadata hver hact hmeta => exact absurd hmeta (h.active _ hver hact).1

section

variable (h : InStep L startup files dir)
  (hversion : VersionWritten L startup.persistence faults files dir versioned)

include h hversion

/-- What is loaded from the directory is there, so that the version is another file. -/
theorem InStep.unread (hne : files.version ≠ []) (hnone : dir files.version = none) :
    Unread startup.persistence dir files.version := by
  obtain ⟨start, hstart⟩ := isSome_iff_exists.mp h.starts
  refine ⟨Ne.symm h.names.1, Ne.symm h.names.2.1, fun json m hjson hread heq => ?_⟩
  obtain ⟨_, m', _, json', hloads, -⟩ | ⟨-, hmissing⟩ :=
    restartPolicy_cases h.fallback hversion.enabled hversion.stateDir hstart
  · cases hloads.metadata.symm.trans hjson
    cases hloads.read.symm.trans hread
    have hreads : m.versionedPolicyFile ∈ readFiles startup.persistence m := by simp [readFiles]
    obtain hempty | ⟨content, hcontent⟩ := hloads.reads hreads
    · exact hne (heq ▸ hempty)
    · rw [heq, hnone] at hcontent
      cases hcontent
  · cases hmissing.symm.trans hjson

/-- With another active policy a restart fails at the hash of the metadata, and with other metadata it loads
    another generation. -/
theorem InStep.active (hact : faults.writeActive = none)
    (hkept : ∀ left complete, WrittenUpTo L startup.persistence faults files dir left complete →
      restartPolicy L startup left = restartPolicy L startup dir) :
    faults.writeMetadata ≠ none ∧ dir startup.persistence.activePolicyFilename = some files.yaml := by
  obtain ⟨start, hstart⟩ := isSome_iff_exists.mp h.starts
  obtain ⟨hverAct, hverMeta, hactMeta⟩ := h.names
  have hcases := fun {left} (hleft : restartPolicy L startup left = some start) =>
    restartPolicy_cases h.fallback hversion.enabled hversion.stateDir hleft
  cases hmeta : faults.writeMetadata with
  | none =>
    obtain ⟨_, m, _, json, hloads, hgen⟩ | ⟨-, hmissing⟩ :=
      hcases ((hkept _ _ (.metadata hversion hact hmeta)).trans hstart)
    · cases hloads.metadata.symm.trans (if_pos rfl)
      exact absurd hgen (h.generation start m hstart hloads.read)
    · cases hmissing.symm.trans (if_pos rfl)
  | some error =>
    refine ⟨by simp, ?_⟩
    obtain ⟨_, m, _, json, hleft, -⟩ | ⟨hmissing, -⟩ :=
      hcases ((hkept _ _ (.active hversion hact hmeta)).trans hstart)
    · cases hleft.active.symm.trans (if_pos rfl)
      have hjson : dir startup.persistence.metadataFilename = some json := by
        rw [← hleft.metadata, versioned.write_of_ne _ hactMeta.symm]
        obtain ⟨-, rfl⟩ | ⟨-, rfl⟩ := persistVersioned_cases hversion.version
        · rfl
        · exact (dir.write_of_ne _ hverMeta.symm).symm
      obtain ⟨_, m', yaml, _, hloads, -⟩ | ⟨-, hmissing⟩ := hcases hstart
      · cases hloads.metadata.symm.trans hjson
        cases hloads.read.symm.trans hleft.read
        have hhash := (loadPersistedYaml_ok hloads.accepted).1.trans
          (loadPersistedYaml_ok hleft.accepted).1.symm
        rw [hloads.active, h.collision yaml hloads.active hhash]
      · cases hmissing.symm.trans hjson
    · cases hmissing.symm.trans (if_pos rfl)

end

end Exits

section Rejected

variable {α : Type} {F : TqFrontEnd α} {L : IrLanguage}
  {startup : StartupPolicyLoadConfig} {call : ApplyCall} {request : TqApplyRequest}
  {state : ApplyServiceState} {current : RuntimePolicySnapshot}
  {candidate parsed : PolicyIr}

/-- Of a versioning that fails, the epochs are kept if already its first write fails. -/
theorem failed_versioning_keeps_iff {store plan} (hplan : ReadablePlan plan)
    (hfail : (versionEpochsForApply (some store) plan).2.ok = false) :
    (∀ routeId, (versionEpochsForApply (some store) plan).1.bind (routeCacheEpochGet · routeId) =
        routeCacheEpochGet store routeId) ↔ FirstWriteFails store plan := by
  obtain ⟨made, rest, after, hchs, hafter, hmade, hend⟩ := versionEpochsForApply_cases store plan
  obtain ⟨hok, -⟩ | ⟨-, change, later, rfl, hcant⟩ := hend
  · cases hok.symm.trans hfail
  have hrd := hplan.sublist (hchs ▸ List.sublist_append_left made (change :: later))
  rw [hafter, hchs, firstWriteFails_iff hmade hcant, ← epochs_versioned_iff hmade hrd.ids hrd.size]
  rfl

variable (hserved : state.policyStore = some (.serving current))
  (hreadable : ∀ candidate parsed,
    PassesChecks F L request state.policyStore (.serving current) current candidate parsed →
      ({ store := .serving current, before := current.policyIr, after := candidate } :
        ActivationInput).Readable)

include hserved hreadable

/-- What is kept, exit by exit. -/
theorem keepsAll_iff (hrejected :
      (TqApplyService.executeImpl L startup.persistence call request F state).2.status ≠ .applied) :
    KeepsAll L startup state
        (TqApplyService.executeImpl L startup.persistence call request F state).1 ↔
      ∀ candidate parsed,
        PassesChecks F L request state.policyStore (.serving current) current candidate parsed →
        (∀ left complete,
          WrittenUpTo L startup.persistence call.faults
            (appliedFiles L startup.persistence call request current candidate parsed)
            state.directory left complete →
          restartPolicy L startup left = restartPolicy L startup state.directory) ∧
        ((startup.persistence.enabled = false ∨ startup.persistence.stateDir = []) ∨
            (∃ left, WrittenUpTo L startup.persistence call.faults
              (appliedFiles L startup.persistence call request current candidate parsed)
              state.directory left true) →
          ∀ store, state.epochs = some store →
            FirstWriteFails store (buildTaperqueryApplyPlan L.toRouteLanguage request.planOptions
              current.policyIr candidate)) := by
  unfold TqApplyService.executeImpl at hrejected ⊢
  cases hprep : prepareApply F L request state.policyStore with
  | error =>
    refine iff_of_true ⟨rfl, fun _ => rfl, rfl⟩ fun candidate parsed hpass => ?_
    obtain ⟨_, hok⟩ := hpass.prepareApply
    cases hprep.symm.trans hok
  | ok p =>
    obtain ⟨store, current', candidate, parsed, result, hpass, rfl⟩ := prepareApply_ok hprep
    obtain rfl : RuntimePolicyStore.serving current = store :=
      some.inj (hserved.symm.trans hpass.configured)
    obtain rfl : current = current' := some.inj hpass.active
    have hplan : ReadablePlan (buildTaperqueryApplyPlan L.toRouteLanguage request.planOptions
        current.policyIr candidate) := .of_readable (hreadable candidate parsed hpass) _
    rw [hprep] at hrejected
    dsimp only at hrejected ⊢
    have hpers : persistApply L startup.persistence call request
        (preparedOf L request (.serving current) current candidate parsed result)
        state.directory =
        persistOutcome L startup.persistence call request current candidate parsed
          state.directory := rfl
    rw [hpass.forall_iff, ← persistOutcome_ok_iff, ← persistOutcome_directory_iff
      (fun dir => restartPolicy L startup dir = restartPolicy L startup state.directory) rfl]
    rcases commitApply_cases L startup.persistence call request state
      (p := preparedOf L request (.serving current) current candidate parsed result) rfl rfl with
      ⟨directory, error, hout, hstate, -⟩ | ⟨directory, hout, hfail, hstate, -⟩ |
        ⟨directory, hout, -, hstate⟩
    · -- A file was not written: nothing came behind the files.
      rw [hpers] at hout
      rw [hstate, hout]
      exact ⟨fun h => ⟨h.restart, fun hok => by cases hok⟩, fun h => ⟨rfl, fun _ => rfl, h.1⟩⟩
    · rw [hpers] at hout
      rw [hstate, hout]
      cases hep : state.epochs with
      | none =>
        rw [hep] at hfail
        cases hfail
      | some store =>
        rw [hep] at hfail
        have hkeeps := failed_versioning_keeps_iff hplan hfail
        constructor
        · intro h
          refine ⟨h.restart, fun _ store' hstore' => ?_⟩
          obtain rfl := some.inj hstore'
          refine hkeeps.mp fun routeId => (h.epochs routeId).trans ?_
          rw [registeredEpoch, hep, bind_some]
        · rintro ⟨hrestart, hfst⟩
          refine ⟨rfl, fun routeId => ?_, hrestart⟩
          have hsame := hkeeps.mpr (hfst rfl store rfl) routeId
          rw [registeredEpoch, registeredEpoch, hep, bind_some]
          exact hsame
    · rw [hstate] at hrejected
      exact absurd rfl hrejected

/-- A rejected apply keeps everything if a check rejects it or its exits are harmless; and it does so only
    then where the directory is in step. -/
theorem rejected_apply_keeps_all_iff (hrejected :
      (TqApplyService.executeImpl L startup.persistence call request F state).2.status ≠ .applied) :
    let files := appliedFiles L startup.persistence call request current
    let harmless := ∀ candidate parsed,
      PassesChecks F L request state.policyStore (.serving current) current candidate parsed →
        HarmlessExits L startup.persistence call.faults (files candidate parsed) state
          (buildTaperqueryApplyPlan L.toRouteLanguage request.planOptions current.policyIr candidate)
    let kept := KeepsAll L startup state
      (TqApplyService.executeImpl L startup.persistence call request F state).1
    (harmless → kept) ∧
      ((∀ candidate parsed,
        PassesChecks F L request state.policyStore (.serving current) current candidate parsed →
          InStep L startup (files candidate parsed) state.directory) → kept → harmless) := by
  intro files harmless kept
  have hkept := keepsAll_iff hserved hreadable hrejected
  refine ⟨fun h => hkept.mpr fun candidate parsed hpass => ?_,
    fun hstep h candidate parsed hpass => ?_⟩
  · have hexits := h candidate parsed hpass
    refine ⟨fun left complete hwr => (hexits.restart hwr).1, ?_⟩
    rintro (hoff | ⟨left, hwr⟩)
    · exact hexits.epochs hoff
    · cases (hexits.restart hwr).2
  · obtain ⟨hrestart, hepochs⟩ := hkept.mp h candidate parsed hpass
    have hin := hstep candidate parsed hpass
    have hhead : (files candidate parsed).version.head? = some 'v' := makeVersionedFilename_head _ _
    have hne : (files candidate parsed).version ≠ [] := fun hempty => by simp [hempty] at hhead
    exact ⟨fun _ hver => hin.unread hver hne, fun _ hver hact => hin.active hver hact hrestart,
      fun hoff => hepochs (.inl hoff)⟩

end Rejected

/-! ## A policy without metadata -/

/-- The shop with a state directory, and a bootstrap file for the first start. -/
def shopStartup : StartupPolicyLoadConfig where
  bootstrapPolicyFile := lit "policy.yaml"
  bootstrap := .ok (shopPolicy (shopRoute .full {}))
  persistence := { stateDir := lit "/state" }

/-- What an apply of the filter does to the shop with an empty directory. -/
def persistShop (faults : PersistFaults) : ApplyServiceState × TqApplyResult :=
  TqApplyService.executeImpl (readingAs filteredShop) shopStartup.persistence { faults } shopRequest
    (sourceOf filteredShop) shopState

theorem shopStartup_unread {generation : UInt64} {policyId : Text} :
    Unread shopStartup.persistence shopState.directory (makeVersionedFilename generation policyId) where
  active h := by
    have hhead := makeVersionedFilename_head generation policyId
    rw [← h] at hhead
    exact absurd hhead (by decide +kernel)
  metadata h := by
    have hhead := makeVersionedFilename_head generation policyId
    rw [← h] at hhead
    exact absurd hhead (by decide +kernel)
  versioned _ _ hread _ := by cases hread

theorem persistShop_keeps_all :
    (persistShop { writeActive := some (lit "No space left on device") }).2.status =
        .rejectedPersistenceFailed ∧
      KeepsAll (readingAs filteredShop) shopStartup shopState
        (persistShop { writeActive := some (lit "No space left on device") }).1 := by
  have hstat : (persistShop { writeActive := some (lit "No space left on device") }).2.status =
      .rejectedPersistenceFailed := by decide +kernel
  have hserved : shopState.policyStore = some (.serving shopSnapshot) := rfl
  refine ⟨hstat, (rejected_apply_keeps_all_iff hserved ?_ ?_).1 ?_⟩
  · intro candidate parsed hpass
    rw [compile_sourceOf rfl hpass.compiled]
    exact ⟨by decide +kernel, by decide +kernel⟩
  · exact fun happlied => by cases happlied.symm.trans hstat
  · intro candidate parsed hpass
    refine ⟨fun _ _ _ => shopStartup_unread, fun _ _ hact => (by cases hact), ?_⟩
    rintro (hoff | hoff)
    · cases hoff
    · exact absurd hoff (by decide +kernel)

/-- The active policy is written and its metadata is not: the next start finds one without the other. -/
theorem lost_metadata_breaks_restart :
    (persistShop { writeMetadata := some (lit "No space left on device") }).2.status =
        .rejectedPersistenceFailed ∧
      ¬KeepsAll (readingAs filteredShop) shopStartup shopState
        (persistShop { writeMetadata := some (lit "No space left on device") }).1 := by
  refine ⟨by decide +kernel, fun hkeeps => ?_⟩
  have hbef : (restartPolicy (readingAs filteredShop) shopStartup shopState.directory).isSome =
      true := by decide +kernel
  have hafter : (restartPolicy (readingAs filteredShop) shopStartup
      (persistShop { writeMetadata := some (lit "No space left on device") }).1.directory).isSome =
      false := by decide +kernel
  rw [hkeeps.restart, hbef] at hafter
  cases hafter

end ByteTaper.TaperQuery
