import ByteTaper.ControlPlane.PolicyStateKey
import ByteTaper.TaperQuery.RejectedApply

/-! # The local mirror

A policy is persisted by replacing its version, the active policy and the metadata, one after the other,
and the loader refuses an active policy that does not have the hash of the metadata. So what a crash
leaves is loaded only if the active policy was not to change. A repair
(`committed_policy_mirror_sync.cpp`) removes the versions before it asks for the policy to write. -/

namespace ByteTaper.RuntimePolicy

open ControlPlane Operational TaperQuery StateDirectory

/-! ## What is loaded -/

section Load

variable {L : IrLanguage} {config : LocalPolicyPersistenceConfig}
  {dir left : StateDirectory} {document policy : PolicyIr}
  {m metadata : PersistedPolicyMetadata} {faults : PersistFaults} {yaml json : Text}

variable (L dir) in
/-- There is another policy under the name of the version, so nothing is written. -/
def VersionConflict (files : AppliedFiles) : Prop :=
  ∃ existing, dir files.version = some existing ∧ L.sha256Hex existing ≠ L.sha256Hex files.yaml

theorem persistVersioned_ok {files : AppliedFiles} {versioned : StateDirectory}
    (h : persistVersioned L faults dir files.version files.yaml = .ok versioned) :
    ¬VersionConflict L dir files ∧
      ∀ name content, dir name = some content → versioned name = some content := by
  obtain ⟨⟨existing, hver, hsame⟩, rfl⟩ | ⟨hver, rfl⟩ := persistVersioned_cases h
  · refine ⟨?_, fun _ _ => id⟩
    rintro ⟨other, hother, hdiff⟩
    cases hver.symm.trans hother
    exact hdiff hsame
  · refine ⟨fun ⟨_, hother, _⟩ => ?_, fun name _ hname => ?_⟩
    · cases hver.symm.trans hother
    · exact (dir.write_of_ne _ (by rintro rfl; simp [hname] at hver)).trans hname

/-- A persist that fails keeps every file but the active policy, which may be the new one. -/
theorem failed_persist_keeps (hon : config.enabled) (hdir : config.stateDir ≠ [])
    (hfail : (persistActivePolicyCanonicalYaml L config faults dir document metadata).2 ≠ .ok ())
    {name content : Text} (hname : dir name = some content) :
    (persistActivePolicyCanonicalYaml L config faults dir document metadata).1 name = some content ∨
      name = config.activePolicyFilename ∧
        (persistActivePolicyCanonicalYaml L config faults dir document metadata).1 name =
          some (persistFiles L document metadata).yaml ∧
        ¬VersionConflict L dir (persistFiles L document metadata) := by
  obtain ⟨error, herror⟩ | ⟨left, complete, hwr⟩ :=
    persist_cases (L := L) faults dir document metadata hon hdir
  · exact .inl (herror ▸ hname)
  have hpersisted := hwr.persisted
  rw [hpersisted.2.1]
  cases hwr with
  | version hver => exact .inl ((persistVersioned_ok hver.version).2 name content hname)
  | active hver =>
    obtain ⟨hconf, hkept⟩ := persistVersioned_ok hver.version
    by_cases hact : name = config.activePolicyFilename
    · exact .inr ⟨hact, if_pos hact, hconf⟩
    · exact .inl ((write_of_ne _ _ hact).trans (hkept name content hname))
  | metadata => exact absurd (hpersisted.2.2.mpr rfl) hfail

/-- A persist that fails between the active policy and its metadata. -/
theorem loads_sameHash (hloads : Loads L config dir policy m yaml json)
    (hnames : config.metadataFilename ≠ config.activePolicyFilename)
    (hconf : ¬VersionConflict L dir (persistFiles L document metadata)) :
    ∃ left, (∀ loaded, loadPersistedActivePolicy L config left = some (.ok loaded) →
        L.sha256Hex yaml = L.sha256Hex (persistFiles L document metadata).yaml) ∧
      ∃ faults, (persistActivePolicyCanonicalYaml L config faults dir document metadata).1 = left ∧
        (persistActivePolicyCanonicalYaml L config faults dir document metadata).2 ≠ .ok () := by
  obtain ⟨versioned, hvers⟩ : ∃ versioned,
      persistVersioned L { writeMetadata := some [] } dir (persistFiles L document metadata).version
        (persistFiles L document metadata).yaml = .ok versioned := by
    unfold persistVersioned
    split
    next existing hexist =>
      exact ⟨dir, if_neg fun hdiff => hconf ⟨existing, hexist, hdiff⟩⟩
    next => exact ⟨_, rfl⟩
  have hwr : WrittenUpTo L config { writeMetadata := some [] } (persistFiles L document metadata)
      dir _ false :=
    .active ⟨hloads.enabled, hloads.stateDir, ⟨rfl, rfl⟩, hvers⟩ rfl rfl
  obtain ⟨-, hleft, hfail⟩ := hwr.persisted
  refine ⟨_, fun loaded hloaded => ?_, _, hleft, fun hok => by cases hfail.mp hok⟩
  obtain ⟨yaml', json', hnew⟩ := loads_iff.mp hloaded
  have hjson := hnew.metadata
  rw [write_of_ne _ _ hnames, (persistVersioned_ok hvers).2 _ _ hloads.metadata] at hjson
  cases hjson
  cases hnew.read.symm.trans hloads.read
  cases hnew.active.symm.trans (if_pos rfl)
  exact (loadPersistedYaml_ok hloads.accepted).1.trans (loadPersistedYaml_ok hnew.accepted).1.symm

end Load

/-! ## A crash -/

section Crash

variable (L : IrLanguage) (config : LocalPolicyPersistenceConfig)
  (dir : StateDirectory) (document : PolicyIr)
  (metadata : PersistedPolicyMetadata)

/-- A file is written under this name before it is renamed. -/
def temporary (name : Text) : Text := name ++ lit ".tmp"

/-- The files that a persist replaces. -/
def replacedFiles : List Text :=
  [(persistFiles L document metadata).version, config.activePolicyFilename, config.metadataFilename]

/-- A process that stops before a file is replaced leaves what the failure to replace it leaves, and may
    leave part of the new content under the temporary name. -/
inductive Crashed : StateDirectory → Prop where
  | between (faults : PersistFaults)
      (hfailed :
        (persistActivePolicyCanonicalYaml L config faults dir document metadata).2 ≠ .ok ()) :
      Crashed (persistActivePolicyCanonicalYaml L config faults dir document metadata).1
  | writing {left : StateDirectory} (h : Crashed left) (name : Text)
      (hname : name ∈ replacedFiles L config document metadata) (written : Text) :
      Crashed (left.write (temporary name) written)

/-- A load returns the old policy or the new one, whenever the process stops. -/
def SurvivesCrash : Prop :=
  ∀ left, Crashed L config dir document metadata left →
    ∃ loaded, loadPersistedActivePolicy L config left = some (.ok loaded) ∧
      (loadPersistedActivePolicy L config dir = some (.ok loaded) ∨
        loadPersistedActivePolicy L config
          (persistActivePolicyCanonicalYaml L config {} dir document metadata).1 =
            some (.ok loaded))

variable {L config dir document metadata} {policy : PolicyIr}
  {m : PersistedPolicyMetadata} {yaml json : Text}

theorem Crashed.keeps {left : StateDirectory} (hloads : Loads L config dir policy m yaml json)
    (htmp : ∀ read ∈ readFiles config m,
      ∀ name ∈ replacedFiles L config document metadata, read ≠ temporary name)
    (hstays : yaml = (persistFiles L document metadata).yaml ∨
      VersionConflict L dir (persistFiles L document metadata))
    (h : Crashed L config dir document metadata left) :
    ∀ name ∈ readFiles config m, ∀ content, dir name = some content → left name = some content := by
  induction h with
  | between _ hfail =>
    intro name _ content hname
    obtain hkept | ⟨rfl, hnew, hconf⟩ :=
      failed_persist_keeps hloads.enabled hloads.stateDir hfail hname
    · exact hkept
    · rw [hnew, ← hstays.resolve_right hconf, ← hloads.active, hname]
  | writing _ name hname _ ih =>
    intro read hread content hcont
    exact (write_of_ne _ _ (htmp read hread name hname)).trans
      (ih read hread content hcont)

/-- A mirror survives a crash if the active policy is not to change, or if nothing is written since there
    is another policy under the name of the version. -/
theorem mirror_survives_crash_iff (L : IrLanguage)
    (config : LocalPolicyPersistenceConfig) (dir : StateDirectory)
    (document old : PolicyIr) (metadata m : PersistedPolicyMetadata)
    (yaml : Text) (hload : loadPersistedActivePolicy L config dir = some (.ok (old, m)))
    (hactive : dir config.activePolicyFilename = some yaml)
    (hnames : config.metadataFilename ≠ config.activePolicyFilename)
    (htemporary : ∀ read ∈ readFiles config m,
      ∀ name ∈ replacedFiles L config document metadata, read ≠ temporary name)
    (hcollision : L.sha256Hex yaml = L.sha256Hex (L.emitPolicyIrCanonicalYaml document) →
      yaml = L.emitPolicyIrCanonicalYaml document) :
    SurvivesCrash L config dir document metadata ↔
      yaml = L.emitPolicyIrCanonicalYaml document ∨
        VersionConflict L dir (persistFiles L document metadata) := by
  obtain ⟨yaml', json, hloads⟩ := loads_iff.mp hload
  cases hloads.active.symm.trans hactive
  constructor
  · intro hsurvives
    by_cases hconf : VersionConflict L dir (persistFiles L document metadata)
    · exact .inr hconf
    · obtain ⟨_, hhash, _, rfl, hfail⟩ := loads_sameHash hloads hnames hconf
      obtain ⟨loaded, hloaded, -⟩ := hsurvives _ (.between _ hfail)
      exact .inl (hcollision (hhash loaded hloaded))
  · intro hstays left hcrashed
    have hleft := hloads.of_kept (hcrashed.keeps hloads htemporary hstays)
    exact ⟨(old, m), loads_iff.mpr ⟨yaml, json, hleft⟩, .inl hload⟩

end Crash

def shopLanguage : IrLanguage :=
  { readingAs (shopPolicy (shopRoute .full {})) with
    sha256Hex := fun text => Nat.toDigits 10 (sampleHash text).toNat }

def shopMetadata (generation : UInt64) : PersistedPolicyMetadata where
  policyIdentity := shopLanguage.computePolicyDocumentIdentity (shopPolicy (shopRoute .full {}))
  generation

/-- The shop, persisted in an empty directory. -/
def shopMirror : StateDirectory :=
  (persistActivePolicyCanonicalYaml shopLanguage shopStartup.persistence {} (fun _ => none)
    (shopPolicy (shopRoute .full {})) (shopMetadata 1)).1

def shopMirrored : PersistedPolicyMetadata :=
  persistedMetadata shopLanguage (shopMetadata 1)
    (shopLanguage.emitPolicyIrCanonicalYaml (shopPolicy (shopRoute .full {})))

theorem loads_as (dir : StateDirectory) (m : PersistedPolicyMetadata)
    (h : (loadPersistedActivePolicy shopLanguage shopStartup.persistence dir).bind
      (fun result => result.toOption.map Prod.snd) = some m) :
    ∃ policy, loadPersistedActivePolicy shopLanguage shopStartup.persistence dir =
      some (.ok (policy, m)) := by
  obtain ⟨result, hload, hres⟩ := Option.bind_eq_some_iff.mp h
  obtain _ | ⟨policy, m⟩ := result
  · cases hres
  · cases hres
    exact ⟨policy, hload⟩

theorem shopMirror_loads : ∃ policy, loadPersistedActivePolicy shopLanguage shopStartup.persistence
    shopMirror = some (.ok (policy, shopMirrored)) :=
  loads_as _ _ (by decide +kernel)

/-- The same policy under the next generation. -/
theorem shopMirror_survives : SurvivesCrash shopLanguage shopStartup.persistence shopMirror
    (shopPolicy (shopRoute .full {})) (shopMetadata 2) := by
  obtain ⟨old, hload⟩ := shopMirror_loads
  refine (mirror_survives_crash_iff _ _ _ _ old _ _ _ hload ?_ ?_ ?_ fun _ => rfl).mpr (.inl rfl)
  · decide +kernel
  · decide +kernel
  · decide +kernel

/-- A filter is to be added, and the process stops before its metadata is written. -/
theorem crash_breaks_mirror : (∃ policy m,
      loadPersistedActivePolicy shopLanguage shopStartup.persistence shopMirror =
        some (.ok (policy, m))) ∧
      ¬SurvivesCrash shopLanguage shopStartup.persistence shopMirror filteredShop
        (shopMetadata 2) := by
  obtain ⟨old, hload⟩ := shopMirror_loads
  refine ⟨⟨old, _, hload⟩, fun hsurvives => ?_⟩
  obtain ⟨loaded, hloaded, -⟩ := hsurvives _ (.between { writeMetadata := some [] } (by decide +kernel))
  have href : (loadPersistedActivePolicy shopLanguage shopStartup.persistence
      (persistActivePolicyCanonicalYaml shopLanguage shopStartup.persistence
        { writeMetadata := some [] } shopMirror filteredShop (shopMetadata 2)).1).bind
          Except.toOption |>.isNone := by decide +kernel
  rw [hloaded] at href
  cases href

/-! ## A repair -/

/-- What the control plane answers, or an error code and a message. -/
structure CommittedPolicies where
  active : Except (Text × Text) ActivePolicyPointer
  version : UInt64 → Except (Text × Text) (PolicyVersionRecord × Text)

def mirrorMetadata (config : LocalPolicyPersistenceConfig) (resourceKey : PolicyResourceKey)
    (record : PolicyVersionRecord) (now : UInt64) : PersistedPolicyMetadata where
  policyIdentity := record.policyId
  generation := record.generation
  canonicalHash := record.canonicalHash
  canonicalYamlSha256 := withoutSha256 record.canonicalHash
  canonicalHashAlgorithm := lit "sha256"
  resourceKey := resourceKey.toText
  metadataSchemaVersion := 1
  schemaVersion := record.schemaVersion
  apiVersion := record.apiVersion
  kind := record.kind
  sourceType := orElse record.sourceType (lit "manual-repair")
  activePolicyFile := orElse config.activePolicyFilename (lit "active-policy.yaml")
  committedAtUnixEpochMs := record.createdAtUnixEpochMs
  writtenAtUnixEpochMs := now

def inVersions (name : Text) : Bool := name = lit "versions" || (lit "versions/").isPrefixOf name

/-- Versions that cannot be removed are left without an error. -/
def withoutVersions (dir : StateDirectory) (stuck : Text → Bool) : StateDirectory :=
  fun name => if inVersions name && !stuck name then none else dir name

theorem withoutVersions_eq_some {dir : StateDirectory} {stuck : Text → Bool} {name content : Text} :
    withoutVersions dir stuck name = some content ↔
      (inVersions name && !stuck name) = false ∧ dir name = some content := by
  simp [withoutVersions]

section Repair

variable (L : IrLanguage) (resourceKey : PolicyResourceKey)
  (config : LocalPolicyPersistenceConfig) (generation : UInt64) (client : Option CommittedPolicies)

/-- The policy to write with its metadata, as of generation 0 that of the pointer. -/
def committedPolicy (committed : CommittedPolicies) (now : UInt64) :
    Except (Text × Text) (PolicyIr × PersistedPolicyMetadata) :=
  match committed.active with
  | .error (code, message) =>
    .error (code, orElse message (lit "failed to load active policy pointer"))
  | .ok active =>
    match committed.version (if generation ≠ 0 then generation else active.generation) with
    | .error (code, message) =>
      .error (code, orElse message (lit "failed to load committed policy version"))
    | .ok (record, canonicalYaml) =>
      match L.loadYaml canonicalYaml with
      | .error error =>
        .error (lit "POLICY_PARSE_FAILED", orElse error (lit "failed to parse committed policy yaml"))
      | .ok policy => .ok (policy, mirrorMetadata config resourceKey record now)

/-- The files that are there at the end, and a code and a message if the repair failed. -/
def syncLocalMirrorFromCommitted (now : UInt64) (stuck : Text → Bool) (faults : PersistFaults)
    (dir : StateDirectory) : StateDirectory × Except (Text × Text) Unit :=
  match client with
  | none =>
    (dir, .error (lit "CONTROL_PLANE_UNAVAILABLE", lit "control plane client is not configured"))
  | some committed =>
    if config.enabled = false ∨ config.stateDir = [] then
      (dir, .error (lit "LOCAL_MIRROR_DISABLED", lit "local mirror persistence is not enabled"))
    else
      match committedPolicy L resourceKey config generation committed now with
      | .error error => (withoutVersions dir stuck, .error error)
      | .ok (policy, metadata) =>
        (persistActivePolicyCanonicalYaml L config faults (withoutVersions dir stuck) policy
          metadata).map id (·.mapError (lit "LOCAL_MIRROR_WRITE_FAILED", ·))

/-- The policy that a repair is to write. -/
def Committed (document : PolicyIr) : Prop :=
  ∃ committed now metadata, client = some committed ∧
    committedPolicy L resourceKey config generation committed now = .ok (document, metadata)

/-- However the repair fails, the policy is loaded. -/
def RepairHarmless (dir : StateDirectory) (policy : PolicyIr) : Prop :=
  ∀ now stuck faults left error, syncLocalMirrorFromCommitted L resourceKey config generation client
    now stuck faults dir = (left, .error error) →
      ∃ m, loadPersistedActivePolicy L config left = some (.ok (policy, m))

variable {L resourceKey config generation} {committed : CommittedPolicies} {now : UInt64}
  {stuck : Text → Bool} {faults : PersistFaults} {dir left : StateDirectory}

theorem repair_failed_iff (hon : config.enabled) (hdir : config.stateDir ≠ []) :
    (∃ error, syncLocalMirrorFromCommitted L resourceKey config generation (some committed) now stuck
      faults dir = (left, .error error)) ↔
      (∃ error, committedPolicy L resourceKey config generation committed now = .error error ∧
        withoutVersions dir stuck = left) ∨
      ∃ document metadata,
        committedPolicy L resourceKey config generation committed now = .ok (document, metadata) ∧
          (persistActivePolicyCanonicalYaml L config faults (withoutVersions dir stuck) document
            metadata).1 = left ∧
          (persistActivePolicyCanonicalYaml L config faults (withoutVersions dir stuck) document
            metadata).2 ≠ .ok () := by
  cases hcmt : committedPolicy L resourceKey config generation committed now with
  | error => simp [syncLocalMirrorFromCommitted, hon, hdir, hcmt]
  | ok found =>
    obtain ⟨document, metadata⟩ := found
    cases hpers : persistActivePolicyCanonicalYaml L config faults (withoutVersions dir stuck)
        document metadata with
    | mk _ result =>
      cases result <;>
        simp [syncLocalMirrorFromCommitted, hon, hdir, hcmt, hpers, Except.mapError]

/-- A failed repair does no harm if there is no client, or if the load looks at no version, and the policy
    to write is the active one. -/
theorem failed_repair_harmless_iff (L : IrLanguage)
    (resourceKey : PolicyResourceKey) (config : LocalPolicyPersistenceConfig) (generation : UInt64)
    (client : Option CommittedPolicies) (dir : StateDirectory)
    (policy : PolicyIr) (m : PersistedPolicyMetadata) (yaml : Text)
    (hload : loadPersistedActivePolicy L config dir = some (.ok (policy, m)))
    (hactive : dir config.activePolicyFilename = some yaml)
    (hnames : config.metadataFilename ≠ config.activePolicyFilename)
    (hcollision : ∀ document, Committed L resourceKey config generation client document →
      L.sha256Hex yaml = L.sha256Hex (L.emitPolicyIrCanonicalYaml document) →
        yaml = L.emitPolicyIrCanonicalYaml document) :
    RepairHarmless L resourceKey config generation client dir policy ↔
      client = none ∨ (∀ name ∈ readFiles config m, inVersions name = false) ∧
        ∀ document, Committed L resourceKey config generation client document →
          yaml = L.emitPolicyIrCanonicalYaml document := by
  obtain ⟨yaml', json, hloads⟩ := loads_iff.mp hload
  cases hloads.active.symm.trans hactive
  cases client with
  | none =>
    refine iff_of_true (fun _ _ _ _ _ hfail => ?_) (.inl rfl)
    cases hfail
    exact ⟨m, hload⟩
  | some committed =>
  constructor
  · intro hharmless
    -- the repair can fail before it writes anything
    obtain ⟨m', hclr⟩ : ∃ m, loadPersistedActivePolicy L config
        (withoutVersions dir fun _ => false) = some (.ok (policy, m)) := by
      have hearly : ∃ error, syncLocalMirrorFromCommitted L resourceKey config generation
          (some committed) 0 (fun _ => false) { createStateDir := some [] } dir =
            (withoutVersions dir fun _ => false, .error error) := by
        rw [repair_failed_iff hloads.enabled hloads.stateDir]
        cases hfound : committedPolicy L resourceKey config generation committed 0 with
        | error error => exact .inl ⟨error, rfl, rfl⟩
        | ok found =>
          refine .inr ⟨found.1, found.2, rfl, ?_⟩
          simp [persistActivePolicyCanonicalYaml, hloads.enabled, hloads.stateDir]
      obtain ⟨error, hearly⟩ := hearly
      exact hharmless _ _ _ _ _ hearly
    obtain ⟨yaml', json', hclr⟩ := loads_iff.mp hclr
    cases (withoutVersions_eq_some.mp hclr.active).2.symm.trans hactive
    cases (withoutVersions_eq_some.mp hclr.metadata).2.symm.trans hloads.metadata
    cases hclr.read.symm.trans hloads.read
    refine .inr ⟨fun name hname => ?_, ?_⟩
    · obtain rfl | ⟨content, hcont⟩ := hclr.reads hname
      · decide +kernel
      · simpa using (withoutVersions_eq_some.mp hcont).1
    · rintro document ⟨_, now, metadata, ⟨⟩, hfound⟩
      have hconf : ¬VersionConflict L (withoutVersions dir fun _ => false)
          (persistFiles L document metadata) := by
        rintro ⟨existing, hexist, -⟩
        rw [withoutVersions_eq_some] at hexist
        have hver : (lit "versions/").isPrefixOf (persistFiles L document metadata).version := by
          simp [persistFiles, makeVersionedFilename]
        simp [inVersions, hver] at hexist
      obtain ⟨_, hhash, faults, rfl, hfail⟩ := loads_sameHash hclr hnames hconf
      obtain ⟨error, herror⟩ := (repair_failed_iff hloads.enabled hloads.stateDir).mpr
        (.inr ⟨document, metadata, hfound, rfl, hfail⟩)
      obtain ⟨m', hleft⟩ := hharmless _ _ _ _ _ herror
      exact hcollision document ⟨_, now, metadata, rfl, hfound⟩ (hhash _ hleft)
  · intro h now stuck faults left error hfail
    obtain ⟨hreads, hsame⟩ := h.resolve_left (Option.some_ne_none _)
    have hclr : ∀ name ∈ readFiles config m, withoutVersions dir stuck name = dir name :=
      fun name hname => by simp [withoutVersions, hreads name hname]
    refine ⟨m, loads_iff.mpr ⟨yaml, json, hloads.of_kept fun name hname content hcont => ?_⟩⟩
    rw [← hclr name hname] at hcont
    obtain ⟨_, -, rfl⟩ | ⟨document, metadata, hfound, rfl, hpers⟩ :=
      (repair_failed_iff hloads.enabled hloads.stateDir).mp ⟨error, hfail⟩
    · exact hcont
    · obtain hleft | ⟨rfl, hnew, -⟩ :=
        failed_persist_keeps hloads.enabled hloads.stateDir hpers hcont
      · exact hleft
      · rw [hnew, ← hcont, hclr _ hname, hactive]
        exact congrArg some (hsame document ⟨_, now, metadata, rfl, hfound⟩).symm

end Repair

/-- A control plane that does not know the shop. -/
def emptyControlPlane : CommittedPolicies where
  active := .error (lit "ACTIVE_POLICY_NOT_FOUND", [])
  version _ := .error (lit "POLICY_VERSION_NOT_FOUND", [])

def ShopRepairHarmless : StateDirectory → PolicyIr → Prop :=
  RepairHarmless shopLanguage .defaultRuntime shopStartup.persistence 0 (some emptyControlPlane)

/-- The shop with metadata that names no version. -/
def unversionedMirror : StateDirectory :=
  shopMirror.write shopStartup.persistence.metadataFilename
    (serializeMetadata { shopMirrored with versionedPolicyFile := [] })

theorem unversionedMirror_repair_harmless : ∃ policy, ShopRepairHarmless unversionedMirror policy := by
  obtain ⟨policy, hload⟩ := loads_as unversionedMirror
    { shopMirrored with versionedPolicyFile := [] } (by decide +kernel)
  refine ⟨policy, (failed_repair_harmless_iff _ _ _ _ _ _ policy _
    (shopLanguage.emitPolicyIrCanonicalYaml (shopPolicy (shopRoute .full {}))) hload
    (by decide +kernel) (by decide +kernel) ?_).mpr (.inr ⟨by decide +kernel, ?_⟩)⟩ <;>
    rintro _ ⟨_, _, _, ⟨⟩, ⟨⟩⟩

/-- The versions are gone, and there is no policy to write. -/
theorem failed_repair_breaks_mirror : ∃ policy m,
    loadPersistedActivePolicy shopLanguage shopStartup.persistence shopMirror =
        some (.ok (policy, m)) ∧
      ¬ShopRepairHarmless shopMirror policy := by
  obtain ⟨policy, hload⟩ := shopMirror_loads
  refine ⟨policy, _, hload, fun hharmless => ?_⟩
  have hfail : ∃ error, syncLocalMirrorFromCommitted shopLanguage .defaultRuntime
      shopStartup.persistence 0 (some emptyControlPlane) 0 (fun _ => false) {} shopMirror =
        (withoutVersions shopMirror fun _ => false, .error error) :=
    (repair_failed_iff rfl (by decide +kernel)).mpr (.inl ⟨_, rfl, rfl⟩)
  obtain ⟨error, hfail⟩ := hfail
  obtain ⟨m, hloaded⟩ := hharmless _ _ _ _ error hfail
  have href : (loadPersistedActivePolicy shopLanguage shopStartup.persistence
      (withoutVersions shopMirror fun _ => false)).bind Except.toOption |>.isNone := by
    decide +kernel
  rw [hloaded] at href
  cases href

end ByteTaper.RuntimePolicy
