import ByteTaper.ControlPlane.FailedApply
import ByteTaper.TaperQuery.CanonicalYaml

/-! # The drift check after a bootstrap import

`import_bootstrap_policy` fills in the metadata of the policy it reads and commits the hash of the YAML
with it. `check_bootstrap_drift` hashes the YAML of the policy as the file has it. -/

namespace ByteTaper.ControlPlane

open List TaperQuery

section Import

variable {ρ : Type} {L : PolicyCompiler ρ} {key : PolicyResourceKey} {d : TqPolicyDocument ρ}
  {input : BootstrapImportInput ρ}

/-- The pointer that an import into an empty store leaves. -/
theorem import_pointer (hconfigured : input.configured) (hdoc : input.document = .ok d) :
    ((importBootstrapPolicy L input : StoreProgram key).exec soundDisk fun _ => none).2
        (makeActiveKey key) =
      some (serializeActivePointer (storedPointer key (bootstrapPointer L key d input.committedAt))) := by
  have hload : StoreCall.loadActivePointer.result key soundDisk (fun _ => none) =
      refuse .activePointerNotFound
        (lit "active policy pointer not found (ACTIVE_POINTER_NOT_FOUND)") := rfl
  have hslot : SlotOpen key (fun _ => none) (bootstrapVersion L key d input.committedAt)
      (bootstrapYaml L d) := .inl rfl
  obtain ⟨batch, hstore, hact, htgt⟩ := storePolicyVersion_sound hslot
  have hstored : StoreCall.result key soundDisk (fun _ => none) (.storePolicyVersion
      (bootstrapVersion L key d input.committedAt) (bootstrapYaml L d)) = (some (.ok ()), batch) := hstore
  have hprom : StoreCall.result key soundDisk (Db.write (fun _ => none) batch)
      (.compareAndPromoteActive {} (bootstrapPointer L key d input.committedAt)) = (some (.ok false), _) :=
    compareAndPromoteActive_sound (by simp [checkActive, get_sound, hact]) rfl htgt
  have hfinish : ∀ db, ((bootstrapFinish input : StoreProgram key).exec soundDisk db).2 = db := by
    intro db
    unfold bootstrapFinish
    split <;> rfl
  simp only [importBootstrapPolicy, hconfigured, hdoc]
  rw [if_neg (by decide), exec_invoke hload]
  simp only [ne_eq, not_true_eq_false, if_false]
  rw [Db.write_nil, bootstrapStore, exec_invoke hstored]
  rw [exec_invoke hprom]
  rw [hfinish]
  exact Db.put_eq _ _ _

theorem stripSha256Prefix_importerSha256Of (yaml : Text) :
    stripSha256Prefix (importerSha256Of L yaml) = L.importerSha256Hex yaml := by
  have hlen : (lit "sha256:").length = 7 := by simp [lit]
  rw [stripSha256Prefix, if_pos ⟨by simp [importerSha256Of, hlen], by simp [importerSha256Of]⟩,
    importerSha256Of, ← hlen, List.drop_left]

/-- The policy has the metadata that the importer fills in. -/
structure HasImportMetadata (L : PolicyCompiler ρ) (d : TqPolicyDocument ρ) : Prop where
  apiVersion : d.apiVersion = lit "bytetaper.io/v1alpha1"
  kind : d.kind = lit "RuntimePolicy"
  generation : d.generation = 1
  policyId : d.policyId = L.computePolicyDocumentIdentity d
  schemaVersion : d.schemaVersionNum = 1

theorem bootstrapDocument_policyId :
    (bootstrapDocument L d).policyId = L.computePolicyDocumentIdentity d :=
  L.computePolicyDocumentIdentity_congr rfl rfl rfl

theorem hasImportMetadata_iff :
    HasImportMetadata L d ↔ headFields d = headFields (bootstrapDocument L d) := by
  constructor
  · rintro ⟨hapi, hkind, hgen, hid, hschema⟩
    simp only [headFields, hapi, hkind, hgen, hid, hschema, bootstrapDocument_policyId]
    rfl
  · intro h
    simp only [headFields, cons.injEq, Prod.mk.injEq, true_and] at h
    obtain ⟨hapi, hkind, -, hgen, hid, hschema, -⟩ := h
    exact ⟨hapi, hkind, UInt64.toNat_inj.mp (unlessZero_inj hgen),
      hid.trans bootstrapDocument_policyId, UInt32.toNat_inj.mp (unlessZero_inj hschema)⟩

/-- What the importer fills in has no line end. -/
theorem oneLine_bootstrapDocument : OneLine (bootstrapDocument L d) := by
  have hapi : '\n' ∉ lit "bytetaper.io/v1alpha1" := by decide +kernel
  have hkind : '\n' ∉ lit "RuntimePolicy" := by decide +kernel
  exact ⟨hapi, hkind, newline_notMem_formatHex _⟩

/-- The importer changes the head of the text only. -/
theorem emit_eq_bootstrapYaml_iff : L.emitPolicyIrCanonicalYaml d = bootstrapYaml L d ↔
    printFields (headFields d) = printFields (headFields (bootstrapDocument L d)) := by
  have hid : L.computePolicyDocumentIdentity (bootstrapDocument L d) =
      L.computePolicyDocumentIdentity d := L.computePolicyDocumentIdentity_congr rfl rfl rfl
  obtain ⟨tail, htail, htail'⟩ : ∃ tail,
      L.printCanonicalPolicyIr (L.normalizePolicyIr d) = printFields (headFields d) ++ tail ∧
      L.printCanonicalPolicyIr (L.normalizePolicyIr (bootstrapDocument L d)) =
        printFields (headFields (bootstrapDocument L d)) ++ tail := by
    simp only [printFields_headFields, PolicyLanguage.printCanonicalPolicyIr, append_assoc]
    exact ⟨_, rfl, rfl⟩
  rw [bootstrapYaml, PolicyLanguage.emitPolicyIrCanonicalYaml, PolicyLanguage.emitPolicyIrCanonicalYaml,
    htail, htail', L.computePolicyDocumentIdentity_normalize, L.computePolicyDocumentIdentity_normalize,
    hid, append_cancel_left_eq, append_cancel_right_eq]

/-- No drift is found in the policy, and drift in every policy of another identity. -/
def TellsDrift (L : PolicyCompiler ρ) (d : TqPolicyDocument ρ) (pointer : ActivePolicyPointer) : Prop :=
  checkBootstrapDrift L (.ok d) pointer = .unknown ∧
    ∀ other, L.computePolicyDocumentIdentity other ≠ L.computePolicyDocumentIdentity d →
      checkBootstrapDrift L (.ok other) pointer = .bootstrapDriftDetected

theorem tellsDrift_iff (committedAt : UInt64) :
    TellsDrift L d (storedPointer key (bootstrapPointer L key d committedAt)) ↔
      L.importerSha256Hex (L.emitPolicyIrCanonicalYaml d) =
        L.importerSha256Hex (bootstrapYaml L d) := by
  simp only [TellsDrift, checkBootstrapDrift, storedPointer, bootstrapPointer,
    stripSha256Prefix_importerSha256Of, bootstrapDocument_policyId]
  constructor
  · rintro ⟨hsame, -⟩
    by_contra hhash
    rw [if_pos (.inr hhash)] at hsame
    cases hsame
  · intro hhash
    exact ⟨if_neg (by simp [hhash]), fun other hother => if_pos (.inl hother)⟩

/-- After an import into an empty store, the drift check finds no drift in the unchanged file, and drift in
    every file with a policy of another identity, if the file has the metadata that the importer fills in.
    Without it the check fails, unless a field has a line end or the hash of the YAML collides. -/
theorem bootstrap_drift_iff (hconfigured : input.configured = true)
    (hdocument : input.document = .ok d) :
    ∃ pointer, ((importBootstrapPolicy L input : StoreProgram key).exec soundDisk fun _ => none).2
        (makeActiveKey key) = some (serializeActivePointer pointer) ∧
      pointer = storedPointer key (bootstrapPointer L key d input.committedAt) ∧
      (HasImportMetadata L d → TellsDrift L d pointer) ∧
      (OneLine d →
        (L.importerSha256Hex (L.emitPolicyIrCanonicalYaml d) =
            L.importerSha256Hex (bootstrapYaml L d) →
          L.emitPolicyIrCanonicalYaml d = bootstrapYaml L d) →
        TellsDrift L d pointer → HasImportMetadata L d) := by
  refine ⟨_, import_pointer hconfigured hdocument, rfl, fun hfilled => ?_,
    fun hline hcollision htells => ?_⟩
  · have hsame := congrArg printFields (hasImportMetadata_iff.mp hfilled)
    exact (tellsDrift_iff _).mpr (congrArg _ (emit_eq_bootstrapYaml_iff.mpr hsame))
  · have hsame := hcollision ((tellsDrift_iff _).mp htells)
    exact hasImportMetadata_iff.mpr (headFields_inj hline oneLine_bootstrapDocument
      (emit_eq_bootstrapYaml_iff.mp hsame))

end Import

/-! ## A file without metadata -/

/-- A language of documents without routes, with texts as their own hashes. -/
def bareCompiler : PolicyCompiler Empty :=
  { plainCompiler with importerSha256Hex := id }

/-- A file with the metadata that the importer fills in. -/
def filledFile : TqPolicyDocument Empty := bootstrapDocument bareCompiler {}

theorem filled_file_no_drift :
    ∃ pointer, checkBootstrapDrift bareCompiler (.ok filledFile) pointer = .unknown ∧
      ((importBootstrapPolicy bareCompiler { document := .ok filledFile } :
        StoreProgram .defaultRuntime).exec soundDisk fun _ => none).2 (makeActiveKey .defaultRuntime) =
          some (serializeActivePointer pointer) := by
  obtain ⟨pointer, hptr, -, htells, -⟩ :=
    @bootstrap_drift_iff Empty bareCompiler .defaultRuntime filledFile { document := .ok filledFile }
      rfl rfl
  exact ⟨pointer, (htells ⟨rfl, rfl, rfl, rfl, rfl⟩).1, hptr⟩

/-- A file that has no metadata differs from the pointer that its own import has just written. -/
theorem bare_file_drifts :
    ∃ pointer, ((importBootstrapPolicy bareCompiler { document := .ok {} } :
        StoreProgram .defaultRuntime).exec soundDisk fun _ => none).2 (makeActiveKey .defaultRuntime) =
          some (serializeActivePointer pointer) ∧
      checkBootstrapDrift bareCompiler (.ok {}) pointer = .bootstrapDriftDetected := by
  refine ⟨_, import_pointer rfl rfl, ?_⟩
  decide +kernel

end ByteTaper.ControlPlane
