import ByteTaper.ControlPlane.PolicyOperations
import ByteTaper.ControlPlane.RecordRoundTrip

/-! # What calls of the policy state store keep

The invariant of the policy state of one resource: the active pointer refers to a version of its
generation, and the policy id of a version is determined by its YAML. Versions and their YAML stay
as they are. `historyContract` collects this together with what a written pointer has to say about
the one it replaces, and the lemmas say under which conditions each call keeps it: the records that
are written can be read back, and no version goes to the slot of another generation. -/

namespace ByteTaper.ControlPlane

open List Disk Db
open TaperQuery (TqPolicyDocument)

/-! ## Keys of one resource -/

section Keys

variable {key : PolicyResourceKey} (id : Text) (g : UInt64)

theorem lit_active : lit "/active" = '/' :: 'a' :: 'c' :: lit "tive" := by simp [lit]

theorem lit_audit : lit "/audit/" = '/' :: 'a' :: 'u' :: lit "dit/" := by simp [lit]

theorem lit_versions : lit "/versions/" = '/' :: 'v' :: 'e' :: lit "rsions/" := by simp [lit]

theorem lit_jobs : lit "/jobs/" = '/' :: 'j' :: 'o' :: lit "bs/" := by simp [lit]

theorem active_ne_version : makeActiveKey key ≠ makeVersionKey key g := by
  simp [makeActiveKey, makeVersionKey, lit_active, lit_versions]

theorem active_ne_yaml : makeActiveKey key ≠ makeYamlKey key g := by
  simp [makeActiveKey, makeYamlKey, makeVersionKey, lit_active, lit_versions]

theorem audit_ne_active : makeAuditKey key id ≠ makeActiveKey key := by
  simp [makeActiveKey, makeAuditKey, lit_active, lit_audit]

theorem audit_ne_version : makeAuditKey key id ≠ makeVersionKey key g := by
  simp [makeAuditKey, makeVersionKey, lit_audit, lit_versions]

theorem audit_ne_yaml : makeAuditKey key id ≠ makeYamlKey key g := by
  simp [makeAuditKey, makeYamlKey, makeVersionKey, lit_audit, lit_versions]

theorem job_ne_active : makeJobKey key id ≠ makeActiveKey key := by
  simp [makeActiveKey, makeJobKey, lit_active, lit_jobs]

theorem job_ne_version : makeJobKey key id ≠ makeVersionKey key g := by
  simp [makeJobKey, makeVersionKey, lit_jobs, lit_versions]

theorem job_ne_yaml : makeJobKey key id ≠ makeYamlKey key g := by
  simp [makeJobKey, makeYamlKey, makeVersionKey, lit_jobs, lit_versions]

theorem versionKey_ne_yamlKey (g' : UInt64) : makeVersionKey key g ≠ makeYamlKey key g' := by
  intro h
  simp only [makeYamlKey, makeVersionKey, append_assoc, append_cancel_left_eq] at h
  exact StoreKey.version_ne_yaml g g' h

/-- Two generations share their version key exactly if they share their YAML key. -/
theorem yamlKey_eq_iff {g g' : UInt64} :
    makeYamlKey key g = makeYamlKey key g' ↔ makeVersionKey key g = makeVersionKey key g' := by
  simp [makeYamlKey]

end Keys

/-! ## What is stored -/

section

variable {ρ : Type} (L : PolicyCompiler ρ) (key : PolicyResourceKey) (db : Db)
  (version : PolicyVersionRecord)

/-- The version record and the YAML stored under the keys of a generation. -/
def VersionAt (generation : UInt64) (v : PolicyVersionRecord) (yaml : Text) : Prop :=
  ∃ bytes, db (makeVersionKey key generation) = some bytes ∧
    deserializeVersionRecord bytes = .ok v ∧ db (makeYamlKey key generation) = some yaml

def ActiveAt (p : ActivePolicyPointer) : Prop :=
  ∃ bytes, db (makeActiveKey key) = some bytes ∧ deserializeActivePointer bytes = .ok p

/-- The version record carries what a pointer says about it. -/
structure Describes (p : ActivePolicyPointer) (v : PolicyVersionRecord) : Prop where
  generation : v.generation = p.generation
  policyId : v.policyId = p.policyId
  canonicalHash : v.canonicalHash = p.canonicalHash

/-- Where the policy id of a version comes from: the importer takes that of its document, all other
    operations that of the stored YAML as it is read. -/
def PolicyIdOf (generation : UInt64) (yaml policyId : Text) : Prop :=
  if generation = 1 then
    ∃ d, yaml = bootstrapYaml L d ∧ policyId = (bootstrapDocument L d).policyId
  else ∃ loaded, L.loadYaml yaml = .ok loaded ∧ policyId = L.computePolicyDocumentIdentity loaded

theorem bootstrap_identity (d : TqPolicyDocument ρ) :
    L.computePolicyDocumentIdentity (bootstrapDocument L d) = (bootstrapDocument L d).policyId :=
  L.computePolicyDocumentIdentity_congr rfl rfl rfl

/-- The YAML of a version determines its policy id. -/
theorem PolicyIdOf.unique {L : PolicyCompiler ρ} {generation : UInt64} {yaml id id' : Text}
    (h : PolicyIdOf L generation yaml id) (h' : PolicyIdOf L generation yaml id') : id = id' := by
  unfold PolicyIdOf at h h'
  split at h
  next hone =>
    rw [if_pos hone] at h'
    obtain ⟨d, hyaml, rfl⟩ := h
    obtain ⟨d', hyaml', rfl⟩ := h'
    rw [← bootstrap_identity, ← bootstrap_identity]
    exact L.identity_eq_of_emit_eq (hyaml.symm.trans hyaml')
  next hone =>
    rw [if_neg hone] at h'
    obtain ⟨loaded, hload, rfl⟩ := h
    obtain ⟨loaded', hload', rfl⟩ := h'
    rw [hload] at hload'
    rw [Except.ok.inj hload']

structure StoreInv : Prop where
  versions : ∀ g bytes, db (makeVersionKey key g) = some bytes →
    ∃ v yaml, VersionAt key db g v yaml ∧ v.resourceKey = key.toText ∧
      PolicyIdOf L v.generation yaml v.policyId
  yamls : ∀ g, db (makeVersionKey key g) = none → db (makeYamlKey key g) = none
  active : ∀ bytes, db (makeActiveKey key) = some bytes →
    ∃ p v yaml, ActiveAt key db p ∧ p.resourceKey = key.toText ∧
      VersionAt key db p.generation v yaml ∧ v.resourceKey = key.toText ∧ Describes p v

/-- Versions and their YAML stay. -/
structure StoreGrows (db' : Db) : Prop where
  versions : ∀ g bytes, db (makeVersionKey key g) = some bytes →
    db' (makeVersionKey key g) = some bytes
  yamls : ∀ g yaml, db (makeYamlKey key g) = some yaml → db' (makeYamlKey key g) = some yaml

/-- The version record can be read back as it is stored. -/
def VersionReadable : Prop :=
  deserializeVersionRecord (serializeVersionRecord (storedVersion key version)) =
    .ok (storedVersion key version)

def PointerReadable (next : ActivePolicyPointer) : Prop :=
  deserializeActivePointer (serializeActivePointer (storedPointer key next)) =
    .ok (storedPointer key next)

/-- The slot of the version does not hold a record of another generation. -/
def SlotFits : Prop :=
  match (db (makeVersionKey key version.generation)).map deserializeVersionRecord with
  | some (.ok v) => v.generation = version.generation
  | _ => True

/-- The condition on a call: what it would write can be read back, and the slot fits. -/
def Writable : StoreCall → Prop
  | .storePolicyVersion version _ => VersionReadable key version ∧ SlotFits key db version
  | .compareAndPromoteActive _ next => PointerReadable key next
  | .commitPolicyGenerationWithAudit version _ _ next _ =>
    VersionReadable key version ∧ SlotFits key db version ∧ PointerReadable key next
  | _ => True

instance : Decidable (SlotFits key db version) := by
  unfold SlotFits
  split <;> infer_instance

instance decidableWritable (c : StoreCall) : Decidable (Writable key db c) :=
  match c with
  | .storePolicyVersion _ _ => inferInstanceAs (Decidable (_ = _ ∧ SlotFits _ _ _))
  | .compareAndPromoteActive _ _ => inferInstanceAs (Decidable (_ = _))
  | .commitPolicyGenerationWithAudit _ _ _ _ _ =>
    inferInstanceAs (Decidable (_ = _ ∧ SlotFits _ _ _ ∧ _ = _))
  | .loadPolicyVersion _ | .loadActivePointer | .appendAuditRecord _ | .storePolicyUpdateJob _ =>
    .isTrue trivial

/-- Every pointer that the call writes is ahead of the one it replaces and names it. -/
def PointerAdvances (c : StoreCall) (disk : Disk) : Prop :=
  ∀ bytes, (makeActiveKey key, bytes) ∈ (c.result key disk db).2 →
    ∃ next, deserializeActivePointer bytes = .ok next ∧ ∀ current, ActiveAt key db current →
      current.generation < next.generation ∧ next.previousGeneration = current.generation ∧
        next.previousPolicyId = current.policyId

def historyContract : Shared.Contract (policyStateStore key) where
  inv := StoreInv L key
  grows := StoreGrows key
  guard := Writable key
  effect := PointerAdvances key
  refl _ := ⟨fun _ _ h => h, fun _ _ h => h⟩
  trans h h' := ⟨fun g b hb => h'.versions g b (h.versions g b hb),
    fun g y hy => h'.yamls g y (h.yamls g y hy)⟩

instance (c : (policyStateStore key).Call) :
    Decidable ((historyContract L key).guard db c) :=
  decidableWritable key db c

end

/-! ## What writes keep -/

section Writes

variable {ρ : Type} {L : PolicyCompiler ρ} {key : PolicyResourceKey} {db : Db}

@[simp] theorem Db.write_nil (db : Db) : db.write [] = db := rfl

theorem Db.write_append (db : Db) (xs ys : Batch) : db.write (xs ++ ys) = (db.write xs).write ys :=
  foldl_append

theorem Db.put_eq (db : Db) (k v : Text) : db.put k v k = some v := if_pos rfl

theorem Db.put_ne {k k' : Text} (h : k' ≠ k) (db : Db) (v : Text) : db.put k v k' = db k' :=
  if_neg h

variable {v : PolicyVersionRecord} {yaml : Text}

theorem VersionAt.mono {db db' : Db} (h : StoreGrows key db db') {g : UInt64}
    (hv : VersionAt key db g v yaml) : VersionAt key db' g v yaml := by
  obtain ⟨bytes, hbytes, hread, hyaml⟩ := hv
  exact ⟨bytes, h.versions g bytes hbytes, hread, h.yamls g yaml hyaml⟩

/-- A key that is none of those of versions, their YAML and the active pointer. -/
structure Aside (key : PolicyResourceKey) (k : Text) : Prop where
  version : ∀ g, makeVersionKey key g ≠ k
  yaml : ∀ g, makeYamlKey key g ≠ k
  active : makeActiveKey key ≠ k

theorem audit_aside (id : Text) : Aside key (makeAuditKey key id) :=
  ⟨fun g => (audit_ne_version id g).symm, fun g => (audit_ne_yaml id g).symm,
    (audit_ne_active id).symm⟩

theorem job_aside (id : Text) : Aside key (makeJobKey key id) :=
  ⟨fun g => (job_ne_version id g).symm, fun g => (job_ne_yaml id g).symm, (job_ne_active id).symm⟩

theorem StoreInv.put_aside (h : StoreInv L key db) {k : Text} (hk : Aside key k) (value : Text) :
    StoreInv L key (db.put k value) ∧ StoreGrows key db (db.put k value) := by
  have hver : ∀ g, db.put k value (makeVersionKey key g) = db (makeVersionKey key g) :=
    fun g => put_ne (hk.version g) db value
  have hyaml : ∀ g, db.put k value (makeYamlKey key g) = db (makeYamlKey key g) :=
    fun g => put_ne (hk.yaml g) db value
  have hact : db.put k value (makeActiveKey key) = db (makeActiveKey key) :=
    put_ne hk.active db value
  refine ⟨⟨?_, ?_, ?_⟩, ⟨?_, ?_⟩⟩
  · simpa only [VersionAt, hver, hyaml] using h.versions
  · simpa only [hver, hyaml] using h.yamls
  · simpa only [VersionAt, ActiveAt, hver, hyaml, hact] using h.active
  · exact fun g bytes hb => (hver g).trans hb
  · exact fun g yaml hy => (hyaml g).trans hy

theorem write_versionBatch (db : Db) (version : PolicyVersionRecord) (yaml : Text) (k : Text) :
    db.write (versionBatch key version yaml) k =
      if k = makeYamlKey key version.generation then some yaml
      else if k = makeVersionKey key version.generation then
        some (serializeVersionRecord (storedVersion key version))
      else db k := rfl

/-- A version that is written to a free slot. -/
theorem StoreInv.write_version (h : StoreInv L key db) {version}
    (hfree : db (makeVersionKey key version.generation) = none)
    (hread : VersionReadable key version)
    (hid : PolicyIdOf L version.generation yaml version.policyId) :
    StoreInv L key (db.write (versionBatch key version yaml)) ∧
      StoreGrows key db (db.write (versionBatch key version yaml)) ∧
      VersionAt key (db.write (versionBatch key version yaml)) version.generation
        (storedVersion key version) yaml := by
  have hyamlFree := h.yamls _ hfree
  have hwrite := @write_versionBatch key db version yaml
  generalize db.write (versionBatch key version yaml) = db' at hwrite ⊢
  have hact : db' (makeActiveKey key) = db (makeActiveKey key) := by
    rw [hwrite, if_neg (active_ne_yaml _), if_neg (active_ne_version _)]
  have hver : ∀ g, db' (makeVersionKey key g) =
      if makeVersionKey key g = makeVersionKey key version.generation then
        some (serializeVersionRecord (storedVersion key version))
      else db (makeVersionKey key g) := by
    intro g
    rw [hwrite, if_neg (versionKey_ne_yamlKey _ _)]
  have hyaml : ∀ g, db' (makeYamlKey key g) =
      if makeVersionKey key g = makeVersionKey key version.generation then some yaml
      else db (makeYamlKey key g) := by
    intro g
    simp [hwrite, yamlKey_eq_iff, (versionKey_ne_yamlKey _ _).symm]
  have hgrows : StoreGrows key db db' := by
    constructor
    · intro g bytes hb
      rw [hver, if_neg, hb]
      intro heq
      rw [heq, hfree] at hb
      cases hb
    · intro g y hy
      rw [hyaml, if_neg, hy]
      intro heq
      rw [yamlKey_eq_iff.mpr heq, hyamlFree] at hy
      cases hy
  have hnew : ∀ g, makeVersionKey key g = makeVersionKey key version.generation →
      VersionAt key db' g (storedVersion key version) yaml := by
    intro g hg
    exact ⟨_, by rw [hver, if_pos hg], hread, by rw [hyaml, if_pos hg]⟩
  refine ⟨⟨?_, ?_, ?_⟩, hgrows, hnew _ rfl⟩
  · intro g bytes hb
    rw [hver] at hb
    split at hb
    next hg => exact ⟨_, yaml, hnew g hg, rfl, hid⟩
    next =>
      obtain ⟨v, y, hv, hkey, hvid⟩ := h.versions g bytes hb
      exact ⟨v, y, hv.mono hgrows, hkey, hvid⟩
  · intro g hg
    rw [hver] at hg
    split at hg
    next => cases hg
    next hne => rw [hyaml, if_neg hne, h.yamls g hg]
  · intro bytes hb
    obtain ⟨p, v, y, ⟨bytes', hbytes, hp⟩, hkey, hv, hvkey, hdesc⟩ :=
      h.active bytes (hact ▸ hb)
    exact ⟨p, v, y, ⟨bytes', hact.trans hbytes, hp⟩, hkey, hv.mono hgrows, hvkey, hdesc⟩

/-- A pointer that is written when its version is there. -/
theorem StoreInv.put_pointer (h : StoreInv L key db) {next}
    (hread : PointerReadable key next) (hv : VersionAt key db next.generation v yaml)
    (hkey : v.resourceKey = key.toText) (hdesc : Describes next v) :
    StoreInv L key (db.write [activeEntry key next]) ∧
      StoreGrows key db (db.write [activeEntry key next]) := by
  have hput : db.write [activeEntry key next] =
      db.put (makeActiveKey key) (serializeActivePointer (storedPointer key next)) := rfl
  have hver : ∀ g, db.write [activeEntry key next] (makeVersionKey key g) =
      db (makeVersionKey key g) := fun g => put_ne (active_ne_version g).symm db _
  have hyaml : ∀ g, db.write [activeEntry key next] (makeYamlKey key g) =
      db (makeYamlKey key g) := fun g => put_ne (active_ne_yaml g).symm db _
  have hgrows : StoreGrows key db (db.write [activeEntry key next]) :=
    ⟨fun g bytes hb => (hver g).trans hb, fun g y hy => (hyaml g).trans hy⟩
  refine ⟨⟨?_, ?_, ?_⟩, hgrows⟩
  · simpa only [VersionAt, hver, hyaml] using h.versions
  · simpa only [hver, hyaml] using h.yamls
  · intro bytes _
    exact ⟨storedPointer key next, v, yaml, ⟨_, hput ▸ put_eq db _ _, hread⟩, rfl,
      hv.mono hgrows, hkey, ⟨hdesc.generation, hdesc.policyId, hdesc.canonicalHash⟩⟩

end Writes

/-! ## What calls keep -/

section Calls

variable {ρ : Type} {L : PolicyCompiler ρ} {key : PolicyResourceKey} {db : Db} {disk : Disk}

theorem Disk.get_ok {k v : Text} (h : disk.get db k = .ok v) : db k = some v := by
  unfold Disk.get at h
  split at h
  next => cases h
  split at h
  next hv => exact hv.trans (congrArg some (GetStatus.ok.inj h))
  next => cases h

theorem Disk.get_notFound {k : Text} (h : disk.get db k = .notFound) : db k = none := by
  unfold Disk.get at h
  split at h
  next => cases h
  split at h
  next => cases h
  next hv => exact hv

theorem Disk.commit_cases {α : Type} (disk : Disk) (failure : PolicyStateErrorCode) (batch : Batch)
    (result : α) :
    (∃ e, disk.commit failure batch result = refuse failure e) ∨
      disk.commit failure batch result = (some (.ok result), batch) := by
  unfold commit
  split
  next e _ => exact .inl ⟨e, rfl⟩
  next => exact .inr rfl

/-- A call keeps the contract if what it writes does, and the pointers it writes advance. -/
theorem kept_of_batch {c : StoreCall} {batch : Batch} (hbatch : (c.result key disk db).2 = batch)
    (hkept : StoreInv L key (db.write batch) ∧ StoreGrows key db (db.write batch))
    (hptr : ∀ bytes, (makeActiveKey key, bytes) ∈ batch →
      ∃ next, deserializeActivePointer bytes = .ok next ∧ ∀ current, ActiveAt key db current →
        current.generation < next.generation ∧ next.previousGeneration = current.generation ∧
          next.previousPolicyId = current.policyId) :
    (historyContract L key).Kept db c disk := by
  subst hbatch
  exact ⟨hkept.1, hkept.2, hptr⟩

/-- A call that writes nothing keeps the contract. -/
theorem kept_of_silent (h : StoreInv L key db) {c : StoreCall} (hsilent : (c.result key disk db).2 = []) :
    (historyContract L key).Kept db c disk :=
  kept_of_batch hsilent ⟨h, (historyContract L key).refl db⟩ fun _ hmem => absurd hmem not_mem_nil

/-- Records of audits and jobs are written aside. -/
theorem kept_of_aside (h : StoreInv L key db) {c : StoreCall} {k : Text} (hk : Aside key k)
    (hbatch : (c.result key disk db).2 = [] ∨ ∃ value, (c.result key disk db).2 = [(k, value)]) :
    (historyContract L key).Kept db c disk := by
  rcases hbatch with hbatch | ⟨value, hbatch⟩
  · exact kept_of_silent h hbatch
  refine kept_of_batch hbatch (h.put_aside hk value) fun bytes hmem => ?_
  exact absurd (Prod.mk.inj (mem_singleton.mp hmem)).1 hk.active

/-- The version has been stored, with YAML of its own. -/
def HasVersion (key : PolicyResourceKey) (db : Db) (version : PolicyVersionRecord) : Prop :=
  ∃ v yaml, VersionAt key db version.generation v yaml ∧ v.resourceKey = key.toText ∧
    v.generation = version.generation ∧ v.policyId = version.policyId ∧
    v.canonicalHash = version.canonicalHash

variable {version : PolicyVersionRecord} {yaml : Text} {expected : ExpectedActivePolicy}
  {next : ActivePolicyPointer}

theorem HasVersion.mono {db db' : Db} (h : StoreGrows key db db') (hv : HasVersion key db version) :
    HasVersion key db' version := by
  obtain ⟨v, yaml, hat, hrest⟩ := hv
  exact ⟨v, yaml, hat.mono h, hrest⟩

theorem checkVersion_free (h : checkVersion disk db key version yaml = .free) :
    db (makeVersionKey key version.generation) = none := by
  unfold checkVersion at h
  split at h
  next =>
    split at h
    next => cases h
    next => cases h
    split at h
    next => cases h
    unfold checkVersionYaml at h
    split at h <;> first | cases h | (split at h <;> cases h)
  next hget => exact get_notFound hget
  next => cases h

theorem checkVersion_same (h : checkVersion disk db key version yaml = .same) :
    ∃ v, VersionAt key db version.generation v yaml ∧ v.canonicalHash = version.canonicalHash := by
  unfold checkVersion at h
  split at h
  next bytes hget =>
    split at h
    next => cases h
    next => cases h
    rename_i v hread
    split at h
    next => cases h
    rename_i hhash
    unfold checkVersionYaml at h
    split at h
    next => cases h
    next => cases h
    rename_i y hyaml
    split at h
    next => cases h
    next heq =>
      obtain rfl := not_not.mp heq
      exact ⟨v, ⟨bytes, get_ok hget, hread, get_ok hyaml⟩, not_not.mp hhash⟩
  next => cases h
  next => cases h

theorem active_notMem_versionBatch (version : PolicyVersionRecord) (yaml bytes : Text) :
    (makeActiveKey key, bytes) ∉ versionBatch key version yaml := by
  simp [versionBatch, active_ne_version, active_ne_yaml]

/-- Storing a version writes nothing, and succeeds only if it is there, or fills a free slot. -/
theorem storePolicyVersion_cases (disk : Disk) (db : Db) (key : PolicyResourceKey)
    (version : PolicyVersionRecord) (yaml : Text) :
    (storePolicyVersion disk db key version yaml).2 = [] ∧
        ((storePolicyVersion disk db key version yaml).1 = some (.ok ()) →
          checkVersion disk db key version yaml = .same) ∨
      checkVersion disk db key version yaml = .free ∧ storePolicyVersion disk db key version yaml =
          (some (.ok ()), versionBatch key version yaml) := by
  unfold storePolicyVersion
  split
  next => exact .inl ⟨rfl, by simp [notOpen, refuse]⟩
  cases checkVersion disk db key version yaml with
  | threw => exact .inl ⟨rfl, by simp [threw]⟩
  | refused => exact .inl ⟨rfl, by simp [refuse]⟩
  | same => exact .inl ⟨rfl, fun _ => rfl⟩
  | free =>
    rcases commit_cases disk .dbWriteFailed (versionBatch key version yaml) () with
      ⟨e, he⟩ | he
    · exact .inl ⟨by simp [he, refuse], by simp [he, refuse]⟩
    · exact .inr ⟨rfl, he⟩

/-! ### Pointers -/

/-- What a pointer that replaces the expected one has to say. -/
structure Succeeds (expected : ExpectedActivePolicy) (next : ActivePolicyPointer) : Prop where
  generation : next.generation ≠ 0 → expected.generation < next.generation
  previousGeneration : next.previousGeneration = expected.generation
  previousPolicyId : next.previousPolicyId = expected.policyId

theorem deserializeActivePointer_generation {bytes : Text} {p}
    (h : deserializeActivePointer bytes = .ok p) : p.generation ≠ 0 := by
  have hcompl := (checked_eq_ok.mp h).2
  simp only [Bool.or_eq_false_iff, decide_eq_false_iff_not] at hcompl
  exact hcompl.1.2

/-- A pointer that follows the expected one may be written. -/
theorem pointerAdvances_of_expected (hread : PointerReadable key next)
    (hnext : Succeeds expected next)
    (hexp : checkActive disk db key expected next = .expected) :
    ∃ p, deserializeActivePointer (serializeActivePointer (storedPointer key next)) = .ok p ∧
      ∀ current, ActiveAt key db current →
        current.generation < p.generation ∧ p.previousGeneration = current.generation ∧
          p.previousPolicyId = current.policyId := by
  refine ⟨_, hread, ?_⟩
  intro current ⟨bytes, hbytes, hcur⟩
  -- the pointer that is there is the expected one
  obtain ⟨hgen, hpid⟩ :
      current.generation = expected.generation ∧ current.policyId = expected.policyId := by
    unfold checkActive at hexp
    split at hexp
    next bytes' hget =>
      obtain rfl : bytes = bytes' := Option.some.inj (hbytes.symm.trans (get_ok hget))
      simp only [hcur] at hexp
      split at hexp
      next => cases hexp
      split at hexp
      next => cases hexp
      next hsame => simpa [not_or] using hsame
    next => cases hexp
    next hget =>
      rw [get_notFound hget] at hbytes
      cases hbytes
  refine ⟨?_, hnext.previousGeneration.trans hgen.symm, hnext.previousPolicyId.trans hpid.symm⟩
  have hne : (storedPointer key next).generation ≠ 0 := deserializeActivePointer_generation hread
  exact hgen ▸ hnext.generation hne

/-- A promotion writes nothing, or the pointer in place of the expected one. -/
theorem compareAndPromoteActive_cases (disk : Disk) (db : Db) (key : PolicyResourceKey)
    (expected : ExpectedActivePolicy) (next : ActivePolicyPointer) :
    (compareAndPromoteActive disk db key expected next).2 = [] ∨
      checkActive disk db key expected next = .expected ∧
        compareAndPromoteActive disk db key expected next =
          (some (.ok false), [activeEntry key next]) := by
  unfold compareAndPromoteActive
  split
  next => exact .inl rfl
  cases checkActive disk db key expected next with
  | threw => exact .inl rfl
  | refused => exact .inl rfl
  | idempotent => exact .inl rfl
  | expected =>
    simp only
    split
    next => exact .inl rfl
    cases checkTarget disk db next with
    | error => exact .inl rfl
    | ok =>
      rcases commit_cases disk .dbWriteFailed [activeEntry key next] false with
        ⟨e, he⟩ | he
      · exact .inl (by simp [he, refuse])
      · exact .inr ⟨trivial, he⟩

/-- A pointer is written to a version that has been stored. -/
theorem StoreInv.promote (h : StoreInv L key db) (hread : PointerReadable key next)
    (hver : HasVersion key db version) (hdesc : Describes next version) :
    StoreInv L key (db.write [activeEntry key next]) ∧
      StoreGrows key db (db.write [activeEntry key next]) := by
  obtain ⟨v, yaml, hat, hkey, hgen, hid, hhash⟩ := hver
  rw [hdesc.generation] at hat
  exact h.put_pointer hread hat hkey
    ⟨hgen.trans hdesc.generation, hid.trans hdesc.policyId, hhash.trans hdesc.canonicalHash⟩

theorem compareAndPromoteActive_keeps (h : StoreInv L key db) (hread : PointerReadable key next)
    (hnext : Succeeds expected next) (hver : HasVersion key db version)
    (hdesc : Describes next version) :
    (historyContract L key).Kept db (.compareAndPromoteActive expected next) disk := by
  rcases compareAndPromoteActive_cases disk db key expected next with hsilent | ⟨hexp, hbatch⟩
  · exact kept_of_silent h hsilent
  refine kept_of_batch (congrArg (·.2) hbatch) (h.promote hread hver hdesc) fun bytes hmem => ?_
  obtain rfl : bytes = _ := (Prod.mk.inj (mem_singleton.mp hmem)).2
  exact pointerAdvances_of_expected hread hnext hexp

/-! ### Committing a generation -/

theorem commitOnActive_cases (disk : Disk) (db : Db) (params : CommitParams) (writeVersion : Bool) :
    (commitOnActive disk db params writeVersion).2 = [] ∨
      (commitOnActive disk db params writeVersion).2 =
        [auditEntry params.resourceKey params.audit] ∨
      checkActive disk db params.resourceKey params.expectedActive params.nextPointer = .expected ∧
        (commitOnActive disk db params writeVersion).2 = (if writeVersion then
            versionBatch params.resourceKey params.version params.canonicalYaml else []) ++
            [activeEntry params.resourceKey params.nextPointer,
              auditEntry params.resourceKey params.audit] := by
  have hcmt : ∀ batch, (disk.commit .dbWriteFailed batch ()).2 = [] ∨
      (disk.commit .dbWriteFailed batch ()).2 = batch := by
    intro batch
    rcases commit_cases disk .dbWriteFailed batch () with ⟨e, he⟩ | he <;> simp [he, refuse]
  unfold commitOnActive
  cases hact : checkActive disk db params.resourceKey params.expectedActive params.nextPointer with
  | threw => exact .inl rfl
  | refused e => exact .inl rfl
  | idempotent =>
    rcases hcmt [auditEntry params.resourceKey params.audit] with h | h
    · exact .inl h
    · exact .inr (.inl h)
  | expected =>
    simp only [commitGeneration]
    split
    next => exact .inl rfl
    cases writeVersion with
    | true => exact (hcmt _).imp_right fun h => .inr ⟨trivial, h⟩
    | false =>
      simp only [Bool.false_eq_true, if_false]
      cases checkTarget disk db params.nextPointer with
      | error => exact .inl rfl
      | ok => exact (hcmt _).imp_right fun h => .inr ⟨trivial, h⟩

/-- What a commit writes: nothing, its audit record, or a pointer in place of the expected one with
    a version that fills a free slot or is there. -/
theorem commit_cases (disk : Disk) (db : Db) (params : CommitParams) :
    (commitPolicyGenerationWithAudit disk db params).2 = [] ∨
      (commitPolicyGenerationWithAudit disk db params).2 =
        [auditEntry params.resourceKey params.audit] ∨
      ∃ writeVersion : Bool,
        checkActive disk db params.resourceKey params.expectedActive params.nextPointer =
          .expected ∧
        checkVersion disk db params.resourceKey params.version params.canonicalYaml =
          (if writeVersion then .free else .same) ∧
        (commitPolicyGenerationWithAudit disk db params).2 = (if writeVersion then
            versionBatch params.resourceKey params.version params.canonicalYaml else []) ++
            [activeEntry params.resourceKey params.nextPointer,
              auditEntry params.resourceKey params.audit] := by
  unfold commitPolicyGenerationWithAudit
  split
  next => exact .inl rfl
  split
  next => exact .inl rfl
  cases checkVersion disk db params.resourceKey params.version params.canonicalYaml with
  | threw => exact .inl rfl
  | refused => exact .inl rfl
  | same =>
    rcases commitOnActive_cases disk db params false with h | h | ⟨hact, h⟩
    · exact .inl h
    · exact .inr (.inl h)
    · exact .inr (.inr ⟨false, hact, rfl, h⟩)
  | free =>
    rcases commitOnActive_cases disk db params true with h | h | ⟨hact, h⟩
    · exact .inl h
    · exact .inr (.inl h)
    · exact .inr (.inr ⟨true, hact, rfl, h⟩)

/-! ### The invariant -/

variable (h : StoreInv L key db) (hid : PolicyIdOf L version.generation yaml version.policyId)
include h hid

/-- A version with the same hash and YAML in a slot that fits is the version. -/
theorem hasVersion_of_same
    (hslot : SlotFits key db version) (hsame : checkVersion disk db key version yaml = .same) :
    HasVersion key db version := by
  obtain ⟨v, hat, hhash⟩ := checkVersion_same hsame
  have ⟨bytes, hbytes, hread, hyaml⟩ := hat
  have hgen : v.generation = version.generation := by
    simpa [SlotFits, hbytes, hread] using hslot
  obtain ⟨v', yaml', ⟨bytes', hbytes', hread', hyaml'⟩, hkey, hid'⟩ := h.versions _ _ hbytes
  obtain rfl : bytes = bytes' := Option.some.inj (hbytes.symm.trans hbytes')
  obtain rfl : v = v' := Except.ok.inj (hread.symm.trans hread')
  obtain rfl : yaml = yaml' := Option.some.inj (hyaml.symm.trans hyaml')
  rw [hgen] at hid'
  exact ⟨v, yaml, hat, hkey, hgen, hid'.unique hid, hhash⟩

theorem storePolicyVersion_keeps (hwrite : Writable key db (.storePolicyVersion version yaml))
    (disk : Disk) :
    (historyContract L key).Kept db (.storePolicyVersion version yaml) disk ∧
      ((storePolicyVersion disk db key version yaml).1 = some (.ok ()) →
        HasVersion key (db.write (storePolicyVersion disk db key version yaml).2) version) := by
  obtain ⟨hread, hslot⟩ := hwrite
  rcases storePolicyVersion_cases disk db key version yaml with ⟨hsilent, hsame⟩ | ⟨hfree, hbatch⟩
  · refine ⟨kept_of_silent h hsilent, ?_⟩
    intro hok
    rw [hsilent, write_nil]
    exact hasVersion_of_same h hid hslot (hsame hok)
  · obtain ⟨hinv, hgrows, hat⟩ := h.write_version (checkVersion_free hfree) hread hid
    refine ⟨kept_of_batch (congrArg (·.2) hbatch) ⟨hinv, hgrows⟩ fun bytes hmem => ?_, fun _ => ?_⟩
    · exact absurd hmem (active_notMem_versionBatch version yaml bytes)
    · rw [hbatch]
      exact ⟨_, yaml, hat, rfl, rfl, rfl, rfl⟩

/-- The version part of a commit. -/
theorem commit_version (hread : VersionReadable key version) (hslot : SlotFits key db version)
    {writeVersion : Bool}
    (hcheck : checkVersion disk db key version yaml = if writeVersion then .free else .same) :
    let db' := db.write (if writeVersion then versionBatch key version yaml else [])
    StoreInv L key db' ∧ StoreGrows key db db' ∧ HasVersion key db' version := by
  cases writeVersion with
  | true =>
    obtain ⟨hinv, hgrows, hat⟩ := h.write_version (checkVersion_free hcheck) hread hid
    exact ⟨hinv, hgrows, _, yaml, hat, rfl, rfl, rfl, rfl⟩
  | false =>
    exact ⟨h, (historyContract L key).refl db, hasVersion_of_same h hid hslot hcheck⟩

theorem commit_keeps {audit : PolicyAuditRecord}
    (hwrite : Writable key db (.commitPolicyGenerationWithAudit version yaml expected next audit))
    (hnext : Succeeds expected next) (hdesc : Describes next version) :
    (historyContract L key).Kept db
      (.commitPolicyGenerationWithAudit version yaml expected next audit) disk := by
  obtain ⟨hread, hslot, hptr⟩ := hwrite
  rcases commit_cases disk db ⟨key, version, yaml, expected, next, audit⟩ with
    hsilent | hbatch | ⟨writeVersion, hact, hcheck, hbatch⟩
  · exact kept_of_silent h hsilent
  · exact kept_of_aside h (audit_aside audit.applyId) (.inr ⟨_, hbatch⟩)
  · obtain ⟨hinv, hgrows, hver⟩ := commit_version h hid hread hslot hcheck
    obtain ⟨hinv', hgrows'⟩ := hinv.promote hptr hver hdesc
    obtain ⟨hinv'', hgrows''⟩ := hinv'.put_aside (audit_aside audit.applyId)
      (serializeAuditRecord (storedAudit key audit))
    refine kept_of_batch hbatch ?_ fun bytes hmem => ?_
    · rw [write_append]
      exact ⟨hinv'',
        (historyContract L key).trans ((historyContract L key).trans hgrows hgrows') hgrows''⟩
    · rcases mem_append.mp hmem with hmem | hmem
      · split at hmem
        next => exact absurd hmem (active_notMem_versionBatch version yaml bytes)
        next => cases hmem
      · rcases mem_pair.mp hmem with hmem | hmem
        · obtain rfl : bytes = _ := (Prod.mk.inj hmem).2
          exact pointerAdvances_of_expected hptr hnext hact
        · exact absurd (Prod.mk.inj hmem).1 (audit_ne_active _).symm

end Calls

end ByteTaper.ControlPlane
