import ByteTaper.Library.Text
import Mathlib.Algebra.Group.Nat.Defs

/-! # Policy documents

The policy documents of `policy_ir.h`, with `normalize_policy_ir`, the document identity and the
canonical YAML. What is done route by route stays a parameter, `RouteLanguage`, and so does the
hash; reading YAML is left to the YAML library. -/

namespace ByteTaper.TaperQuery

open List

/-! ## Documents -/

structure TqPolicyVersionInfo where
  sourceSchemaVersion : Text := []
  policyIrVersion : Text := []
  identityVersion : Text := []

structure TqPolicyDocument (ρ : Type) where
  version : TqPolicyVersionInfo := {}
  schemaVersion : Text := []
  documentId : Text := []
  sourceName : Text := []
  expectedBaseSha : Text := []
  routes : List ρ := []
  apiVersion : Text := []
  kind : Text := []
  generation : UInt64 := 0
  policyId : Text := []
  schemaVersionNum : UInt32 := 0

/-- What is done for each route: `normalize_route_policy_ir`, `compute_route_policy_identity_impl`
    and the lines of the canonical YAML. -/
structure RouteLanguage (ρ : Type) where
  normalizeRoute : ρ → ρ
  routeIdentity : ρ → Text
  printRoute : ρ → Text
  normalizeRoute_idem : ∀ route, normalizeRoute (normalizeRoute route) = normalizeRoute route

/-- The functions on documents that the control plane relies on: the hash behind identities, the
    hash of canonical YAML, and the reader of YAML. -/
structure PolicyLanguage (ρ : Type) extends RouteLanguage ρ where
  siphash : Text → UInt64
  sha256Hex : Text → Text
  loadYaml : Text → Except Text (TqPolicyDocument ρ)

/-! ## Normal form -/

def kCurrentPolicyIrVersion : Text := lit "tq-ir/v1"

def kCurrentPolicyIdentityVersion : Text := lit "policy-identity/v2"

/-- `str.rfind(part) != npos` -/
def occursIn (part str : Text) : Bool := str.tails.any part.isPrefixOf

def orElse (value other : Text) : Text := if value = [] then other else value

def resolvedSchema {ρ : Type} (d : TqPolicyDocument ρ) : Text :=
  if d.version.sourceSchemaVersion ≠ [] then d.version.sourceSchemaVersion
  else if d.schemaVersion ≠ [] then d.schemaVersion
  else if occursIn (lit ".yaml") d.sourceName || occursIn (lit ".yml") d.sourceName then
    lit "yaml/v1"
  else lit "tq/v1"

namespace RouteLanguage

variable {ρ : Type} (L : RouteLanguage ρ)

def normalizePolicyIr (d : TqPolicyDocument ρ) : TqPolicyDocument ρ :=
  { d with
    version := {
      sourceSchemaVersion := resolvedSchema d
      policyIrVersion := orElse d.version.policyIrVersion kCurrentPolicyIrVersion
      identityVersion := orElse d.version.identityVersion kCurrentPolicyIdentityVersion }
    schemaVersion := resolvedSchema d
    routes := d.routes.map L.normalizeRoute }

theorem resolvedSchema_ne_nil (d : TqPolicyDocument ρ) : resolvedSchema d ≠ [] := by
  unfold resolvedSchema
  split
  next h => exact h
  split
  next h => exact h
  next => split <;> simp [lit]

theorem orElse_idem {value other : Text} (h : other ≠ []) :
    orElse (orElse value other) other = orElse value other := by
  unfold orElse
  split_ifs <;> simp_all

/-- Normalizing twice is normalizing once. -/
theorem normalizePolicyIr_idem (d : TqPolicyDocument ρ) :
    L.normalizePolicyIr (L.normalizePolicyIr d) = L.normalizePolicyIr d := by
  have hschema : resolvedSchema (L.normalizePolicyIr d) = resolvedSchema d := by
    have hne := resolvedSchema_ne_nil d
    rw [resolvedSchema, if_pos (by simpa [normalizePolicyIr] using hne)]
    rfl
  have hrts : d.routes.map (L.normalizeRoute ∘ L.normalizeRoute) = d.routes.map L.normalizeRoute :=
    map_congr_left fun route _ => L.normalizeRoute_idem route
  conv_lhs => rw [normalizePolicyIr, hschema]
  simp [normalizePolicyIr, hrts, orElse_idem (show kCurrentPolicyIrVersion ≠ [] by decide +kernel),
    orElse_idem (show kCurrentPolicyIdentityVersion ≠ [] by decide +kernel)]

end RouteLanguage

/-! ## Identity -/

def feedString (label value : Text) : Text := label ++ ':' :: value ++ ['|']

/-- `%016llx` -/
def formatHex (hash : UInt64) : Text :=
  (List.range 16).map fun i => Nat.digitChar (hash.toNat / 16 ^ (15 - i) % 16)

theorem notMem_formatHex {c : Char} (hdigit : ∀ n < 16, Nat.digitChar n ≠ c) (hash : UInt64) :
    c ∉ formatHex hash := by
  intro h
  obtain ⟨i, -, hi⟩ := mem_map.mp h
  exact hdigit _ (Nat.mod_lt _ (by decide)) hi

theorem newline_notMem_formatHex (hash : UInt64) : '\n' ∉ formatHex hash :=
  notMem_formatHex (by decide) hash

@[simp] theorem length_formatHex (hash : UInt64) : (formatHex hash).length = 16 := by
  simp [formatHex]

theorem formatHex_inj {hash hash' : UInt64} (h : formatHex hash = formatHex hash') :
    hash = hash' := by
  have hdigit : ∀ m < 16, ∀ n < 16, Nat.digitChar m = Nat.digitChar n → m = n := by decide
  have hdigs : ∀ k < 16, hash.toNat / 16 ^ k % 16 = hash'.toNat / 16 ^ k % 16 := by
    intro k hk
    have hchar := map_inj_left.mp h (15 - k) (by simp; omega)
    rw [show 15 - (15 - k) = k by omega] at hchar
    exact hdigit _ (Nat.mod_lt _ (by decide)) _ (Nat.mod_lt _ (by decide)) hchar
  -- The numbers agree in their last digits, one more with every step.
  have hmod : ∀ k ≤ 16, hash.toNat % 16 ^ k = hash'.toNat % 16 ^ k := by
    intro k
    induction k with
    | zero => simp [Nat.mod_one]
    | succ k ih =>
      intro hk
      rw [Nat.mod_pow_succ, Nat.mod_pow_succ, ih (by omega), hdigs k (by omega)]
  have hbound : ∀ x : UInt64, x.toNat < 16 ^ 16 := fun x => x.toNat_lt
  have hsame := hmod 16 (Nat.le_refl 16)
  rw [Nat.mod_eq_of_lt (hbound hash), Nat.mod_eq_of_lt (hbound hash')] at hsame
  exact UInt64.toNat_inj.mp hsame

namespace PolicyLanguage

variable {ρ : Type} (L : PolicyLanguage ρ)

def routeFeeds (routes : List ρ) : Text :=
  routes.zipIdx.flatMap fun (route, i) =>
    feedString (lit "route." ++ Nat.toDigits 10 i) (L.routeIdentity route)

variable (d : TqPolicyDocument ρ)

/-- `compute_policy_document_identity_impl` -/
def documentIdentityImpl : Text :=
  formatHex (L.siphash
    (feedString (lit "policy_ir_version") d.version.policyIrVersion ++
      feedString (lit "identity_version") d.version.identityVersion ++
      feedString (lit "document_id") d.documentId ++
      feedString (lit "routes.count") (Nat.toDigits 10 (d.routes.length % 2 ^ 32)) ++
      L.routeFeeds d.routes))

def computePolicyDocumentIdentity : Text :=
  L.documentIdentityImpl (L.normalizePolicyIr d)

theorem computePolicyDocumentIdentity_normalize (d : TqPolicyDocument ρ) :
    L.computePolicyDocumentIdentity (L.normalizePolicyIr d) =
      L.computePolicyDocumentIdentity d := by
  rw [computePolicyDocumentIdentity, L.normalizePolicyIr_idem]
  rfl

/-- The identity reads the versions, the document id and the routes only. -/
theorem computePolicyDocumentIdentity_congr {d d'}
    (hver : d.version = d'.version) (hid : d.documentId = d'.documentId)
    (hrts : d.routes = d'.routes) :
    L.computePolicyDocumentIdentity d = L.computePolicyDocumentIdentity d' := by
  simp [computePolicyDocumentIdentity, documentIdentityImpl, RouteLanguage.normalizePolicyIr,
    hver, hid, hrts]

/-! ## Canonical YAML -/

def line (label value : Text) : Text := label ++ value ++ ['\n']

def lineUnless (absent : Bool) (label value : Text) : Text :=
  if absent then [] else line label value

def printMetadata : Text :=
  if 0 < d.generation ∨ d.policyId ≠ [] ∨ 0 < d.schemaVersionNum then
    lit "metadata:\n" ++
      lineUnless (d.generation = 0) (lit "  generation: ") (Nat.toDigits 10 d.generation.toNat) ++
      lineUnless (d.policyId = []) (lit "  policyId: ") d.policyId ++
      lineUnless (d.schemaVersionNum = 0) (lit "  schemaVersion: ")
        (Nat.toDigits 10 d.schemaVersionNum.toNat)
  else []

/-- `print_canonical_policy_ir` -/
def printCanonicalPolicyIr : Text :=
  lineUnless (d.apiVersion = []) (lit "apiVersion: ") d.apiVersion ++
    lineUnless (d.kind = []) (lit "kind: ") d.kind ++
    printMetadata d ++
    lineUnless (d.version.sourceSchemaVersion = []) (lit "source_schema_version: ")
      d.version.sourceSchemaVersion ++
    lineUnless (d.version.policyIrVersion = []) (lit "policy_ir_version: ")
      d.version.policyIrVersion ++
    lineUnless (d.version.identityVersion = []) (lit "identity_version: ")
      d.version.identityVersion ++
    lineUnless (d.documentId = []) (lit "document_id: ") d.documentId ++
    lineUnless (d.sourceName = []) (lit "source_name: ") d.sourceName ++
    lineUnless (d.expectedBaseSha = []) (lit "expected_base_sha: ") d.expectedBaseSha ++
    (if d.routes = [] then [] else lit "routes:\n") ++ d.routes.flatMap L.printRoute

def identityComment (identity : Text) : Text := line (lit "# policy_identity: ") identity

/-- `emit_policy_ir_canonical_yaml`, with its default options. -/
def emitPolicyIrCanonicalYaml : Text :=
  lit "# Generated by ByteTaper TaperQuery Emitter. Do not edit manually.\n" ++
    identityComment (L.computePolicyDocumentIdentity (L.normalizePolicyIr d)) ++
    L.printCanonicalPolicyIr (L.normalizePolicyIr d)

/-- `emit_and_reparse_canonical_policy_yaml`: the canonical YAML and what it is read as. -/
def emitAndReparse : Except Text (Text × TqPolicyDocument ρ) :=
  let yaml := L.emitPolicyIrCanonicalYaml (L.normalizePolicyIr d)
  match L.loadYaml yaml with
  | .error e => .error (lit "canonical YAML re-parse failed: " ++ e)
  | .ok parsed => .ok (yaml, L.normalizePolicyIr parsed)

/-- Equal canonical YAML comes from documents of one identity: it is in the second line. -/
theorem identity_eq_of_emit_eq {d d'}
    (h : L.emitPolicyIrCanonicalYaml d = L.emitPolicyIrCanonicalYaml d') :
    L.computePolicyDocumentIdentity d = L.computePolicyDocumentIdentity d' := by
  simp only [emitPolicyIrCanonicalYaml, identityComment, line, append_assoc,
    append_cancel_left_eq, singleton_append,
    computePolicyDocumentIdentity_normalize] at h
  exact (Text.append_sep_inj (newline_notMem_formatHex _) (newline_notMem_formatHex _) h).1

end PolicyLanguage

end ByteTaper.TaperQuery
