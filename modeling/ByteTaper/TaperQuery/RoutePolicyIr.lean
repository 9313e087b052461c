import ByteTaper.TaperQuery.PolicyIr

/-! # The routes of a policy document

`TqRoutePolicy` of `policy_ir.h`, with its normal form and its identity: the functions that
`RouteLanguage` leaves open, but for the printer. -/

namespace ByteTaper.TaperQuery

open List

/-! ## Routes -/

inductive TqRouteMatchKind where
  | prefixMatch | exactMatch
deriving DecidableEq

inductive TqMutationMode where
  | disabled | headersOnly | full
deriving DecidableEq

inductive TqFailureMode where
  | failOpen | failClosed
deriving DecidableEq

inductive TqHttpMethod where
  | any | get | post | put | delete | patch
deriving DecidableEq

inductive TqCacheBehavior where
  | default | bypass | store
deriving DecidableEq

inductive TqCoalescingMode where
  | cacheAssisted
deriving DecidableEq

inductive TqCompressionAlgorithm where
  | none | gzip | brotli | zstd
deriving DecidableEq

inductive TqAlreadyEncodedBehavior where
  | skip | passthrough
deriving DecidableEq

inductive TqFieldFilterMode where
  | none | allowlist | denylist
deriving DecidableEq

inductive TqPaginationMode where
  | none | limitOffset | cursor
deriving DecidableEq

inductive TqCacheInvalidationStrategy where
  | routeEpoch | exactKey | keyPrefix
deriving DecidableEq

@[ext]
structure TqFieldFilterPolicy where
  mode : TqFieldFilterMode := .none
  fields : List Text := []
deriving DecidableEq

structure TqFieldVariantCachePolicy where
  enabled : Bool := false
  maxVariantsPerRoute : UInt32 := 8
  minFieldCount : UInt32 := 1
  maxFieldCount : UInt32 := 8
  admissionThreshold : UInt32 := 2
  ttlMaxMs : UInt32 := 0
deriving DecidableEq

structure TqCacheL1Policy where
  enabled : Bool := false
  capacityEntries : UInt32 := 0
deriving DecidableEq

structure TqCacheL2Policy where
  enabled : Bool := false
  path : Text := []
deriving DecidableEq

structure TqCacheVaryHeaderPolicy where
  names : List Text := []
deriving DecidableEq

structure TqPrivateCachePolicy where
  enabled : Bool := false
  authScopeHeader : Text := []
deriving DecidableEq

structure TqCacheInvalidationTarget where
  routeId : Text := []
  strategy : TqCacheInvalidationStrategy := .routeEpoch
deriving DecidableEq

@[ext]
structure TqCacheInvalidationPolicy where
  enabled : Bool := false
  onMethods : List Text := []
  timing : Text := []
  successStatusMin : UInt16 := 200
  successStatusMax : UInt16 := 299
  targets : List TqCacheInvalidationTarget := []
deriving DecidableEq

structure TqCachePolicy where
  behavior : TqCacheBehavior := .default
  ttlMs : UInt32 := 0
  enabled : Bool := false
  l1 : TqCacheL1Policy := {}
  l2 : TqCacheL2Policy := {}
  privateCache : TqPrivateCachePolicy := {}
  fieldVariant : TqFieldVariantCachePolicy := {}
  varyHeaders : TqCacheVaryHeaderPolicy := {}
  invalidation : TqCacheInvalidationPolicy := {}
deriving DecidableEq

structure TqPaginationPolicy where
  enabled : Bool := false
  mode : TqPaginationMode := .none
  limitParam : Text := lit "limit"
  offsetParam : Text := lit "offset"
  defaultLimit : UInt32 := 0
  maxLimit : UInt32 := 0
  upstreamSupportsPagination : Bool := false
  maxResponseBytesWarning : UInt32 := 0
deriving DecidableEq

structure TqCompressionPolicy where
  enabled : Bool := false
  minSizeBytes : UInt32 := 0
  eligibleContentTypes : List Text := []
  preferredAlgorithms : List TqCompressionAlgorithm := []
  alreadyEncodedBehavior : TqAlreadyEncodedBehavior := .skip
deriving DecidableEq

structure TqCoalescingPolicy where
  enabled : Bool := false
  mode : TqCoalescingMode := .cacheAssisted
  backendTimeoutMs : UInt32 := 500
  handoffBufferMs : UInt32 := 250
  resultReadyRetentionMs : UInt32 := 50
  maxWaitersPerKey : UInt32 := 64
  requireCacheEnabled : Bool := true
  allowAuthenticated : Bool := false
  maxFollowerWaitBudgetMs : UInt32 := 0
  maxActiveFollowerWaiters : UInt32 := 0
  maxActiveFollowerWaitersPerShard : UInt32 := 0
deriving DecidableEq

structure TqRoutePolicy where
  routeId : Text
  matchPrefix : Text := []
  matchKind : TqRouteMatchKind := .prefixMatch
  mutation : TqMutationMode := .disabled
  allowedMethod : TqHttpMethod := .any
  fieldFilter : TqFieldFilterPolicy := {}
  maxResponseBytes : UInt32 := 0
  cache : TqCachePolicy := {}
  failureMode : TqFailureMode := .failOpen
  pagination : TqPaginationPolicy := {}
  compression : TqCompressionPolicy := {}
  coalescing : TqCoalescingPolicy := {}
deriving DecidableEq

/-- A policy document with its routes. -/
abbrev PolicyIr := TqPolicyDocument TqRoutePolicy

/-- What is done with such documents. -/
abbrev IrLanguage := PolicyLanguage TqRoutePolicy

/-! ## Normal form -/

/-- `std::tolower` -/
def toLower (c : Char) : Char := if 'A' ≤ c ∧ c ≤ 'Z' then Char.ofNat (c.toNat + 32) else c

theorem toLower_idem (c : Char) : toLower (toLower c) = toLower c := by
  have hsmall : ∀ n < 91, 65 ≤ n → toLower (Char.ofNat (n + 32)) = Char.ofNat (n + 32) := by decide
  by_cases hupper : 'A' ≤ c ∧ c ≤ 'Z'
  · have hcode : 65 ≤ c.toNat ∧ c.toNat ≤ 90 := hupper
    rw [show toLower c = Char.ofNat (c.toNat + 32) from if_pos hupper]
    exact hsmall c.toNat (by omega) hcode.1
  · rw [show toLower c = c from if_neg hupper, show toLower c = c from if_neg hupper]

def toLowercase (str : Text) : Text := str.map toLower

theorem toLowercase_idem (str : Text) : toLowercase (toLowercase str) = toLowercase str := by
  simp [toLowercase, toLower_idem]

def dedupLowered (result : List Text) (item : Text) : List Text :=
  if toLowercase item ∈ result then result else result ++ [toLowercase item]

def stableDedupAndLowercase (input : List Text) : List Text := input.foldl dedupLowered []

theorem foldl_dedupLowered_normal {result : List Text} (input : List Text)
    (h : result.Nodup ∧ ∀ item ∈ result, toLowercase item = item) :
    (input.foldl dedupLowered result).Nodup ∧
      ∀ item ∈ input.foldl dedupLowered result, toLowercase item = item := by
  induction input generalizing result with
  | nil => exact h
  | cons item _ ih =>
    refine ih ?_
    unfold dedupLowered
    split
    · exact h
    rename_i hnew
    refine ⟨nodup_append.mpr ⟨h.1, by simp, fun other hother last hlast heq => ?_⟩, ?_⟩
    · rw [heq, mem_singleton.mp hlast] at hother
      exact hnew hother
    · exact forall_mem_append.mpr ⟨h.2, forall_mem_singleton.mpr (toLowercase_idem item)⟩

theorem foldl_dedupLowered_eq {result input : List Text} (hnodup : (result ++ input).Nodup)
    (hlower : ∀ item ∈ input, toLowercase item = item) :
    input.foldl dedupLowered result = result ++ input := by
  induction input generalizing result with
  | nil => simp
  | cons item _ ih =>
    have hitem : toLowercase item = item := hlower item (by simp)
    have hnew : item ∉ result := fun hmem =>
      (nodup_append.mp hnodup).2.2 item hmem item (by simp) rfl
    have hstep : dedupLowered result item = result ++ [item] := by
      rw [dedupLowered, hitem, if_neg hnew]
    rw [foldl_cons, hstep, ih (by simpa using hnodup) fun other hother =>
      hlower other (by simp [hother])]
    simp

theorem stableDedupAndLowercase_idem (input : List Text) :
    stableDedupAndLowercase (stableDedupAndLowercase input) = stableDedupAndLowercase input := by
  have hnormal := foldl_dedupLowered_normal input
    (show ([] : List Text).Nodup ∧ ∀ item ∈ ([] : List Text), toLowercase item = item by simp)
  exact foldl_dedupLowered_eq (by simpa [stableDedupAndLowercase] using hnormal.1) hnormal.2

/-- The numbers of the variant cache count only where it is enabled. -/
def normalizeFieldVariant (variant : TqFieldVariantCachePolicy) : TqFieldVariantCachePolicy :=
  if variant.enabled then variant
  else
    { variant with
      maxVariantsPerRoute := 0, minFieldCount := 0, maxFieldCount := 0, admissionThreshold := 0
      ttlMaxMs := 0 }

def normalizeCache (cache : TqCachePolicy) : TqCachePolicy :=
  { cache with
    privateCache := { cache.privateCache with
      authScopeHeader := toLowercase cache.privateCache.authScopeHeader }
    varyHeaders := { names := stableDedupAndLowercase cache.varyHeaders.names }
    fieldVariant := normalizeFieldVariant cache.fieldVariant }

def normalizeRoutePolicyIr (route : TqRoutePolicy) : TqRoutePolicy :=
  { route with cache := normalizeCache route.cache }

theorem normalizeRoutePolicyIr_idem (route : TqRoutePolicy) :
    normalizeRoutePolicyIr (normalizeRoutePolicyIr route) = normalizeRoutePolicyIr route := by
  have hvar : ∀ variant, normalizeFieldVariant (normalizeFieldVariant variant) =
      normalizeFieldVariant variant := by
    intro variant
    by_cases h : variant.enabled <;> simp [normalizeFieldVariant, h]
  simp [normalizeRoutePolicyIr, normalizeCache, toLowercase_idem, stableDedupAndLowercase_idem,
    hvar]

/-! ## Identity -/

def feedUint32 (label : Text) (value : UInt32) : Text :=
  feedString label (Nat.toDigits 10 value.toNat)

def feedBool (label : Text) (value : Bool) : Text :=
  feedString label (if value then lit "true" else lit "false")

/-- The constructors of the enumerations stand in the order of their values. -/
def feedEnum (label : Text) (value : Nat) : Text := feedUint32 label value.toUInt32

def feedVector {α : Type} (feed : Text → α → Text) (label : Text) (values : List α) : Text :=
  feedUint32 (label ++ lit ".count") values.length.toUInt32 ++
    values.zipIdx.flatMap fun (value, i) => feed (label ++ '.' :: Nat.toDigits 10 i) value

def feedStringVector : Text → List Text → Text := feedVector feedString

def feedEnumVector : Text → List Nat → Text := feedVector feedEnum

def feedFieldVariant (variant : TqFieldVariantCachePolicy) : Text :=
  List.flatten
    [ feedBool (lit "cache.field_variant.enabled") variant.enabled,
      feedUint32 (lit "cache.field_variant.max_variants_per_route") variant.maxVariantsPerRoute,
      feedUint32 (lit "cache.field_variant.min_field_count") variant.minFieldCount,
      feedUint32 (lit "cache.field_variant.max_field_count") variant.maxFieldCount,
      feedUint32 (lit "cache.field_variant.admission_threshold") variant.admissionThreshold,
      feedUint32 (lit "cache.field_variant.ttl_max_ms") variant.ttlMaxMs ]

def feedTarget (target : TqCacheInvalidationTarget) (i : Nat) : Text :=
  let label := lit "cache.invalidation.targets[" ++ Nat.toDigits 10 i
  feedString (label ++ lit "].route_id") target.routeId ++
    feedEnum (label ++ lit "].strategy") target.strategy.ctorIdx

def feedInvalidation (invalidation : TqCacheInvalidationPolicy) : Text :=
  if invalidation.enabled then
    List.flatten
      [ feedBool (lit "cache.invalidation.enabled") invalidation.enabled,
        feedStringVector (lit "cache.invalidation.on_methods") invalidation.onMethods,
        feedString (lit "cache.invalidation.timing") invalidation.timing,
        feedUint32 (lit "cache.invalidation.success_status_min")
          invalidation.successStatusMin.toUInt32,
        feedUint32 (lit "cache.invalidation.success_status_max")
          invalidation.successStatusMax.toUInt32,
        feedUint32 (lit "cache.invalidation.targets.size") invalidation.targets.length.toUInt32,
        invalidation.targets.zipIdx.flatMap fun (target, i) => feedTarget target i ]
  else []

def feedCache (cache : TqCachePolicy) : Text :=
  List.flatten
    [ feedEnum (lit "cache.behavior") cache.behavior.ctorIdx,
      feedUint32 (lit "cache.ttl_ms") cache.ttlMs,
      feedBool (lit "cache.enabled") cache.enabled,
      feedBool (lit "cache.l1.enabled") cache.l1.enabled,
      feedUint32 (lit "cache.l1.capacity_entries") cache.l1.capacityEntries,
      feedBool (lit "cache.l2.enabled") cache.l2.enabled,
      feedString (lit "cache.l2.path") cache.l2.path,
      feedBool (lit "cache.private_cache.enabled") cache.privateCache.enabled,
      feedString (lit "cache.private_cache.auth_scope_header") cache.privateCache.authScopeHeader,
      feedFieldVariant cache.fieldVariant,
      feedStringVector (lit "cache.vary_headers.names") cache.varyHeaders.names,
      feedInvalidation cache.invalidation ]

def feedPagination (pagination : TqPaginationPolicy) : Text :=
  List.flatten
    [ feedBool (lit "pagination.enabled") pagination.enabled,
      feedEnum (lit "pagination.mode") pagination.mode.ctorIdx,
      feedString (lit "pagination.limit_param") pagination.limitParam,
      feedString (lit "pagination.offset_param") pagination.offsetParam,
      feedUint32 (lit "pagination.default_limit") pagination.defaultLimit,
      feedUint32 (lit "pagination.max_limit") pagination.maxLimit,
      feedBool (lit "pagination.upstream_supports_pagination")
        pagination.upstreamSupportsPagination,
      feedUint32 (lit "pagination.max_response_bytes_warning")
        pagination.maxResponseBytesWarning ]

def feedCompression (compression : TqCompressionPolicy) : Text :=
  List.flatten
    [ feedBool (lit "compression.enabled") compression.enabled,
      feedUint32 (lit "compression.min_size_bytes") compression.minSizeBytes,
      feedStringVector (lit "compression.eligible_content_types")
        compression.eligibleContentTypes,
      feedEnumVector (lit "compression.preferred_algorithms")
        (compression.preferredAlgorithms.map (·.ctorIdx)),
      feedEnum (lit "compression.already_encoded_behavior")
        compression.alreadyEncodedBehavior.ctorIdx ]

def feedCoalescing (coalescing : TqCoalescingPolicy) : Text :=
  List.flatten
    [ feedBool (lit "coalescing.enabled") coalescing.enabled,
      feedEnum (lit "coalescing.mode") coalescing.mode.ctorIdx,
      feedUint32 (lit "coalescing.backend_timeout_ms") coalescing.backendTimeoutMs,
      feedUint32 (lit "coalescing.handoff_buffer_ms") coalescing.handoffBufferMs,
      feedUint32 (lit "coalescing.result_ready_retention_ms") coalescing.resultReadyRetentionMs,
      feedUint32 (lit "coalescing.max_waiters_per_key") coalescing.maxWaitersPerKey,
      feedBool (lit "coalescing.require_cache_enabled") coalescing.requireCacheEnabled,
      feedBool (lit "coalescing.allow_authenticated") coalescing.allowAuthenticated,
      feedUint32 (lit "coalescing.max_follower_wait_budget_ms")
        coalescing.maxFollowerWaitBudgetMs,
      feedUint32 (lit "coalescing.max_active_follower_waiters")
        coalescing.maxActiveFollowerWaiters,
      feedUint32 (lit "coalescing.max_active_follower_waiters_per_shard")
        coalescing.maxActiveFollowerWaitersPerShard ]

/-- The canonical text of a route. -/
def feedRoute (route : TqRoutePolicy) : Text :=
  List.flatten
    [ feedString (lit "route_id") route.routeId,
      feedString (lit "match_prefix") route.matchPrefix,
      feedEnum (lit "match_kind") route.matchKind.ctorIdx,
      feedEnum (lit "mutation") route.mutation.ctorIdx,
      feedEnum (lit "allowed_method") route.allowedMethod.ctorIdx,
      feedEnum (lit "field_filter.mode") route.fieldFilter.mode.ctorIdx,
      feedStringVector (lit "field_filter.fields") route.fieldFilter.fields,
      feedUint32 (lit "max_response_bytes") route.maxResponseBytes,
      feedCache route.cache,
      feedEnum (lit "failure_mode") route.failureMode.ctorIdx,
      feedPagination route.pagination,
      feedCompression route.compression,
      feedCoalescing route.coalescing ]

/-- `compute_route_policy_identity_impl` -/
def routeIdentityImpl (siphash : Text → UInt64) (route : TqRoutePolicy) : Text :=
  formatHex (siphash (feedRoute route))

/-- The routes of a document, with any printer for them. -/
def routeLanguage (siphash : Text → UInt64) (printRoute : TqRoutePolicy → Text) :
    RouteLanguage TqRoutePolicy where
  normalizeRoute := normalizeRoutePolicyIr
  routeIdentity := routeIdentityImpl siphash
  printRoute := printRoute
  normalizeRoute_idem := normalizeRoutePolicyIr_idem

/-- The documents of routes, with any hashes, printer and reader. -/
def policyLanguage (siphash : Text → UInt64) (sha256Hex : Text → Text)
    (printRoute : TqRoutePolicy → Text) (loadYaml : Text → Except Text PolicyIr) : IrLanguage where
  toRouteLanguage := routeLanguage siphash printRoute
  siphash := siphash
  sha256Hex := sha256Hex
  loadYaml := loadYaml

end ByteTaper.TaperQuery
