import ByteTaper.Policy.RoutePolicy
import ByteTaper.TaperQuery.PolicyIr

/-! # The identity of a route policy

`policy_identity.cpp`: the identity that a route policy carries at run time and that its cache keys
contain. All of the policy is written as tagged bytes, and two hashes of these bytes are printed. -/

namespace ByteTaper.Policy

open TaperQuery (formatHex notMem_formatHex)

/-! ## The writer

Each of the functions gives the bytes that it feeds to the hashes. -/

namespace PolicyIdentityWriter

def feedBool (v : Bool) : List UInt8 := [if v then 1 else 0]

def feedU8 (v : Nat) : List UInt8 := [v.toUInt8]

def feedU32 (v : UInt32) : List UInt8 :=
  [v.toUInt8, (v >>> 8).toUInt8, (v >>> 16).toUInt8, (v >>> 24).toUInt8]

def feedString (s : Text) : List UInt8 :=
  feedU32 s.length.toUInt32 ++ s.map fun c => c.toNat.toUInt8

def feedSection (name : Text) : List UInt8 := 1 :: feedString name

def feedTag (name : Text) : List UInt8 := 2 :: feedString name

/-- A tag with its value. -/
def tagged (name : Text) (value : List UInt8) : List UInt8 := feedTag name ++ value

/-- The number of values, and a tag before each of them. -/
def counted {α : Type} (count : Text) (values : List α) (feed : α → List UInt8) : List UInt8 :=
  tagged count (feedU32 values.length.toUInt32) ++ values.flatMap feed

/-- One of the two hashes, from its offset basis. -/
def fnv1a (basis : UInt64) (bytes : List UInt8) : UInt64 :=
  bytes.foldl (fun h b => (h ^^^ b.toUInt64) * 1099511628211) basis

/-- The text fits its buffer of 96 characters. -/
def finishRoute (bytes : List UInt8) : Text :=
  lit "btp2:" ++ formatHex (fnv1a 14695981039346656037 bytes) ++
    formatHex (fnv1a 5615783353457913349 bytes)

end PolicyIdentityWriter

open PolicyIdentityWriter

/-! ## Routes -/

def feedMatch (route : RoutePolicy) : List UInt8 :=
  List.flatten
    [ feedSection (lit "route"),
      tagged (lit "route_id") (feedString (route.routeId.getD [])),
      tagged (lit "match_prefix") (feedString (route.matchPrefix.getD [])),
      tagged (lit "match_kind") (feedU8 route.matchKind.ctorIdx),
      tagged (lit "mutation") (feedU8 route.mutation.ctorIdx),
      tagged (lit "allowed_method") (feedU8 route.allowedMethod.ctorIdx),
      tagged (lit "max_response_bytes") (feedU32 route.maxResponseBytes),
      tagged (lit "failure_mode") (feedU8 route.failureMode.ctorIdx) ]

def feedFieldFilter (filter : FieldFilterPolicy) : List UInt8 :=
  List.flatten
    [ feedSection (lit "field_filter"),
      tagged (lit "mode") (feedU8 filter.mode.ctorIdx),
      counted (lit "field_count") filter.fields fun field =>
        tagged (lit "field") (feedString field.val) ]

def feedFieldVariant (variant : FieldVariantCachePolicy) : List UInt8 :=
  List.flatten
    [ tagged (lit "field_variant_enabled") (feedBool variant.enabled),
      tagged (lit "field_variant_max_variants") (feedU32 variant.maxVariantsPerRoute),
      tagged (lit "field_variant_min_field_count") (feedU32 variant.minFieldCount),
      tagged (lit "field_variant_max_field_count") (feedU32 variant.maxFieldCount),
      tagged (lit "field_variant_admission_threshold") (feedU32 variant.admissionThreshold),
      tagged (lit "field_variant_ttl_max_ms") (feedU32 variant.ttlMaxMs) ]

/-- The timing is the first of its enumeration. -/
def feedInvalidation (invalidation : CacheInvalidationPolicy) : List UInt8 :=
  List.flatten
    [ tagged (lit "invalidation_enabled") (feedBool invalidation.enabled),
      tagged (lit "invalidation_on_patch") (feedBool invalidation.onPatch),
      tagged (lit "invalidation_on_put") (feedBool invalidation.onPut),
      tagged (lit "invalidation_on_delete") (feedBool invalidation.onDelete),
      tagged (lit "invalidation_timing") (feedU8 0),
      tagged (lit "invalidation_success_status_min")
        (feedU32 invalidation.successStatusMin.toUInt32),
      tagged (lit "invalidation_success_status_max")
        (feedU32 invalidation.successStatusMax.toUInt32),
      counted (lit "invalidation_target_count") invalidation.targets fun target =>
        tagged (lit "invalidation_target_route_id") (feedString target.routeId) ++
          tagged (lit "invalidation_target_strategy") (feedU8 target.strategy.ctorIdx) ]

def feedCache (cache : CachePolicy) : List UInt8 :=
  List.flatten
    [ feedSection (lit "cache"),
      tagged (lit "behavior") (feedU8 cache.behavior.ctorIdx),
      tagged (lit "ttl_seconds") (feedU32 cache.ttlSeconds),
      tagged (lit "enabled") (feedBool cache.enabled),
      tagged (lit "l1_enabled") (feedBool cache.l1.enabled),
      tagged (lit "l1_capacity") (feedU32 cache.l1.capacityEntries),
      tagged (lit "l2_enabled") (feedBool cache.l2.enabled),
      tagged (lit "l2_path") (feedString cache.l2.path),
      tagged (lit "private_cache") (feedBool cache.privateCache),
      tagged (lit "auth_scope_header") (feedString cache.authScopeHeader),
      feedFieldVariant cache.fieldVariant,
      counted (lit "vary_headers_count") cache.varyHeaders fun name =>
        tagged (lit "vary_header") (feedString name),
      feedInvalidation cache.invalidation ]

def feedPagination (pagination : PaginationPolicy) : List UInt8 :=
  List.flatten
    [ feedSection (lit "pagination"),
      tagged (lit "enabled") (feedBool pagination.enabled),
      tagged (lit "mode") (feedU8 pagination.mode.ctorIdx),
      tagged (lit "limit_param") (feedString pagination.limitParam),
      tagged (lit "offset_param") (feedString pagination.offsetParam),
      tagged (lit "default_limit") (feedU32 pagination.defaultLimit),
      tagged (lit "max_limit") (feedU32 pagination.maxLimit),
      tagged (lit "upstream_supports_pagination")
        (feedBool pagination.upstreamSupportsPagination),
      tagged (lit "max_response_bytes_warning") (feedU32 pagination.maxResponseBytesWarning) ]

def feedCompression (compression : CompressionPolicy) : List UInt8 :=
  List.flatten
    [ feedSection (lit "compression"),
      tagged (lit "enabled") (feedBool compression.enabled),
      tagged (lit "min_size_bytes") (feedU32 compression.minSizeBytes),
      counted (lit "eligible_content_type_count") compression.eligibleContentTypes fun ct =>
        tagged (lit "eligible_content_type") (feedString ct),
      counted (lit "preferred_algorithm_count") compression.preferredAlgorithms fun algo =>
        tagged (lit "preferred_algorithm") (feedU8 algo.ctorIdx),
      tagged (lit "already_encoded_behavior")
        (feedU8 compression.alreadyEncodedBehavior.ctorIdx) ]

/-- The mode is the first of its enumeration. -/
def feedCoalescing (coalescing : CoalescingPolicy) : List UInt8 :=
  List.flatten
    [ feedSection (lit "coalescing"),
      tagged (lit "enabled") (feedBool coalescing.enabled),
      tagged (lit "mode") (feedU8 0),
      tagged (lit "backend_timeout_ms") (feedU32 coalescing.backendTimeoutMs),
      tagged (lit "handoff_buffer_ms") (feedU32 coalescing.handoffBufferMs),
      tagged (lit "result_ready_retention_ms") (feedU32 coalescing.resultReadyRetentionMs),
      tagged (lit "max_waiters_per_key") (feedU32 coalescing.maxWaitersPerKey),
      tagged (lit "require_cache_enabled") (feedBool coalescing.requireCacheEnabled),
      tagged (lit "allow_authenticated") (feedBool coalescing.allowAuthenticated),
      tagged (lit "max_follower_wait_budget_ms") (feedU32 coalescing.maxFollowerWaitBudgetMs),
      tagged (lit "max_active_follower_waiters") (feedU32 coalescing.maxActiveFollowerWaiters),
      tagged (lit "max_active_follower_waiters_per_shard")
        (feedU32 coalescing.maxActiveFollowerWaitersPerShard) ]

def computeRoutePolicyIdentityV2 (route : RoutePolicy) : Text :=
  finishRoute
    (List.flatten
      [ feedMatch route, feedFieldFilter route.fieldFilter, feedCache route.cache,
        feedPagination route.pagination, feedCompression route.compression,
        feedCoalescing route.coalescing ])

def kPolicyIdentityMaxLen : Nat := 64

def copyRoutePolicyIdentityV2ToLegacySlot (route : RoutePolicy) : RoutePolicy :=
  { route with
    policyIdentity := (computeRoutePolicyIdentityV2 route).take (kPolicyIdentityMaxLen - 1) }

/-! ## The text of an identity -/

section

variable (route : RoutePolicy)

@[simp] theorem length_computeRoutePolicyIdentityV2 :
    (computeRoutePolicyIdentityV2 route).length = 37 := by
  have hver : (lit "btp2:").length = 5 := by simp [lit]
  simp [computeRoutePolicyIdentityV2, finishRoute, hver]

/-- An identity fits the slot of a route policy. -/
theorem policyIdentity_copyRoutePolicyIdentityV2ToLegacySlot :
    (copyRoutePolicyIdentityV2ToLegacySlot route).policyIdentity =
      computeRoutePolicyIdentityV2 route := by
  refine List.take_of_length_le ?_
  simp [kPolicyIdentityMaxLen]

/-- Every identity names its version, and no colon is a hexadecimal digit. -/
theorem colon_mem_computeRoutePolicyIdentityV2 : ':' ∈ computeRoutePolicyIdentityV2 route := by
  have hver : ':' ∈ lit "btp2:" := by simp [lit]
  exact List.mem_append_left _ (List.mem_append_left _ hver)

theorem bar_notMem_computeRoutePolicyIdentityV2 : '|' ∉ computeRoutePolicyIdentityV2 route := by
  have hver : '|' ∉ lit "btp2:" := by simp [lit]
  have hhex : ∀ hash, '|' ∉ formatHex hash := notMem_formatHex (by decide)
  simp [computeRoutePolicyIdentityV2, finishRoute, hver, hhex]

end

end ByteTaper.Policy
