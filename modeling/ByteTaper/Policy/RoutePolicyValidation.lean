import ByteTaper.Policy.RoutePolicy

/-! # Validation of a route policy

`validate_route_policy` with the checks that it calls. A check returns the reason of the first error
that it finds. The checks of enumerations against their range have no counterpart here: a value
outside of it cannot be built. Warnings are not reported by this function. -/

namespace ByteTaper.Policy

/-- The first of the checks, in their order, whose condition holds. -/
def firstFailure : List (Bool × Text) → Option Text
  | [] => none
  | (failed, reason) :: rest => if failed then some reason else firstFailure rest

def validateCacheInvalidation (policy : CachePolicy) : Option Text :=
  let invalidation := policy.invalidation
  firstFailure
    [(!invalidation.onPatch && !invalidation.onPut && !invalidation.onDelete,
        lit "cache.invalidation requires at least one method in on_methods"),
     (invalidation.targets.isEmpty, lit "cache.invalidation requires at least one target"),
     (invalidation.targets.length > 8, lit "cache.invalidation target count exceeds maximum allowed"),
     (invalidation.successStatusMin < 100,
        lit "cache.invalidation success_status min must be >= 100"),
     (invalidation.successStatusMax > 599,
        lit "cache.invalidation success_status max must be <= 599"),
     (invalidation.successStatusMin > invalidation.successStatusMax,
        lit "cache.invalidation success_status min cannot be greater than max"),
     (invalidation.targets.any (·.routeId.isEmpty),
        lit "cache.invalidation target route_id must not be empty"),
     (policy.enabled && policy.behavior = .store,
        lit "route cannot declare both cache store and cache invalidation")]

def validateCachePolicy (policy : CachePolicy) : Option Text :=
  (if policy.invalidation.enabled then validateCacheInvalidation policy else none).or
    (if policy.enabled then
      firstFailure
        [(policy.ttlSeconds = 0, lit "cache.ttl_seconds required when cache is enabled"),
         (!policy.l1.enabled && !policy.l2.enabled,
            lit "at least one cache layer (l1 or l2) must be enabled"),
         (policy.l2.enabled && policy.l2.path.isEmpty,
            lit "cache.layers.l2.path required when L2 cache is enabled")]
    else none)

def validateCachePolicySafe (policy : CachePolicy) (routeMethod : HttpMethod) : Option Text :=
  (validateCachePolicy policy).or
    (if policy.enabled then
      firstFailure
        [(routeMethod != .get && routeMethod != .any, lit "cache not supported for non-GET routes"),
         (policy.privateCache && policy.authScopeHeader.isEmpty,
            lit "cache.private_cache requires auth_scope_header to be set")]
    else none)

def validateCompressionPolicy (policy : CompressionPolicy) : Option Text :=
  if policy.enabled then
    firstFailure
      [(policy.eligibleContentTypes.length > 8,
          lit "compression.eligible_content_types exceeds maximum count"),
       (policy.preferredAlgorithms.length > 4,
          lit "compression.preferred_algorithms exceeds maximum count")]
  else none

def validateCompressionPolicySafe (policy : CompressionPolicy) : Option Text :=
  (validateCompressionPolicy policy).or
    (if policy.enabled then
      firstFailure
        [(policy.minSizeBytes = 0, lit "compression enabled with min_size_bytes <= 0"),
         (policy.eligibleContentTypes.isEmpty,
            lit "compression enabled with empty eligible_content_types"),
         (policy.preferredAlgorithms.isEmpty, lit "compression enabled with no preferred_algorithms"),
         (policy.preferredAlgorithms.contains .none,
            lit "compression.preferred_algorithms contains 'none'"),
         (policy.alreadyEncodedBehavior != .skip,
            lit "compression.already_encoded_behavior must be 'skip'")]
    else none)

def validatePaginationPolicy (policy : PaginationPolicy) : Option Text :=
  if policy.enabled then
    firstFailure
      [(policy.mode = .cursor, lit "cursor_mode_not_implemented"),
       (policy.mode = .none, lit "pagination.mode required when pagination is enabled"),
       (policy.defaultLimit = 0, lit "pagination.default_limit required when pagination is enabled"),
       (policy.maxLimit > 0 && policy.maxLimit < policy.defaultLimit,
          lit "pagination.max_limit must not be less than default_limit"),
       (policy.limitParam.isEmpty, lit "pagination.limit_param must not be empty"),
       (policy.offsetParam.isEmpty, lit "pagination.offset_param must not be empty")]
  else none

def validatePaginationPolicySafe (policy : PaginationPolicy) : Option Text :=
  if policy.enabled then
    (validatePaginationPolicy policy).or
      (firstFailure
        [(policy.maxLimit = 0, lit "pagination.max_limit required when pagination is enabled")])
  else none

def validateCoalescingPolicy (policy : CoalescingPolicy) : Option Text :=
  if policy.enabled then
    firstFailure
      [(policy.backendTimeoutMs = 0, lit "backend_timeout_ms must be > 0"),
       (policy.backendTimeoutMs > 30000, lit "backend_timeout_ms must be <= 30000"),
       (policy.handoffBufferMs = 0, lit "handoff_buffer_ms must be > 0"),
       (policy.handoffBufferMs > 5000, lit "handoff_buffer_ms must be <= 5000"),
       (policy.resultReadyRetentionMs < 10, lit "result_ready_retention_ms must be >= 10"),
       (policy.resultReadyRetentionMs > 1000, lit "result_ready_retention_ms must be <= 1000"),
       (policy.resultReadyRetentionMs ≥ policy.backendTimeoutMs,
          lit "result_ready_retention_ms must be < backend_timeout_ms"),
       (policy.maxWaitersPerKey = 0, lit "coalescing.max_waiters_per_key must be > 0")]
  else none

def validateCoalescingPolicySafe (policy : CoalescingPolicy) (cache : CachePolicy) : Option Text :=
  (validateCoalescingPolicy policy).or
    (if policy.enabled then
      firstFailure
        [(policy.backendTimeoutMs + policy.handoffBufferMs > 30000,
            lit "coalescing total wait budget exceeds 30000ms"),
         (policy.handoffBufferMs > policy.backendTimeoutMs,
            lit "coalescing handoff_buffer_ms exceeds backend_timeout_ms"),
         (policy.maxFollowerWaitBudgetMs > 0 &&
            policy.maxFollowerWaitBudgetMs < policy.handoffBufferMs,
            lit "coalescing max_follower_wait_budget_ms must be >= handoff_buffer_ms"),
         (policy.maxActiveFollowerWaiters > 0 &&
            policy.maxActiveFollowerWaitersPerShard > policy.maxActiveFollowerWaiters,
            lit ("coalescing max_active_follower_waiters_per_shard must be <= " ++
              "max_active_follower_waiters")),
         (policy.requireCacheEnabled && !cache.enabled,
            lit "coalescing requires cache to be enabled"),
         (policy.allowAuthenticated && cache.authScopeHeader.isEmpty,
            lit "coalescing.allow_authenticated=true requires cache.auth_scope_header to be set")]
    else none)

/-- Whether the route stores responses in the cache. -/
def RoutePolicy.storesInCache (route : RoutePolicy) : Bool :=
  route.cache.enabled && route.cache.behavior = .store

/-- The check of the features against the mutation mode. -/
def validateMutation (route : RoutePolicy) : Option Text :=
  if route.mutation = .headersOnly then
    firstFailure
      [(route.fieldFilter.mode != .none, lit "field_filter requires mutation=full"),
       (route.pagination.enabled, lit "pagination requires mutation=full"),
       (route.compression.enabled, lit "compression requires mutation=full"),
       (route.storesInCache, lit "cache store requires mutation=full"),
       (route.coalescing.enabled, lit "coalescing requires mutation=full")]
  else none

def validateRoutePolicy (route : RoutePolicy) : Option Text :=
  let otherMethod := route.allowedMethod != .any && route.allowedMethod != .get
  (firstFailure
      [((route.routeId.getD []).isEmpty, lit "route_id is required"),
       ((route.matchPrefix.bind List.head?) != some '/', lit "match_prefix must start with '/'")]).or <|
    (validateCachePolicySafe route.cache route.allowedMethod).or <|
    (validateCompressionPolicySafe route.compression).or <|
    (validatePaginationPolicySafe route.pagination).or <|
    (validateCoalescingPolicySafe route.coalescing route.cache).or <|
    (validateMutation route).or <|
    firstFailure
      [(route.coalescing.enabled && otherMethod,
          lit "coalescing only supported for GET or ANY routes"),
       (route.pagination.enabled && otherMethod,
          lit "pagination only supported for GET or ANY routes")]

end ByteTaper.Policy
