import ByteTaper.TaperQuery.RouteAnalysis

/-! # The validator of policies

`policy_ir_validator.cpp` and `policy_ir_version.cpp`: the checks of a policy document and of its
routes, in the order in which they are made, each with what it reports. The checks that an enumeration
has one of its values are left out. -/

namespace ByteTaper.TaperQuery

/-! ## Issues -/

inductive TqPolicyValidationSeverity where
  | warning | error
deriving DecidableEq

inductive TqPolicyValidationSubsystem where
  | document | version | route | matchPath | mutation | fieldFilter | cache | pagination
  | compression | coalescing | crossFeature | crossRoute
deriving DecidableEq

structure TqPolicyValidationIssue where
  severity : TqPolicyValidationSeverity := .error
  subsystem : TqPolicyValidationSubsystem := .document
  routeId : Text := []
  fieldPath : Text := []
  code : Text := []
  reason : Text := []
  hint : Text := []

abbrev Issues := List TqPolicyValidationIssue

structure TqPolicyValidationOptions where
  collectAll : Bool := true
  includeWarnings : Bool := true
  strictProduction : Bool := true

structure TqPolicyValidationResult where
  ok : Bool := true
  issues : Issues := []

def TqPolicyValidationIssue.isError (issue : TqPolicyValidationIssue) : Bool :=
  issue.severity = .error

/-- `add_issue` for one issue after the other: warnings may be left out, and the first error may be the
    last issue. -/
def addIssues (options : TqPolicyValidationOptions) : Issues → Issues
  | [] => []
  | issue :: issues =>
    if issue.isError = false ∧ options.includeWarnings = false then addIssues options issues
    else if issue.isError ∧ options.collectAll = false then [issue]
    else issue :: addIssues options issues

def validationResult (options : TqPolicyValidationOptions) (issues : Issues) :
    TqPolicyValidationResult where
  ok := !(addIssues options issues).any (·.isError)
  issues := addIssues options issues

def issueIf (failed : Bool) (issue : TqPolicyValidationIssue) : Issues :=
  if failed then [issue] else []

def routeError (subsystem : TqPolicyValidationSubsystem) (route : TqRoutePolicy)
    (fieldPath code reason hint : Text) : TqPolicyValidationIssue where
  severity := .error
  subsystem
  routeId := route.routeId
  fieldPath
  code
  reason
  hint

/-! ## Route and cache -/

def isValidHttpHeaderName (name : Text) : Bool :=
  !name.isEmpty && name.all fun c => c.isAlphanum || c ∈ lit "-_!#$%&'*+.^`|~"

variable (strict : Bool) (route : TqRoutePolicy)

def storesResponses : Bool :=
  route.cache.enabled && route.cache.behavior = .store

def matchIssues : Issues :=
  List.flatten
    [ issueIf route.routeId.isEmpty
        { subsystem := .route, fieldPath := lit "route_id", code := lit "EMPTY_ROUTE_ID"
          reason := lit "route_id must not be empty"
          hint := lit "Assign a unique route_id for this route block." },
      issueIf route.matchPrefix.isEmpty
        (routeError .matchPath route (lit "match_prefix") (lit "EMPTY_MATCH_PATH")
          (lit "match_prefix must not be empty")
          (lit "Specify a path starting with '/' for request routing.")),
      issueIf (!route.matchPrefix.isEmpty && route.matchPrefix.head? ≠ some '/')
        (routeError .matchPath route (lit "match_prefix") (lit "INVALID_MATCH_PATH_PREFIX")
          (lit "match_prefix must start with '/'")
          (lit "Prepend a '/' to the path (e.g. '/api' instead of 'api').")) ]

/-- The names that were seen are in lower case. -/
def varyHeaderIssues : List Text → List Text → Issues
  | _, [] => []
  | seen, name :: names =>
    let error := routeError .cache route (lit "cache.vary_headers.names")
    if name.isEmpty then
      error (lit "VARY_HEADER_EMPTY") (lit "Vary header names must not be empty")
        (lit "Remove empty strings from the vary headers declaration list.") ::
        varyHeaderIssues seen names
    else
      issueIf (seen.contains (toLowercase name))
        (error (lit "VARY_HEADER_DUPLICATE")
          (lit "duplicate vary header name after lowercase normalization: '" ++
            toLowercase name ++ lit "'")
          (lit "Vary headers must be unique. Remove redundant elements.")) ++
        varyHeaderIssues (toLowercase name :: seen) names

/-- The checks of a cache whose behaviour is not to bypass. -/
def cacheStoreIssues : Issues :=
  List.flatten
    [ issueIf (route.cache.ttlMs = 0)
        (routeError .cache route (lit "cache.ttl_ms") (lit "CACHE_STORE_MISSING_TTL")
          (lit "cache.ttl_ms is required when cache is enabled with store behavior")
          (lit "Assign a positive non-zero cache TTL value (e.g. 30000).")),
      issueIf (route.allowedMethod ≠ .get && route.allowedMethod ≠ .any)
        (routeError .cache route (lit "cache") (lit "CACHE_STORE_INVALID_METHOD")
          (lit "cache store behavior is only supported for GET or ANY routes")
          (lit "Remove cache block or change allowed_method to GET or ANY.")),
      issueIf (strict && !route.cache.l1.enabled && !route.cache.l2.enabled)
        (routeError .cache route (lit "cache") (lit "CACHE_STORE_MISSING_LAYERS")
          (lit "at least one cache layer (l1 or l2) must be enabled in strict production mode")
          (lit "Set l1.enabled=true or l2.enabled=true inside cache configuration.")) ]

def cacheLayerIssues : Issues :=
  let cache := route.cache
  List.flatten
    [ issueIf (cache.l1.enabled && cache.l1.capacityEntries = 0)
        (routeError .cache route (lit "cache.l1.capacity_entries") (lit "L1_CACHE_ZERO_CAPACITY")
          (lit "L1 cache capacity must be greater than zero when enabled")
          (lit "Specify a positive entry capacity (e.g. 1000).")),
      issueIf (cache.l2.enabled && cache.l2.path.isEmpty)
        (routeError .cache route (lit "cache.l2.path") (lit "L2_CACHE_MISSING_PATH")
          (lit "L2 cache path is required when L2 cache is enabled")
          (lit "Specify a valid local storage path or RocksDB directory path.")),
      issueIf (cache.l2.enabled && 255 < cache.l2.path.length)
        (routeError .cache route (lit "cache.l2.path") (lit "L2_CACHE_PATH_TOO_LONG")
          (lit "L2 cache path length exceeds the maximum runtime limit (255 chars)")
          (lit "Use a shorter storage path prefix for the L2 RocksDB instance.")),
      issueIf (cache.privateCache.enabled && cache.privateCache.authScopeHeader.isEmpty)
        (routeError .cache route (lit "cache.private_cache.auth_scope_header")
          (lit "PRIVATE_CACHE_MISSING_AUTH_HEADER")
          (lit "private_cache requires auth_scope_header to be set")
          (lit "Specify the header containing authorization context (e.g. 'Authorization').")),
      issueIf (cache.privateCache.enabled && !cache.privateCache.authScopeHeader.isEmpty &&
          !isValidHttpHeaderName cache.privateCache.authScopeHeader)
        (routeError .cache route (lit "cache.private_cache.auth_scope_header")
          (lit "PRIVATE_CACHE_INVALID_AUTH_HEADER_CHARACTERS")
          (lit "auth_scope_header contains invalid HTTP header characters")
          (lit "Use a valid HTTP header name matching alphanumeric and compliant symbols.")),
      varyHeaderIssues route [] cache.varyHeaders.names ]

def cacheIssues : Issues :=
  if route.cache.enabled then
    (if route.cache.behavior ≠ .bypass then cacheStoreIssues strict route else []) ++
      cacheLayerIssues route
  else []

/-! ## Invalidation -/

def methodIssues : Issues :=
  let error := routeError .cache route (lit "cache.invalidation.on_methods")
  if route.cache.invalidation.onMethods.isEmpty then
    [error (lit "INVALIDATION_MISSING_METHODS")
      (lit "cache.invalidation requires at least one method in on_methods")
      (lit "Specify a list of methods (e.g. [PATCH, PUT, DELETE]).")]
  else
    route.cache.invalidation.onMethods.flatMap fun m =>
      issueIf (m ≠ lit "PATCH" && m ≠ lit "PUT" && m ≠ lit "DELETE")
        (error (lit "INVALIDATION_INVALID_METHOD")
          (lit "cache.invalidation on_methods can only contain PATCH, PUT, or DELETE")
          (lit "Remove GET, POST, or other unsupported methods."))

def statusIssues : Issues :=
  let invalidation := route.cache.invalidation
  let error := routeError .cache route (lit "cache.invalidation.success_status")
  List.flatten
    [ issueIf (invalidation.successStatusMin < 100)
        (error (lit "INVALIDATION_STATUS_MIN_LT_100") (lit "success_status min must be >= 100")
          (lit "Increase min success_status bound.")),
      issueIf (599 < invalidation.successStatusMax)
        (error (lit "INVALIDATION_STATUS_MAX_GT_599") (lit "success_status max must be <= 599")
          (lit "Decrease max success_status bound.")),
      issueIf (invalidation.successStatusMax < invalidation.successStatusMin)
        (error (lit "INVALIDATION_STATUS_MIN_GT_MAX")
          (lit "success_status min cannot be greater than max")
          (lit "Ensure min <= max in success_status configuration.")) ]

def targetCountIssues : Issues :=
  let error := routeError .cache route (lit "cache.invalidation.targets")
  List.flatten
    [ issueIf route.cache.invalidation.targets.isEmpty
        (error (lit "INVALIDATION_MISSING_TARGETS")
          (lit "cache.invalidation requires at least one target")
          (lit "Add target route IDs to the targets list.")),
      issueIf (8 < route.cache.invalidation.targets.length)
        (error (lit "INVALIDATION_TOO_MANY_TARGETS")
          (lit "cache.invalidation targets exceed maximum allowed (8)")
          (lit "Reduce the number of targets.")) ]

def targetIdIssues : Issues :=
  route.cache.invalidation.targets.flatMap fun target =>
    issueIf target.routeId.isEmpty
      (routeError .cache route (lit "cache.invalidation.targets")
        (lit "INVALIDATION_TARGET_EMPTY_ID") (lit "invalidation target route_id must not be empty")
        (lit "Provide a valid route_id for each target."))

def isMutationMethod (m : TqHttpMethod) : Bool := m = .patch || m = .put || m = .delete

def invalidationIssues : Issues :=
  let error := routeError .cache route (lit "cache.invalidation")
  if route.cache.invalidation.enabled then
    List.flatten
      [ methodIssues route,
        issueIf (storesResponses route)
          (error (lit "INVALIDATION_WITH_CACHE_STORE")
            (lit "route cannot declare both cache store and cache invalidation")
            (lit "Change cache.behavior to bypass or remove cache invalidation.")),
        issueIf (!isMutationMethod route.allowedMethod)
          (error (lit "INVALIDATION_ON_NON_MUTATION_ROUTE")
            (lit "cache invalidation policy can only be defined on mutation routes (PATCH, PUT, or DELETE)")
            (lit "Change allowed_method of this route to a mutation HTTP method.")),
        targetCountIssues route,
        statusIssues route,
        targetIdIssues route ]
  else []

/-! ## Field filter -/

def fieldNameIssues (field : Text) : Issues :=
  let error := routeError .fieldFilter route (lit "field_filter.fields")
  issueIf field.isEmpty
    (error (lit "FIELD_FILTER_EMPTY_FIELD") (lit "field filter names must not be empty")
      (lit "Remove empty fields from the filtering declarations list.")) ++
    issueIf (64 < field.length)
      (error (lit "FIELD_FILTER_NAME_TOO_LONG") (lit "field name exceeds runtime limit of 64 chars")
        (lit "Simplify the json path or field selector name."))

def fieldIssues : List Text → List Text → Issues
  | _, [] => []
  | seen, field :: fields =>
    fieldNameIssues route field ++
      issueIf (strict && seen.contains field)
        (routeError .fieldFilter route (lit "field_filter.fields")
          (lit "FIELD_FILTER_DUPLICATE_FIELD")
          (lit "duplicate field found in filtering block: '" ++ field ++ lit "'")
          (lit "Remove duplicate field references.")) ++
      fieldIssues (field :: seen) fields

def fieldFilterIssues : Issues :=
  let fields := route.fieldFilter.fields
  let error := routeError .fieldFilter route (lit "field_filter.fields")
  if route.fieldFilter.mode = .none then
    issueIf (!fields.isEmpty)
      (error (lit "NONE_MODE_WITH_FIELDS") (lit "None mode must not contain fields")
        (lit "Clear the fields list or change the field filter mode."))
  else
    List.flatten
      [ issueIf (route.fieldFilter.mode = .allowlist && fields.isEmpty)
          (error (lit "ALLOWLIST_EMPTY_FIELDS")
            (lit "allowlist mode requires at least one field to filter")
            (lit "Specify field names to keep in the final response.")),
        issueIf (route.fieldFilter.mode = .denylist && fields.isEmpty)
          (error (lit "DENYLIST_EMPTY_FIELDS")
            (lit "denylist mode requires at least one field to redact")
            (lit "Specify field names to remove from the final response.")),
        fieldIssues strict route [] fields,
        issueIf (16 < fields.length)
          (error (lit "FIELD_FILTER_LIMIT_EXCEEDED")
            (lit "too many field_filter fields (exceeds runtime limit of 16)")
            (lit "Consolidate selectors or nesting structures.")) ]

/-! ## Field variants -/

def fieldVariantIssues : Issues :=
  let fvc := route.cache.fieldVariant
  let error := routeError .cache route
  if fvc.enabled then
    List.flatten
      [ issueIf (!route.cache.enabled)
          (error (lit "cache.field_variant") (lit "FVC_WITHOUT_CACHE")
            (lit "field variant cache requires cache to be enabled")
            (lit "Enable cache in this route policy block.")),
        issueIf (fvc.maxVariantsPerRoute = 0)
          (error (lit "cache.field_variant.max_variants_per_route") (lit "FVC_ZERO_MAX_VARIANTS")
            (lit "max_variants_per_route must be greater than zero when field variant cache is enabled")
            (lit "Assign a positive integer boundary.")),
        issueIf (fvc.maxFieldCount < fvc.minFieldCount)
          (error (lit "cache.field_variant.min_field_count") (lit "FVC_MIN_EXCEEDS_MAX")
            (lit "min_field_count must be less than or equal to max_field_count")
            (lit "Correct the field count boundaries.")),
        issueIf (fvc.admissionThreshold = 0)
          (error (lit "cache.field_variant.admission_threshold") (lit "FVC_ZERO_ADMISSION_THRESHOLD")
            (lit "admission_threshold must be greater than zero")
            (lit "Specify an admission hit threshold.")),
        issueIf (fvc.ttlMaxMs = 0)
          (error (lit "cache.field_variant.ttl_max_ms") (lit "FVC_ZERO_TTL_MAX")
            (lit "ttl_max_ms must be greater than zero when field variant cache is enabled")
            (lit "Assign a positive TTL for variants.")) ]
  else []

/-! ## Pagination -/

def readsOnly : Bool :=
  route.allowedMethod = .any || route.allowedMethod = .get

def paginationIssues : Issues :=
  let pagination := route.pagination
  let error := routeError .pagination route
  if pagination.enabled then
    List.flatten
      [ issueIf (pagination.mode = .cursor)
          (error (lit "pagination.mode") (lit "PAGINATION_CURSOR_UNSUPPORTED")
            (lit "cursor mode is explicitly marked as unsupported until runtime support exists")
            (lit "Change pagination.mode to limit_offset or disable pagination.")),
        issueIf (pagination.mode = .none)
          (error (lit "pagination.mode") (lit "PAGINATION_MODE_REQUIRED")
            (lit "pagination.mode required when pagination is enabled")
            (lit "Assign a supported pagination mode (e.g. limit_offset).")),
        issueIf (pagination.defaultLimit = 0)
          (error (lit "pagination.default_limit") (lit "PAGINATION_ZERO_DEFAULT_LIMIT")
            (lit "pagination.default_limit required when pagination is enabled")
            (lit "Assign a positive default limit (e.g. 20).")),
        issueIf (pagination.maxLimit = 0)
          (error (lit "pagination.max_limit") (lit "PAGINATION_ZERO_MAX_LIMIT")
            (lit "pagination.max_limit required when pagination is enabled")
            (lit "Assign a positive maximum limit (e.g. 100).")),
        issueIf (0 < pagination.maxLimit && pagination.maxLimit < pagination.defaultLimit)
          (error (lit "pagination.max_limit") (lit "PAGINATION_MAX_LESS_THAN_DEFAULT")
            (lit "pagination.max_limit must not be less than default_limit")
            (lit "Increase the max_limit or reduce the default_limit.")),
        issueIf pagination.limitParam.isEmpty
          (error (lit "pagination.limit_param") (lit "PAGINATION_EMPTY_LIMIT_PARAM")
            (lit "pagination.limit_param must not be empty")
            (lit "Specify the query parameter for limit control (e.g. 'limit').")),
        issueIf pagination.offsetParam.isEmpty
          (error (lit "pagination.offset_param") (lit "PAGINATION_EMPTY_OFFSET_PARAM")
            (lit "pagination.offset_param must not be empty")
            (lit "Specify the query parameter for offset control (e.g. 'offset').")),
        issueIf (!readsOnly route)
          (error (lit "pagination") (lit "PAGINATION_INVALID_METHOD")
            (lit "pagination only supported for GET or ANY routes")
            (lit "Remove pagination block or change allowed_method to GET or ANY.")) ]
  else []

/-! ## Compression -/

def algorithmIssues : List TqCompressionAlgorithm → List TqCompressionAlgorithm → Issues
  | _, [] => []
  | seen, algo :: algorithms =>
    let error := routeError .compression route (lit "compression.preferred_algorithms")
    issueIf (algo = .none)
      (error (lit "COMPRESSION_ALGORITHM_NONE")
        (lit "compression.preferred_algorithms contains unsupported 'none' value")
        (lit "Remove 'none' from preferred list.")) ++
      issueIf (seen.contains algo)
        (error (lit "COMPRESSION_DUPLICATE_ALGORITHM") (lit "duplicate algorithm is rejected")
          (lit "Remove the duplicate algorithm from preference ordering list.")) ++
      algorithmIssues (algo :: seen) algorithms

def compressionIssues : Issues :=
  let compression := route.compression
  let error := routeError .compression route
  if compression.enabled then
    List.flatten
      [ issueIf (compression.minSizeBytes = 0)
          (error (lit "compression.min_size_bytes") (lit "COMPRESSION_ZERO_MIN_SIZE")
            (lit "compression enabled with min_size_bytes <= 0")
            (lit "Specify a safe minimum payload size threshold in bytes (e.g. 1024).")),
        issueIf compression.eligibleContentTypes.isEmpty
          (error (lit "compression.eligible_content_types") (lit "COMPRESSION_EMPTY_CONTENT_TYPES")
            (lit "compression enabled with empty eligible_content_types")
            (lit "Add at least one content type (e.g. 'application/json').")),
        issueIf compression.preferredAlgorithms.isEmpty
          (error (lit "compression.preferred_algorithms") (lit "COMPRESSION_EMPTY_ALGORITHMS")
            (lit "compression enabled with no preferred_algorithms")
            (lit "Declare at least one compression algorithm (e.g. GZIP, Brotli).")),
        algorithmIssues route [] compression.preferredAlgorithms,
        issueIf (8 < compression.eligibleContentTypes.length)
          (error (lit "compression.eligible_content_types") (lit "COMPRESSION_CONTENT_TYPES_LIMIT")
            (lit "eligible content types list exceeds the maximum runtime capacity (8)")
            (lit "Reduce content types matching or aggregate formats.")),
        compression.eligibleContentTypes.flatMap fun ct =>
          issueIf (64 < ct.length)
            (error (lit "compression.eligible_content_types")
              (lit "COMPRESSION_CONTENT_TYPE_TOO_LONG")
              (lit "content type name length exceeds maximum limit of 64 characters")
              (lit "Simplify content type selector name.")),
        issueIf (compression.alreadyEncodedBehavior ≠ .skip)
          (error (lit "compression.already_encoded_behavior")
            (lit "COMPRESSION_INVALID_ENCODED_BEHAVIOR")
            (lit "compression.already_encoded_behavior must be 'skip'")
            (lit "Change the encoding behavior setting to 'skip'.")) ]
  else []

/-! ## Coalescing -/

def coalescingTimeIssues : Issues :=
  let coalescing := route.coalescing
  let error := routeError .coalescing route
  List.flatten
    [ issueIf (coalescing.backendTimeoutMs = 0)
        (error (lit "coalescing.backend_timeout_ms") (lit "COALESCING_ZERO_TIMEOUT")
          (lit "backend_timeout_ms must be > 0")
          (lit "Assign a positive timeout value in milliseconds (e.g. 5000).")),
      issueIf (30000 < coalescing.backendTimeoutMs)
        (error (lit "coalescing.backend_timeout_ms") (lit "COALESCING_TIMEOUT_EXCEEDED")
          (lit "backend_timeout_ms must be <= 30000 (production maximum)")
          (lit "Reduce backend_timeout_ms within normal system limits.")),
      issueIf (coalescing.handoffBufferMs = 0)
        (error (lit "coalescing.handoff_buffer_ms") (lit "COALESCING_ZERO_HANDOFF")
          (lit "handoff_buffer_ms must be > 0") (lit "Assign a positive handoff buffer value.")),
      issueIf (5000 < coalescing.handoffBufferMs)
        (error (lit "coalescing.handoff_buffer_ms") (lit "COALESCING_HANDOFF_EXCEEDED")
          (lit "handoff_buffer_ms must be <= 5000")
          (lit "Reduce the handoff buffer to a safe system bound.")),
      issueIf (30000 < coalescing.backendTimeoutMs + coalescing.handoffBufferMs)
        (error (lit "coalescing") (lit "COALESCING_BUDGET_EXCEEDED")
          (lit "coalescing total wait budget (timeout + handoff) exceeds follower maximum (30000)")
          (lit "Rebalance coalescing timeouts or follower limits.")),
      issueIf (coalescing.backendTimeoutMs < coalescing.handoffBufferMs)
        (error (lit "coalescing.handoff_buffer_ms") (lit "COALESCING_HANDOFF_EXCEEDS_TIMEOUT")
          (lit "coalescing handoff_buffer_ms exceeds backend_timeout_ms")
          (lit "Set handoff_buffer_ms to be less than or equal to backend_timeout_ms.")),
      issueIf (coalescing.resultReadyRetentionMs < 10)
        (error (lit "coalescing.result_ready_retention_ms") (lit "COALESCING_RETENTION_TOO_SHORT")
          (lit "result_ready_retention_ms must be >= 10") (lit "Specify a larger retention time.")),
      issueIf (1000 < coalescing.resultReadyRetentionMs)
        (error (lit "coalescing.result_ready_retention_ms") (lit "COALESCING_RETENTION_EXCEEDED")
          (lit "result_ready_retention_ms must be <= 1000")
          (lit "Set retention within the 10-1000ms supported range.")),
      issueIf (coalescing.backendTimeoutMs ≤ coalescing.resultReadyRetentionMs)
        (error (lit "coalescing.result_ready_retention_ms")
          (lit "COALESCING_RETENTION_EXCEEDS_TIMEOUT")
          (lit "result_ready_retention_ms must be less than backend_timeout_ms")
          (lit "Reduce result_ready_retention_ms relative to backend_timeout_ms.")) ]

def coalescingLimitIssues : Issues :=
  let coalescing := route.coalescing
  let error := routeError .coalescing route
  List.flatten
    [ issueIf (coalescing.maxWaitersPerKey = 0)
        (error (lit "coalescing.max_waiters_per_key") (lit "COALESCING_ZERO_MAX_WAITERS")
          (lit "coalescing.max_waiters_per_key must be > 0")
          (lit "Set max waiters limit to a value greater than 0.")),
      issueIf (0 < coalescing.maxFollowerWaitBudgetMs &&
          coalescing.maxFollowerWaitBudgetMs < coalescing.handoffBufferMs)
        (error (lit "coalescing.max_follower_wait_budget_ms")
          (lit "COALESCING_FOLLOWER_BUDGET_TOO_LOW")
          (lit "coalescing max_follower_wait_budget_ms must be >= handoff_buffer_ms")
          (lit "Assign a compliant follower wait budget.")),
      issueIf (0 < coalescing.maxActiveFollowerWaiters &&
          coalescing.maxActiveFollowerWaiters < coalescing.maxActiveFollowerWaitersPerShard)
        (error (lit "coalescing.max_active_follower_waiters_per_shard")
          (lit "COALESCING_SHARD_EXCEEDS_GLOBAL")
          (lit "coalescing max_active_follower_waiters_per_shard must be <= max_active_follower_waiters")
          (lit "Align the shard level limits to be lower than global waiters limits.")),
      issueIf (coalescing.requireCacheEnabled && !route.cache.enabled)
        (error (lit "coalescing") (lit "COALESCING_MISSING_CACHE")
          (lit "coalescing requires cache to be enabled when require_cache_enabled is set")
          (lit "Enable cache inside this route policy block.")),
      issueIf (coalescing.allowAuthenticated && route.cache.privateCache.authScopeHeader.isEmpty)
        (error (lit "coalescing.allow_authenticated") (lit "COALESCING_AUTHENTICATED_MISSING_SCOPE")
          (lit "coalescing.allow_authenticated=true requires cache.auth_scope_header to be set")
          (lit "Configure private_cache auth_scope_header inside cache.")),
      issueIf (!readsOnly route)
        (error (lit "coalescing") (lit "COALESCING_INVALID_METHOD")
          (lit "coalescing only supported for GET or ANY routes")
          (lit "Remove coalescing block or change allowed_method to GET or ANY.")) ]

/-- The only mode is the cache-assisted one, so it is never refused. -/
def coalescingIssues : Issues :=
  if route.coalescing.enabled then coalescingTimeIssues route ++ coalescingLimitIssues route else []

/-! ## Mutation mode -/

def isBodyTransformEnabled : Bool :=
  route.fieldFilter.mode ≠ .none || route.pagination.enabled || route.compression.enabled ||
    storesResponses route || route.coalescing.enabled

def headersOnlyIssue (code reason hint : Text) : TqPolicyValidationIssue :=
  routeError .crossFeature route (lit "mutation") code reason hint

def crossFeatureIssues : Issues :=
  if isBodyTransformEnabled route then
    match route.mutation with
    | .full => []
    | .disabled =>
      [{ routeError .crossFeature route (lit "mutation") (lit "OBSERVE_MODE_WARNING")
          (lit "feature block declared while mutation=disabled; observe-only behavior expected")
          (lit "Be aware that this route runs strictly as dry-run/warnings only.") with
        severity := .warning }]
    | .headersOnly =>
      List.flatten
        [ issueIf (route.fieldFilter.mode ≠ .none)
            (headersOnlyIssue route (lit "HEADERS_ONLY_WITH_FIELD_FILTER")
              (lit "field_filter cannot be combined with headers-only mutation mode")
              (lit "Use mutation=full or remove field filters.")),
          issueIf route.pagination.enabled
            (headersOnlyIssue route (lit "HEADERS_ONLY_WITH_PAGINATION")
              (lit "pagination cannot be combined with headers-only mutation mode")
              (lit "Use mutation=full or remove pagination.")),
          issueIf route.compression.enabled
            (headersOnlyIssue route (lit "HEADERS_ONLY_WITH_COMPRESSION")
              (lit "compression cannot be combined with headers-only mutation mode")
              (lit "Use mutation=full or remove compression.")),
          issueIf (storesResponses route)
            (headersOnlyIssue route (lit "HEADERS_ONLY_WITH_CACHE_STORE")
              (lit "cache store cannot be combined with headers-only mutation mode")
              (lit "Use mutation=full or change cache behavior to bypass.")),
          issueIf route.coalescing.enabled
            (headersOnlyIssue route (lit "HEADERS_ONLY_WITH_COALESCING")
              (lit "coalescing cannot be combined with headers-only mutation mode")
              (lit "Use mutation=full or remove coalescing.")) ]
  else []

/-- What the checks of a route report. -/
def routeIssues : Issues :=
  List.flatten
    [ matchIssues route, cacheIssues strict route, invalidationIssues route,
      fieldFilterIssues strict route, fieldVariantIssues route, paginationIssues route,
      compressionIssues route, coalescingIssues route, crossFeatureIssues route ]

/-! ## Documents -/

variable (policy : PolicyIr) (options : TqPolicyValidationOptions)

def documentIssues : Issues :=
  issueIf (strict && policy.documentId.isEmpty)
    { subsystem := .document, fieldPath := lit "document_id", code := lit "MISSING_DOCUMENT_ID"
      reason := lit "document_id is required in strict production mode"
      hint := lit "Set a unique string document_id in the policy document." } ++
    issueIf (strict && policy.routes.isEmpty)
      { subsystem := .document, fieldPath := lit "routes", code := lit "EMPTY_ROUTES_LIST"
        reason := lit "route list must not be empty in strict production mode"
        hint := lit "Add at least one route block to the policy document." }

def isSupportedSourceSchemaVersion (version : Text) : Bool :=
  version = lit "tq/v1" || version = lit "yaml/v1"

def versionIssue (field reason : Text) : TqPolicyValidationIssue where
  subsystem := .version
  fieldPath := field
  code := lit "UNSUPPORTED_VERSION_PARAMETER"
  reason := reason
  hint := lit "Specify compliant/supported version identifiers."

def versionIssues (info : TqPolicyVersionInfo) : Issues :=
  issueIf (!isSupportedSourceSchemaVersion info.sourceSchemaVersion)
    (versionIssue (lit "version.source_schema_version") (lit "unsupported source schema version")) ++
    issueIf (info.policyIrVersion ≠ kCurrentPolicyIrVersion)
      (versionIssue (lit "version.policy_ir_version") (lit "unsupported policy IR version")) ++
    issueIf (info.identityVersion ≠ kCurrentPolicyIdentityVersion)
      (versionIssue (lit "version.identity_version") (lit "unsupported policy identity version"))

def duplicateIdIssue (routeId : Text) : TqPolicyValidationIssue where
  subsystem := .crossRoute
  routeId := routeId
  fieldPath := lit "route_id"
  code := lit "DUPLICATE_ROUTE_ID"
  reason := lit "duplicate route id '" ++ routeId ++ lit "' is rejected"
  hint := lit "Assign a unique route_id for each route."

def duplicateIdIssues : List TqRoutePolicy → Issues
  | [] => []
  | r1 :: later =>
    ((later.filter fun r2 => !r1.routeId.isEmpty && r1.routeId = r2.routeId).map fun r2 =>
      duplicateIdIssue r2.routeId) ++ duplicateIdIssues later

/-- A target without id is refused by the checks of its route. -/
def targetRouteIssues (routes : List TqRoutePolicy) (route : TqRoutePolicy)
    (target : TqCacheInvalidationTarget) : Issues :=
  let error := routeError .crossRoute route (lit "cache.invalidation.targets")
  if target.routeId.isEmpty then []
  else
    match routes.find? (·.routeId == target.routeId) with
    | none =>
      [error (lit "INVALIDATION_TARGET_NOT_FOUND")
        (lit "invalidation target route id '" ++ target.routeId ++
          lit "' does not exist in document")
        (lit "Ensure target route_id matches an existing route_id.")]
    | some targetRoute =>
      issueIf (!storesResponses targetRoute)
        (error (lit "INVALIDATION_TARGET_NOT_CACHEABLE")
          (lit "invalidation target route '" ++ target.routeId ++
            lit "' must have cache.enabled=true and behavior=Store")
          (lit "Enable caching with store behavior on the target route.")) ++
        issueIf (targetRoute.allowedMethod ≠ .get)
          (error (lit "INVALIDATION_TARGET_NOT_GET")
            (lit "invalidation target route '" ++ target.routeId ++ lit "' must be a GET route")
            (lit "invalidation target route must be a cacheable GET route"))

def targetIssues (routes : List TqRoutePolicy) (route : TqRoutePolicy) :
    Issues :=
  if route.cache.invalidation.enabled then
    route.cache.invalidation.targets.flatMap (targetRouteIssues routes route)
  else []

/-- A kind that the switch does not name has no code. -/
def analysisCode : TqRouteAnalysisKind → Text
  | .duplicateRouteId => lit "ROUTE_ANALYSIS_DUPLICATE_ID"
  | .duplicateExactMatch => lit "ROUTE_ANALYSIS_DUPLICATE_EXACT_MATCH"
  | .equivalentPrefixMatch => lit "ROUTE_ANALYSIS_EQUIVALENT_PREFIX_MATCH"
  | .prefixShadowsPrefix => lit "ROUTE_ANALYSIS_PREFIX_SHADOWS_PREFIX"
  | .prefixShadowsExact => lit "ROUTE_ANALYSIS_PREFIX_SHADOWS_EXACT"
  | .earlierRouteWins => lit "ROUTE_ANALYSIS_EARLIER_ROUTE_WINS"
  | .sharedL2CachePath => lit "ROUTE_ANALYSIS_SHARED_L2_PATH"
  | _ => []

def analysisIssue (finding : TqRouteAnalysisFinding) : TqPolicyValidationIssue where
  severity := if finding.severity = .error then .error else .warning
  subsystem := .crossRoute
  routeId := finding.routeId
  fieldPath := finding.fieldPath
  code := analysisCode finding.kind
  reason := finding.reason
  hint := finding.hint

/-- What the checks of a document report. -/
def policyIssues : Issues :=
  List.flatten
    [ documentIssues strict policy, versionIssues policy.version,
      policy.routes.flatMap (routeIssues strict), duplicateIdIssues policy.routes,
      policy.routes.flatMap (targetIssues policy.routes),
      (analyzeTaperqueryRoutePrecedence policy).findings.map analysisIssue ]

def validateTaperqueryPolicyIr : TqPolicyValidationResult :=
  validationResult options (policyIssues options.strictProduction policy)

/-! ## What is accepted -/

def hasError (issues : Issues) : Bool := issues.any (·.isError)

section HasError

variable {issues : Issues}

@[simp] theorem hasError_nil : hasError [] = false := rfl

@[simp] theorem hasError_cons (issue : TqPolicyValidationIssue) :
    hasError (issue :: issues) = (issue.isError || hasError issues) := rfl

@[simp] theorem hasError_append (others : Issues) :
    hasError (issues ++ others) = (hasError issues || hasError others) := List.any_append

@[simp] theorem hasError_issueIf (failed : Bool) (issue : TqPolicyValidationIssue) :
    hasError (issueIf failed issue) = (failed && issue.isError) := by
  cases failed <;> simp [issueIf]

@[simp] theorem hasError_flatMap {α : Type} (values : List α) (report : α → Issues) :
    hasError (values.flatMap report) = values.any fun value => hasError (report value) := by
  induction values with
  | nil => rfl
  | cons _ _ ih => simp [ih]

@[simp] theorem isError_routeError (subsystem : TqPolicyValidationSubsystem) (route : TqRoutePolicy)
    (fieldPath code reason hint : Text) :
    (routeError subsystem route fieldPath code reason hint).isError := rfl

/-- The options say what is reported, not what is accepted. -/
theorem validateTaperqueryPolicyIr_ok :
    (validateTaperqueryPolicyIr policy options).ok =
      !hasError (policyIssues options.strictProduction policy) := by
  have hkept : ∀ issues, hasError (addIssues options issues) = hasError issues := by
    intro issues
    induction issues with
    | nil => rfl
    | cons _ _ ih =>
      unfold addIssues
      split_ifs with hleft hlast
      · simp [hleft.1, ih]
      · simp [hlast.1]
      · simp [ih]
  exact congrArg not (hkept _)

/-- Every route of an accepted policy is accepted. -/
theorem routeIssues_of_ok {policy options} (h : (validateTaperqueryPolicyIr policy options).ok)
    {route : TqRoutePolicy} (hmem : route ∈ policy.routes) :
    hasError (routeIssues options.strictProduction route) = false := by
  rw [validateTaperqueryPolicyIr_ok] at h
  simp only [policyIssues, List.flatten_cons, hasError_append, hasError_flatMap, Bool.not_eq_true',
    Bool.or_eq_false_iff, List.any_eq_false] at h
  simpa using h.2.2.1 route hmem

end HasError

end ByteTaper.TaperQuery
