import ByteTaper.JsonTransform.FlatJson
import ByteTaper.Policy.PolicyIdentity
import ByteTaper.TaperQuery.RoutePolicyIr
import Mathlib.Logic.Equiv.Defs

/-! # Routes at run time

The two conversions of `policy_snapshot.cpp`, between a route of a policy document and the route policy
that requests are served with. The runtime form has buffers of fixed sizes and counts whole seconds:
a text that does not fit is cut, and values beyond the last slot are left out. -/

namespace ByteTaper.Runtime

open List
open JsonTransform (cString)
open Policy TaperQuery

/-! ## Buffers -/

def kMaxCachePathLen : Nat := 256
def kMaxCacheVaryHeaders : Nat := 8
def kMaxCacheVaryHeaderNameLen : Nat := 64
def kMaxAuthScopeHeaderLen : Nat := 64
def kMaxCacheInvalidationTargets : Nat := 8
def kMaxRouteIdLen : Nat := 64
def kMaxPaginationParamLen : Nat := 32
def kMaxEligibleContentTypes : Nat := 8
def kMaxContentTypeLen : Nat := 64
def kMaxCompressionAlgorithms : Nat := 4

/-- `strncpy` into a buffer of `size` bytes that keeps its terminator. -/
def cutTo (size : Nat) (t : Text) : Text := (cString t).take (size - 1)

theorem length_cutTo_lt {size : Nat} (hsize : 0 < size) (t : Text) : (cutTo size t).length < size := by
  rw [cutTo, length_take]
  omega

/-- A text that a buffer of `size` bytes holds with its terminator. -/
def FitsIn (size : Nat) (t : Text) : Prop := t.length < size ∧ '\x00' ∉ t

instance (size : Nat) (t : Text) : Decidable (FitsIn size t) := instDecidableAnd

theorem nul_notMem_cString (t : Text) : '\x00' ∉ cString t := by
  intro hmem
  simpa using mem_takeWhile_imp hmem

theorem cString_eq_self_iff (t : Text) : cString t = t ↔ '\x00' ∉ t := by
  constructor
  · intro h
    exact h ▸ nul_notMem_cString t
  · intro h
    refine takeWhile_eq_self_iff.mpr fun c hc => ?_
    have hne : c ≠ '\x00' := fun hnul => h (hnul ▸ hc)
    simpa using hne

theorem fitsIn_cutTo {size : Nat} (hsize : 0 < size) (t : Text) : FitsIn size (cutTo size t) :=
  ⟨length_cutTo_lt hsize t, fun hmem => nul_notMem_cString t (mem_of_mem_take hmem)⟩

theorem cutTo_eq_self_iff {size : Nat} (hsize : 0 < size) (t : Text) :
    cutTo size t = t ↔ FitsIn size t := by
  constructor
  · intro h
    exact h ▸ fitsIn_cutTo hsize t
  · intro h
    rw [cutTo, (cString_eq_self_iff t).mpr h.2]
    exact take_of_length_le (by have := h.1; omega)

/-! ## Enumerations

`static_cast` between two enumerations that have the same values in the same order. -/

def matchKindCast : TqRouteMatchKind ≃ RouteMatchKind where
  toFun
    | .prefixMatch => .prefixMatch
    | .exactMatch => .exactMatch
  invFun
    | .prefixMatch => .prefixMatch
    | .exactMatch => .exactMatch
  left_inv kind := by cases kind <;> rfl
  right_inv kind := by cases kind <;> rfl

def mutationCast : TqMutationMode ≃ MutationMode where
  toFun
    | .disabled => .disabled
    | .headersOnly => .headersOnly
    | .full => .full
  invFun
    | .disabled => .disabled
    | .headersOnly => .headersOnly
    | .full => .full
  left_inv mode := by cases mode <;> rfl
  right_inv mode := by cases mode <;> rfl

def methodCast : TqHttpMethod ≃ HttpMethod where
  toFun
    | .any => .any
    | .get => .get
    | .post => .post
    | .put => .put
    | .delete => .delete
    | .patch => .patch
  invFun
    | .any => .any
    | .get => .get
    | .post => .post
    | .put => .put
    | .delete => .delete
    | .patch => .patch
  left_inv method := by cases method <;> rfl
  right_inv method := by cases method <;> rfl

def filterModeCast : TqFieldFilterMode ≃ FieldFilterMode where
  toFun
    | .none => .none
    | .allowlist => .allowlist
    | .denylist => .denylist
  invFun
    | .none => .none
    | .allowlist => .allowlist
    | .denylist => .denylist
  left_inv mode := by cases mode <;> rfl
  right_inv mode := by cases mode <;> rfl

def behaviorCast : TqCacheBehavior ≃ CacheBehavior where
  toFun
    | .default => .default
    | .bypass => .bypass
    | .store => .store
  invFun
    | .default => .default
    | .bypass => .bypass
    | .store => .store
  left_inv behavior := by cases behavior <;> rfl
  right_inv behavior := by cases behavior <;> rfl

def strategyCast : TqCacheInvalidationStrategy ≃ CacheInvalidationStrategy where
  toFun
    | .routeEpoch => .routeEpoch
    | .exactKey => .exactKey
    | .keyPrefix => .keyPrefix
  invFun
    | .routeEpoch => .routeEpoch
    | .exactKey => .exactKey
    | .keyPrefix => .keyPrefix
  left_inv strategy := by cases strategy <;> rfl
  right_inv strategy := by cases strategy <;> rfl

def failureModeCast : TqFailureMode ≃ FailureMode where
  toFun
    | .failOpen => .failOpen
    | .failClosed => .failClosed
  invFun
    | .failOpen => .failOpen
    | .failClosed => .failClosed
  left_inv mode := by cases mode <;> rfl
  right_inv mode := by cases mode <;> rfl

def paginationModeCast : TqPaginationMode ≃ PaginationMode where
  toFun
    | .none => .none
    | .limitOffset => .limitOffset
    | .cursor => .cursor
  invFun
    | .none => .none
    | .limitOffset => .limitOffset
    | .cursor => .cursor
  left_inv mode := by cases mode <;> rfl
  right_inv mode := by cases mode <;> rfl

def algorithmCast : TqCompressionAlgorithm ≃ CompressionAlgorithm where
  toFun
    | .none => .none
    | .gzip => .gzip
    | .brotli => .brotli
    | .zstd => .zstd
  invFun
    | .none => .none
    | .gzip => .gzip
    | .brotli => .brotli
    | .zstd => .zstd
  left_inv algorithm := by cases algorithm <;> rfl
  right_inv algorithm := by cases algorithm <;> rfl

def encodedBehaviorCast : TqAlreadyEncodedBehavior ≃ AlreadyEncodedBehavior where
  toFun
    | .skip => .skip
    | .passthrough => .passthrough
  invFun
    | .skip => .skip
    | .passthrough => .passthrough
  left_inv behavior := by cases behavior <;> rfl
  right_inv behavior := by cases behavior <;> rfl

/-! ## To the runtime form -/

theorem length_map_take_le {α β : Type} (f : α → β) (n : Nat) (l : List α) :
    ((l.take n).map f).length ≤ n := by
  rw [length_map]
  exact length_take_le n l

def fieldFilterToRuntime (filter : TqFieldFilterPolicy) : FieldFilterPolicy where
  mode := filterModeCast filter.mode
  fields := (filter.fields.take kMaxFields).map fun field =>
    ⟨cutTo kMaxFieldNameLen field, length_cutTo_lt (Nat.succ_pos 63) field⟩
  fits := length_map_take_le _ _ _

def fieldVariantToRuntime (variant : TqFieldVariantCachePolicy) : FieldVariantCachePolicy where
  enabled := variant.enabled
  maxVariantsPerRoute := variant.maxVariantsPerRoute
  minFieldCount := variant.minFieldCount
  maxFieldCount := variant.maxFieldCount
  admissionThreshold := variant.admissionThreshold
  ttlMaxMs := variant.ttlMaxMs

def targetToRuntime (target : TqCacheInvalidationTarget) : CacheInvalidationTargetPolicy where
  routeId := cutTo kMaxRouteIdLen target.routeId
  strategy := strategyCast target.strategy

/-- Every timing becomes the only one that there is. -/
def invalidationToRuntime (invalidation : TqCacheInvalidationPolicy) : CacheInvalidationPolicy where
  enabled := invalidation.enabled
  onPatch := lit "PATCH" ∈ invalidation.onMethods
  onPut := lit "PUT" ∈ invalidation.onMethods
  onDelete := lit "DELETE" ∈ invalidation.onMethods
  successStatusMin := invalidation.successStatusMin
  successStatusMax := invalidation.successStatusMax
  targets := (invalidation.targets.take kMaxCacheInvalidationTargets).map targetToRuntime

def cacheToRuntime (cache : TqCachePolicy) : CachePolicy where
  enabled := cache.enabled
  behavior := behaviorCast cache.behavior
  ttlSeconds := cache.ttlMs / 1000
  l1 := { enabled := cache.l1.enabled, capacityEntries := cache.l1.capacityEntries }
  l2 := { enabled := cache.l2.enabled, path := cutTo kMaxCachePathLen cache.l2.path }
  privateCache := cache.privateCache.enabled
  authScopeHeader := cutTo kMaxAuthScopeHeaderLen cache.privateCache.authScopeHeader
  fieldVariant := fieldVariantToRuntime cache.fieldVariant
  varyHeaders :=
    (cache.varyHeaders.names.take kMaxCacheVaryHeaders).map (cutTo kMaxCacheVaryHeaderNameLen)
  invalidation := invalidationToRuntime cache.invalidation

def paginationToRuntime (pagination : TqPaginationPolicy) : PaginationPolicy where
  enabled := pagination.enabled
  mode := paginationModeCast pagination.mode
  limitParam := cutTo kMaxPaginationParamLen pagination.limitParam
  offsetParam := cutTo kMaxPaginationParamLen pagination.offsetParam
  defaultLimit := pagination.defaultLimit
  maxLimit := pagination.maxLimit
  upstreamSupportsPagination := pagination.upstreamSupportsPagination
  maxResponseBytesWarning := pagination.maxResponseBytesWarning

def compressionToRuntime (compression : TqCompressionPolicy) : CompressionPolicy where
  enabled := compression.enabled
  minSizeBytes := compression.minSizeBytes
  eligibleContentTypes :=
    (compression.eligibleContentTypes.take kMaxEligibleContentTypes).map (cutTo kMaxContentTypeLen)
  preferredAlgorithms :=
    (compression.preferredAlgorithms.take kMaxCompressionAlgorithms).map algorithmCast
  alreadyEncodedBehavior := encodedBehaviorCast compression.alreadyEncodedBehavior

def coalescingToRuntime (coalescing : TqCoalescingPolicy) : CoalescingPolicy where
  enabled := coalescing.enabled
  backendTimeoutMs := coalescing.backendTimeoutMs
  handoffBufferMs := coalescing.handoffBufferMs
  resultReadyRetentionMs := coalescing.resultReadyRetentionMs
  maxWaitersPerKey := coalescing.maxWaitersPerKey
  requireCacheEnabled := coalescing.requireCacheEnabled
  allowAuthenticated := coalescing.allowAuthenticated
  maxFollowerWaitBudgetMs := coalescing.maxFollowerWaitBudgetMs
  maxActiveFollowerWaiters := coalescing.maxActiveFollowerWaiters
  maxActiveFollowerWaitersPerShard := coalescing.maxActiveFollowerWaitersPerShard

def convertTqRoutePolicyToRuntime (ir : TqRoutePolicy) : RoutePolicy :=
  copyRoutePolicyIdentityV2ToLegacySlot
    { routeId := some (cString ir.routeId)
      matchPrefix := some (cString ir.matchPrefix)
      matchKind := matchKindCast ir.matchKind
      mutation := mutationCast ir.mutation
      allowedMethod := methodCast ir.allowedMethod
      fieldFilter := fieldFilterToRuntime ir.fieldFilter
      maxResponseBytes := ir.maxResponseBytes
      cache := cacheToRuntime ir.cache
      failureMode := failureModeCast ir.failureMode
      pagination := paginationToRuntime ir.pagination
      compression := compressionToRuntime ir.compression
      coalescing := coalescingToRuntime ir.coalescing }

/-! ## Back to the document -/

def fieldFilterToTq (filter : FieldFilterPolicy) : TqFieldFilterPolicy where
  mode := filterModeCast.symm filter.mode
  fields := filter.fields.map (·.val)

def fieldVariantToTq (variant : FieldVariantCachePolicy) : TqFieldVariantCachePolicy where
  enabled := variant.enabled
  maxVariantsPerRoute := variant.maxVariantsPerRoute
  minFieldCount := variant.minFieldCount
  maxFieldCount := variant.maxFieldCount
  admissionThreshold := variant.admissionThreshold
  ttlMaxMs := variant.ttlMaxMs

def targetToTq (target : CacheInvalidationTargetPolicy) : TqCacheInvalidationTarget where
  routeId := target.routeId
  strategy := strategyCast.symm target.strategy

/-- The methods of the flags, in the order of the flags. -/
def methodNames (onPatch onPut onDelete : Bool) : List Text :=
  (if onPatch then [lit "PATCH"] else []) ++ (if onPut then [lit "PUT"] else []) ++
    (if onDelete then [lit "DELETE"] else [])

def afterSuccessfulUpstreamResponse : Text := lit "after_successful_upstream_response"

def invalidationToTq (invalidation : CacheInvalidationPolicy) : TqCacheInvalidationPolicy where
  enabled := invalidation.enabled
  onMethods := methodNames invalidation.onPatch invalidation.onPut invalidation.onDelete
  timing := afterSuccessfulUpstreamResponse
  successStatusMin := invalidation.successStatusMin
  successStatusMax := invalidation.successStatusMax
  targets := invalidation.targets.map targetToTq

def cacheToTq (cache : CachePolicy) : TqCachePolicy where
  behavior := behaviorCast.symm cache.behavior
  ttlMs := cache.ttlSeconds * 1000
  enabled := cache.enabled
  l1 := { enabled := cache.l1.enabled, capacityEntries := cache.l1.capacityEntries }
  l2 := { enabled := cache.l2.enabled, path := cache.l2.path }
  privateCache := { enabled := cache.privateCache, authScopeHeader := cache.authScopeHeader }
  fieldVariant := fieldVariantToTq cache.fieldVariant
  varyHeaders := { names := cache.varyHeaders }
  invalidation := invalidationToTq cache.invalidation

def paginationToTq (pagination : PaginationPolicy) : TqPaginationPolicy where
  enabled := pagination.enabled
  mode := paginationModeCast.symm pagination.mode
  limitParam := pagination.limitParam
  offsetParam := pagination.offsetParam
  defaultLimit := pagination.defaultLimit
  maxLimit := pagination.maxLimit
  upstreamSupportsPagination := pagination.upstreamSupportsPagination
  maxResponseBytesWarning := pagination.maxResponseBytesWarning

def compressionToTq (compression : CompressionPolicy) : TqCompressionPolicy where
  enabled := compression.enabled
  minSizeBytes := compression.minSizeBytes
  eligibleContentTypes := compression.eligibleContentTypes
  preferredAlgorithms := compression.preferredAlgorithms.map algorithmCast.symm
  alreadyEncodedBehavior := encodedBehaviorCast.symm compression.alreadyEncodedBehavior

def coalescingToTq (coalescing : CoalescingPolicy) : TqCoalescingPolicy where
  enabled := coalescing.enabled
  backendTimeoutMs := coalescing.backendTimeoutMs
  handoffBufferMs := coalescing.handoffBufferMs
  resultReadyRetentionMs := coalescing.resultReadyRetentionMs
  maxWaitersPerKey := coalescing.maxWaitersPerKey
  requireCacheEnabled := coalescing.requireCacheEnabled
  allowAuthenticated := coalescing.allowAuthenticated
  maxFollowerWaitBudgetMs := coalescing.maxFollowerWaitBudgetMs
  maxActiveFollowerWaiters := coalescing.maxActiveFollowerWaiters
  maxActiveFollowerWaitersPerShard := coalescing.maxActiveFollowerWaitersPerShard

def convertRuntimeRoutePolicyToTq (route : RoutePolicy) : TqRoutePolicy where
  routeId := route.routeId.getD []
  matchPrefix := route.matchPrefix.getD []
  matchKind := matchKindCast.symm route.matchKind
  mutation := mutationCast.symm route.mutation
  allowedMethod := methodCast.symm route.allowedMethod
  fieldFilter := fieldFilterToTq route.fieldFilter
  maxResponseBytes := route.maxResponseBytes
  cache := cacheToTq route.cache
  failureMode := failureModeCast.symm route.failureMode
  pagination := paginationToTq route.pagination
  compression := compressionToTq route.compression
  coalescing := coalescingToTq route.coalescing

end ByteTaper.Runtime
