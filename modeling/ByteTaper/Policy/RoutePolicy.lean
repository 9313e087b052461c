import ByteTaper.Library.Text

/-! # Route policies

The types of a route policy that requests, responses and the caches share. -/

namespace ByteTaper.Policy

inductive HttpMethod where
  | any | get | post | put | delete | patch
deriving DecidableEq

def kMaxFields : Nat := 16
def kMaxFieldNameLen : Nat := 64

/-- A field name in a buffer of `kMaxFieldNameLen` bytes that also holds its terminator. -/
abbrev FieldName := { name : Text // name.length < kMaxFieldNameLen }

/-! ## Field filters -/

inductive FieldFilterMode where
  | none | allowlist | denylist
deriving DecidableEq

structure FieldFilterPolicy where
  mode : FieldFilterMode := .none
  fields : List FieldName := []
  fits : fields.length ≤ kMaxFields := by first | exact Nat.zero_le _ | decide

/-- Whether a field of this name is kept. -/
def applyFieldFilter (filter : FieldFilterPolicy) (fieldName : Text) : Bool :=
  if filter.mode = .none then true
  else if filter.fields.any (·.val == fieldName) then filter.mode = .allowlist
  else filter.mode = .denylist

structure FieldVariantCachePolicy where
  enabled : Bool := false
  maxVariantsPerRoute : UInt32 := 8
  minFieldCount : UInt32 := 1
  maxFieldCount : UInt32 := 8
  admissionThreshold : UInt32 := 2
  ttlMaxMs : UInt32 := 0

/-! ## Caching -/

inductive CacheBehavior where
  | default | bypass | store
deriving DecidableEq

structure CacheL1Policy where
  enabled : Bool := false
  capacityEntries : UInt32 := 0

structure CacheL2Policy where
  enabled : Bool := false
  path : Text := []

inductive CacheInvalidationStrategy where
  | routeEpoch | exactKey | keyPrefix
deriving DecidableEq

structure CacheInvalidationTargetPolicy where
  routeId : Text := []
  strategy : CacheInvalidationStrategy := .routeEpoch

/-- The only timing is `AfterSuccessfulUpstreamResponse`, so it is left out. -/
structure CacheInvalidationPolicy where
  enabled : Bool := false
  onPatch : Bool := false
  onPut : Bool := false
  onDelete : Bool := false
  successStatusMin : UInt16 := 200
  successStatusMax : UInt16 := 299
  targets : List CacheInvalidationTargetPolicy := []

structure CachePolicy where
  behavior : CacheBehavior := .default
  ttlSeconds : UInt32 := 0
  enabled : Bool := false
  l1 : CacheL1Policy := {}
  l2 : CacheL2Policy := {}
  privateCache : Bool := false
  authScopeHeader : Text := []
  fieldVariant : FieldVariantCachePolicy := {}
  varyHeaders : List Text := []
  invalidation : CacheInvalidationPolicy := {}

/-! ## Compression, pagination and coalescing -/

inductive CompressionAlgorithm where
  | none | gzip | brotli | zstd
deriving DecidableEq

inductive AlreadyEncodedBehavior where
  | skip | passthrough
deriving DecidableEq

structure CompressionPolicy where
  enabled : Bool := false
  minSizeBytes : UInt32 := 0
  eligibleContentTypes : List Text := []
  preferredAlgorithms : List CompressionAlgorithm := []
  alreadyEncodedBehavior : AlreadyEncodedBehavior := .skip

inductive PaginationMode where
  | none | limitOffset | cursor
deriving DecidableEq

structure PaginationPolicy where
  enabled : Bool := false
  mode : PaginationMode := .none
  limitParam : Text := Text.lit "limit"
  offsetParam : Text := Text.lit "offset"
  defaultLimit : UInt32 := 0
  maxLimit : UInt32 := 0
  upstreamSupportsPagination : Bool := false
  maxResponseBytesWarning : UInt32 := 0

/-- The only coalescing mode is `CacheAssisted`, so it is left out. -/
structure CoalescingPolicy where
  enabled : Bool := false
  backendTimeoutMs : UInt32 := 500
  handoffBufferMs : UInt32 := 250
  resultReadyRetentionMs : UInt32 := 50
  maxWaitersPerKey : UInt32 := 64
  requireCacheEnabled : Bool := true
  allowAuthenticated : Bool := false
  maxFollowerWaitBudgetMs : UInt32 := 0
  maxActiveFollowerWaiters : UInt32 := 0
  maxActiveFollowerWaitersPerShard : UInt32 := 0

/-! ## Routes -/

inductive RouteMatchKind where
  | prefixMatch | exactMatch
deriving DecidableEq

inductive MutationMode where
  | disabled | headersOnly | full
deriving DecidableEq

inductive FailureMode where
  | failOpen | failClosed
deriving DecidableEq

structure RoutePolicy where
  routeId : Option Text := none
  policyIdentity : Text := []
  matchKind : RouteMatchKind := .prefixMatch
  matchPrefix : Option Text := none
  mutation : MutationMode := .disabled
  allowedMethod : HttpMethod := .any
  fieldFilter : FieldFilterPolicy := {}
  maxResponseBytes : UInt32 := 0
  cache : CachePolicy := {}
  failureMode : FailureMode := .failOpen
  pagination : PaginationPolicy := {}
  compression : CompressionPolicy := {}
  coalescing : CoalescingPolicy := {}

/-- The size is taken as a 32-bit number. -/
def exceedsMaxResponseBytes (policy : RoutePolicy) (responseSize : Nat) : Bool :=
  if policy.maxResponseBytes = 0 then false
  else responseSize.toUInt32 > policy.maxResponseBytes

end ByteTaper.Policy
