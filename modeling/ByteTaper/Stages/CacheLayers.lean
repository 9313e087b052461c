import ByteTaper.Runtime.RouteCacheEpochStore
import ByteTaper.Stages.CacheStages

/-! # The keys of a request, and the stages of the two cache layers

The stages that prepare the keys of a request, admit its field variant, look its response up in L1 and
L2, and store the response to L1. A request has a raw key and, on a route with field variants, a variant
key; each stage has its own rule which of them it uses. The metrics are left out, and so are decoding
errors and errors of the disk, which are misses. -/

namespace ByteTaper.Stages

open Apg Cache FieldSelection Policy ByteTaper.Runtime

/-! ## Preparing the keys -/

/-- What the request headers say about caching besides the target. -/
structure CacheScope where
  cacheAuthBypass : Bool := false
  /-- `private_cache_scope_hash`, if it is ready. -/
  privateCacheScope : Option Text := none
  /-- The names of the vary headers and the hashes of their values, if they are ready. -/
  cacheVary : List (Text × Text) := []
deriving DecidableEq

section

variable (routeCacheEpochStore : Option RouteCacheEpochStore) (policy : RoutePolicy)
  (scope : CacheScope) (epoch : UInt64) (context : CacheContext)

def policyVersion : Option Text :=
  if policy.policyIdentity.isEmpty then policy.routeId else some policy.policyIdentity

def sanitizedQuery : Text :=
  if context.rawQuery.isEmpty then []
  else sanitizeQueryStripFieldsParam context.rawQuery kRawQueryBufferSize

/-- What the two keys of a request have in common. -/
def keyInput : CacheKeyInput where
  method := context.requestMethod
  routeId := policy.routeId
  path := some context.rawPath
  policyVersion := policyVersion policy
  routeCacheEpoch := epoch
  routeCacheEpochReady := true
  privateCache := policy.cache.privateCache
  authScope := if policy.cache.privateCache then scope.privateCacheScope else none
  varyHeaders := scope.cacheVary.map fun header =>
    { name := some header.1, valueHash := some header.2 }

/-- With field variants the raw key leaves the selection out. -/
def rawKeyInput : CacheKeyInput :=
  if policy.cache.fieldVariant.enabled then
    { keyInput policy scope epoch context with query := some (sanitizedQuery context) }
  else
    { keyInput policy scope epoch context with
      query := some context.rawQuery, selectedFields := context.selectedFields }

def variantKeyInput : CacheKeyInput :=
  { keyInput policy scope epoch context with
    query := some (sanitizedQuery context), selectedFields := context.selectedFields
    variant := true }

/-- `cache_key_prepare_stage`. -/
def cacheKeyPrepareStage : CacheContext × StageOutput :=
  let context := { context with cacheKey := none, variantCacheKey := none }
  match context.matchedPolicy with
  | none => (context, .goOn "no-policy")
  | some policy =>
    if policy.cache.behavior ≠ .store then (context, .goOn "cache-disabled")
    else if context.requestMethod ≠ .get then (context, .goOn "non-get")
    else if scope.cacheAuthBypass then (context, .goOn "auth-cache-bypass")
    else
      match routeCacheEpochStore.bind fun store =>
          policy.routeId.bind (routeCacheEpochGet store) with
      | none => (context, .goOn "route-epoch-not-ready")
      | some epoch =>
        if policy.cache.privateCache && scope.privateCacheScope.isNone then
          (context, .goOn "private-scope-not-ready")
        else
          match buildCacheKey (rawKeyInput policy scope epoch context) kCacheKeyMaxLen with
          | none => (context, .goOn "raw-key-build-failed")
          | some key =>
            ({ context with
                cacheKey := some key
                variantCacheKey :=
                  if policy.cache.fieldVariant.enabled then
                    buildCacheKey (variantKeyInput policy scope epoch context) kCacheKeyMaxLen
                  else none },
              .goOn "ready")

end

/-! ## Admitting a variant -/

structure VariantAdmissionEntry where
  key : Text
  routeId : Text
  count : UInt32
  admitted : Bool
deriving DecidableEq

def kAdmissionRouteIdSize : Nat := 64

/-- The registry of the process, which no entry ever leaves. -/
abbrev VariantAdmissionRegistry := List VariantAdmissionEntry

variable (registry : VariantAdmissionRegistry)

/-- The route has room for one more admitted variant. -/
def hasRoomFor (routeId : Text) (maxVariants : UInt32) : Bool :=
  (registry.countP fun entry => entry.routeId == routeId && entry.admitted).toUInt32 < maxVariants

/-- `record_and_check`: count the key, and tell whether it is admitted. -/
def recordAndCheck (routeId variantKey : Text) (maxVariants threshold : UInt32) :
    VariantAdmissionRegistry × Bool :=
  let room := hasRoomFor registry routeId maxVariants
  match registry.find? (·.key == variantKey) with
  | some entry =>
    let count := entry.count + 1
    let admitted := entry.admitted || (threshold ≤ count && room)
    (registry.replace entry { entry with count, admitted }, admitted)
  | none =>
    let admitted := threshold ≤ 1 && room
    (registry ++
      [{ key := variantKey.take (kCacheKeyMaxLen - 1)
         routeId := routeId.take (kAdmissionRouteIdSize - 1)
         count := 1, admitted }], admitted)

/-- `field_variant_admission_stage`. -/
def fieldVariantAdmissionStage (context : CacheContext) :
    VariantAdmissionRegistry × CacheContext × StageOutput :=
  let context := { context with variantAdmissionPassed := false }
  match context.variantCacheKey, context.matchedPolicy with
  | none, _ => (registry, context, .goOn "not-ready")
  | some _, none => (registry, context, .goOn "no-policy")
  | some key, some policy =>
    let variants := policy.cache.fieldVariant
    if !variants.enabled then (registry, context, .goOn "variant-policy-disabled")
    else if context.selectedFields.length < variants.minFieldCount.toNat then
      (registry, context, .goOn "below-min-fields")
    else if variants.maxFieldCount.toNat < context.selectedFields.length then
      (registry, context, .goOn "above-max-fields")
    else
      match recordAndCheck registry (policy.routeId.getD []) key variants.maxVariantsPerRoute
          variants.admissionThreshold with
      | (registry, true) =>
        (registry, { context with variantAdmissionPassed := true }, .goOn "admitted")
      | (registry, false) => (registry, context, .goOn "throttled")

/-! ## Looking up -/

/-- `cached_response` and `cache_layer`. -/
structure CacheHit where
  entry : CacheEntry
  layer : Text
deriving DecidableEq

/-- The rest of the pipeline is skipped. -/
def hitOutput (note : String) : StageOutput := { result := .skipRemaining, note := lit note }

section Hash

variable (hash : Text → UInt64) (l1 : Option L1Cache) (l2 : Option L2Store)
  (context : CacheContext)

/-- The lookup of a key in L1, which the raw and the variant stage share. -/
def lookupL1 (key : Option Text) (layer hitNote : String) : Option CacheHit × StageOutput :=
  match key, l1 with
  | none, _ => (none, .goOn "key-not-ready")
  | some _, none => (none, .goOn "no-l1-cache")
  | some key, some l1 =>
    match l1Get hash l1 key context.requestEpochMs kL2BodyBufSize with
    | none => (none, .goOn "l1-miss")
    | some entry => (some { entry, layer := lit layer }, hitOutput hitNote)

/-- `l1_cache_lookup_stage` looks at the raw key, whatever is selected. -/
def l1CacheLookupStage : Option CacheHit × StageOutput :=
  match context.matchedPolicy with
  | none => (none, .goOn "no-policy")
  | some policy =>
    if policy.cache.behavior ≠ .store then (none, .goOn "cache-disabled")
    else lookupL1 hash l1 context context.cacheKey "L1" "l1-hit"

/-- `l1_variant_lookup_stage`. -/
def l1VariantLookupStage : Option CacheHit × StageOutput :=
  match context.matchedPolicy with
  | none => (none, .goOn "no-policy")
  | some policy =>
    if policy.cache.behavior ≠ .store then (none, .goOn "cache-disabled")
    else if !policy.cache.fieldVariant.enabled then (none, .goOn "variant-policy-disabled")
    else lookupL1 hash l1 context context.variantCacheKey "L1_VAR" "l1-variant-hit"

/-- The key that the L2 stages use, and whether it is the variant key. -/
def l2LookupKey (policy : RoutePolicy) : Except String (Text × Bool) :=
  if context.selectsVariant policy then
    match context.variantCacheKey with
    | some key =>
      if context.variantAdmissionPassed then .ok (key, true)
      else .error "has-query-selection-not-admitted-skip"
    | none => .error "has-query-selection-not-admitted-skip"
  else
    match context.cacheKey with
    | some key => .ok (key, false)
    | none => .error "key-not-ready"

inductive L2GetResult where
  | hit (entry : CacheEntry)
  | miss | expired | bodyTooLargeForBuffer

/-- `l2_get_result`, with a buffer for the body. -/
def l2GetResult (l2 : L2Store) (key : Text) (nowMs : Int64) (bodyBufSize : Nat) : L2GetResult :=
  match l2 key with
  | none => .miss
  | some entry =>
    if bodyBufSize < entry.body.length then .bodyTooLargeForBuffer
    else if 0 < nowMs && !cacheTtlValid nowMs entry.expiresAtEpochMs then .expired
    else .hit entry

/-- `l2_cache_lookup_stage`, which followers run: a hit is put into L1 too. -/
def l2CacheLookupStage : Option L1Cache × Option CacheHit × StageOutput :=
  match context.matchedPolicy with
  | none => (l1, none, .goOn "no-policy")
  | some policy =>
    if policy.cache.behavior ≠ .store then (l1, none, .goOn "cache-disabled")
    else
      match l2 with
      | none => (l1, none, .goOn "no-l2-cache")
      | some l2 =>
        match l2LookupKey context policy with
        | .error note => (l1, none, .goOn note)
        | .ok (key, isVariant) =>
          match l2GetResult l2 key context.requestEpochMs kL2BodyBufSize with
          | .miss => (l1, none, .goOn "l2-miss")
          | .expired => (l1, none, .goOn "l2-expired")
          | .bodyTooLargeForBuffer => (l1, none, .goOn "l2-body-too-large-for-buffer")
          | .hit entry =>
            (l1.map fun l1 => l1Put hash l1 entry true,
              some { entry, layer := lit (if isVariant then "L2_VAR" else "L2") },
              hitOutput (if isVariant then "l2-variant-hit" else "l2-hit"))

/-- `l2_cache_async_lookup_enqueue_stage`, with the key of the job if it is enqueued; `accepts` is what
    `worker_queue_try_enqueue_lookup` answers, or `none` without a worker queue. -/
def l2CacheAsyncLookupEnqueueStage (cacheHit hasL2Cache : Bool) (accepts : Option Bool)
    (context : CacheContext) : Option Text × StageOutput :=
  if cacheHit then (none, .goOn "l1-hit-skip")
  else
    match context.matchedPolicy with
    | none => (none, .goOn "no-policy")
    | some policy =>
      if policy.cache.behavior ≠ .store then (none, .goOn "cache-disabled")
      else if !hasL2Cache then (none, .goOn "no-l2-cache")
      else
        match accepts with
        | none => (none, .goOn "no-worker-queue")
        | some accepts =>
          match l2LookupKey context policy with
          | .error note => (none, .goOn note)
          | .ok (key, _) =>
            if accepts then (some key, .goOn "enqueued") else (none, .goOn "enqueue-failed")

def kAsyncL2MaxBodySize : Nat := 65536

/-- `execute_lookup_job`, as far as it acts on L1: what L2 has is put into L1 unless L1 has newer. -/
def executeLookupJob (key : Text) (nowMs : Int64) : Option L1Cache :=
  match l2 with
  | none => l1
  | some l2 =>
    match l2GetResult l2 key nowMs kAsyncL2MaxBodySize with
    | .hit entry => l1.map fun l1 => (l1PutIfNewer hash l1 entry true).1
    | .miss | .expired | .bodyTooLargeForBuffer => l1

/-! ## Storing to L1 -/

/-- The put of a response into L1, which the raw and the variant stage share. -/
def storeL1 (l1 : L1Cache) (context : CacheContext) (entry : CacheEntry) : L1Cache × StageOutput :=
  (l1Put hash l1 entry true,
    .goOn (if kL1MaxBodySize < context.responseBody.length then "body-too-large-for-l1"
      else "stored"))

/-- `l1_cache_store_stage`. -/
def l1CacheStoreStage : Option L1Cache × StageOutput :=
  match context.matchedPolicy with
  | none => (l1, .goOn "no-policy")
  | some policy =>
    if context.selectsVariant policy then (l1, .goOn "has-query-selection")
    else if policy.cache.behavior ≠ .store then (l1, .goOn "cache-disabled")
    else if context.requestMethod ≠ .get then (l1, .goOn "non-get")
    else if !context.is2xx then (l1, .goOn "non-2xx")
    else if context.responseBody.isEmpty then (l1, .goOn "no-body")
    else if policy.cache.ttlSeconds = 0 then (l1, .goOn "no-ttl")
    else
      match l1, context.cacheKey with
      | none, _ => (none, .goOn "no-l1-cache")
      | some l1, none => (some l1, .goOn "key-not-ready")
      | some l1, some key =>
        let stored := storeL1 hash l1 context (responseEntry context key (ttlMs policy))
        (some stored.1, stored.2)

/-- `l1_variant_store_stage`, which leaves the figures about the unfiltered body out. -/
def l1VariantStoreStage : Option L1Cache × StageOutput :=
  match context.matchedPolicy with
  | none => (l1, .goOn "no-policy")
  | some policy =>
    if !policy.cache.fieldVariant.enabled then (l1, .goOn "variant-policy-disabled")
    else if context.requestMethod ≠ .get then (l1, .goOn "non-get")
    else if !context.is2xx then (l1, .goOn "non-2xx")
    else if context.responseBody.isEmpty then (l1, .goOn "no-body")
    else if !context.variantAdmissionPassed then (l1, .goOn "not-admitted")
    else
      match l1, context.variantCacheKey with
      | none, _ => (none, .goOn "no-l1-cache")
      | some l1, none => (some l1, .goOn "key-not-ready")
      | some l1, some key =>
        if variantTtlMs policy ≤ 0 then (some l1, .goOn "no-ttl")
        else
          let stored := storeL1 hash l1 context
            (responseEntry context key (variantTtlMs policy)).encoded
          (some stored.1, stored.2)

/-! ## Which keys the stages use -/

/-- One of the keys of the request. -/
def CacheContext.HasKey (key : Text) : Prop :=
  context.cacheKey = some key ∨ context.variantCacheKey = some key

/-- A key under which a response may be stored: the raw key only if no variant is selected. -/
def CacheContext.StoresUnder (key : Text) : Prop :=
  (context.cacheKey = some key ∧
    ∃ policy, context.matchedPolicy = some policy ∧ context.selectsVariant policy = false) ∨
  context.variantCacheKey = some key

variable {l1 context hash} {key : Text} {hit : CacheHit}

theorem CacheContext.StoresUnder.hasKey (h : context.StoresUnder key) : context.HasKey key :=
  h.imp And.left id

theorem lookupL1_hit {key : Option Text} {layer hitNote : String}
    (h : (lookupL1 hash l1 context key layer hitNote).1 = some hit) :
    ∃ cache k, l1 = some cache ∧ key = some k ∧
      l1Get hash cache k context.requestEpochMs kL2BodyBufSize = some hit.entry := by
  unfold lookupL1 at h
  split at h
  · cases h
  · cases h
  split at h
  · cases h
  next entry hget =>
    cases h
    exact ⟨_, _, rfl, rfl, hget⟩

theorem l1CacheLookupStage_hit (h : (l1CacheLookupStage hash l1 context).1 = some hit) :
    ∃ cache key, l1 = some cache ∧ context.HasKey key ∧
      l1Get hash cache key context.requestEpochMs kL2BodyBufSize = some hit.entry := by
  unfold l1CacheLookupStage at h
  split at h
  · cases h
  split at h
  · cases h
  · obtain ⟨cache, key, hl1, hkey, hget⟩ := lookupL1_hit h
    exact ⟨cache, key, hl1, .inl hkey, hget⟩

theorem l1VariantLookupStage_hit (h : (l1VariantLookupStage hash l1 context).1 = some hit) :
    ∃ cache key, l1 = some cache ∧ context.HasKey key ∧
      l1Get hash cache key context.requestEpochMs kL2BodyBufSize = some hit.entry := by
  unfold l1VariantLookupStage at h
  split at h
  · cases h
  split at h
  · cases h
  split at h
  · cases h
  · obtain ⟨cache, key, hl1, hkey, hget⟩ := lookupL1_hit h
    exact ⟨cache, key, hl1, .inr hkey, hget⟩

theorem l2LookupKey_hasKey {policy : RoutePolicy} {isVariant : Bool}
    (h : l2LookupKey context policy = .ok (key, isVariant)) : context.HasKey key := by
  unfold l2LookupKey at h
  split at h
  · split at h
    next hkey =>
      split at h
      · cases h
        exact .inr hkey
      · cases h
    · cases h
  · split at h
    next hkey =>
      cases h
      exact .inl hkey
    · cases h

theorem l2GetResult_hit {l2 : L2Store} {nowMs : Int64} {bodyBufSize : Nat} {entry : CacheEntry}
    (h : l2GetResult l2 key nowMs bodyBufSize = .hit entry) : l2 key = some entry := by
  unfold l2GetResult at h
  split at h
  · cases h
  rename_i hent
  split at h
  · cases h
  split at h
  · cases h
  · cases h
    exact hent

theorem l2StoreKey_storesUnder {env : StoreEnvironment} {ttl : Int64}
    (h : l2StoreKey context env = .ok (key, ttl)) : context.StoresUnder key := by
  unfold l2StoreKey at h
  split at h
  · cases h
  rename_i policy hpol
  iterate 8
    split at h
    · cases h
  split at h
  · split at h
    next hkey =>
      split at h
      · cases h
        exact .inr hkey
      · cases h
    · cases h
  next hvar =>
    split at h
    next hkey =>
      cases h
      exact .inl ⟨hkey, policy, hpol, by simpa using hvar⟩
    · cases h

variable (l1 context)

/-- Without a hit the stage leaves L1 alone; a hit comes from L2, and goes into L1. -/
theorem l2CacheLookupStage_cases :
    ((l2CacheLookupStage hash l1 l2 context).1 = l1 ∧
      (l2CacheLookupStage hash l1 l2 context).2.1 = none) ∨
    ∃ store key hit, l2 = some store ∧ context.HasKey key ∧ store key = some hit.entry ∧
      (l2CacheLookupStage hash l1 l2 context).1 = l1.map (fun l1 => l1Put hash l1 hit.entry true) ∧
      (l2CacheLookupStage hash l1 l2 context).2.1 = some hit := by
  unfold l2CacheLookupStage
  iterate 4
    split
    · exact .inl ⟨rfl, rfl⟩
  rename_i hkey
  split
  · exact .inl ⟨rfl, rfl⟩
  · exact .inl ⟨rfl, rfl⟩
  · exact .inl ⟨rfl, rfl⟩
  next hget =>
    exact .inr ⟨_, _, _, rfl, l2LookupKey_hasKey hkey, l2GetResult_hit hget, rfl, rfl⟩

/-- The body of the response under a key. -/
structure CacheContext.Entry (entry : CacheEntry) : Prop where
  body : entry.body = context.responseBody
  key : ∃ key, context.StoresUnder key ∧ entry.key = key.take (kCacheKeyMaxLen - 1)

theorem l1CacheStoreStage_cases :
    (l1CacheStoreStage hash l1 context).1 = l1 ∨
      ∃ cache entry, l1 = some cache ∧ context.Entry entry ∧ (l1CacheStoreStage hash l1 context).1 =
          some (l1Put hash cache entry true) := by
  unfold l1CacheStoreStage
  split
  · exact .inl rfl
  rename_i policy hpol
  split
  · exact .inl rfl
  rename_i hvar
  iterate 5
    split
    · exact .inl rfl
  split
  · exact .inl rfl
  · exact .inl rfl
  next cache key hkey =>
    refine .inr ⟨_, _, rfl, ⟨rfl, _, .inl ⟨hkey, policy, hpol, ?_⟩, rfl⟩, rfl⟩
    simpa using hvar

theorem l1VariantStoreStage_cases :
    (l1VariantStoreStage hash l1 context).1 = l1 ∨
      ∃ cache entry, l1 = some cache ∧ context.Entry entry ∧
        (l1VariantStoreStage hash l1 context).1 = some (l1Put hash cache entry true) := by
  unfold l1VariantStoreStage
  iterate 6
    split
    · exact .inl rfl
  split
  · exact .inl rfl
  · exact .inl rfl
  next cache key hkey =>
    split
    · exact .inl rfl
    · exact .inr ⟨_, _, rfl, ⟨rfl, _, .inr hkey, rfl⟩, rfl⟩

end Hash

/-! ## What the first stages leave -/

section

variable (routeCacheEpochStore : Option RouteCacheEpochStore) (policy : RoutePolicy)
  (scope : CacheScope) (epoch : UInt64) (context : CacheContext)

/-- What has to hold for a request to get keys. -/
structure KeysReady : Prop where
  matched : context.matchedPolicy = some policy
  stores : policy.cache.behavior = .store
  isGet : context.requestMethod = .get
  notBypassed : scope.cacheAuthBypass = false
  inForce : (routeCacheEpochStore.bind fun store =>
    policy.routeId.bind (routeCacheEpochGet store)) = some epoch
  scopeReady : policy.cache.privateCache = true → scope.privateCacheScope.isSome = true

/-- The stage leaves no keys, or builds them for the route. -/
theorem cacheKeyPrepareStage_cases : (cacheKeyPrepareStage routeCacheEpochStore scope context).1 =
      { context with cacheKey := none, variantCacheKey := none } ∨
    ∃ policy epoch key, KeysReady routeCacheEpochStore policy scope epoch context ∧
      buildCacheKey (rawKeyInput policy scope epoch context) kCacheKeyMaxLen = some key ∧
      (cacheKeyPrepareStage routeCacheEpochStore scope context).1 = { context with
          cacheKey := some key
          variantCacheKey :=
            if policy.cache.fieldVariant.enabled then
              buildCacheKey (variantKeyInput policy scope epoch context) kCacheKeyMaxLen
            else none } := by
  unfold cacheKeyPrepareStage
  dsimp only
  split
  · exact .inl rfl
  rename_i policy hpol
  split
  · exact .inl rfl
  rename_i hstores
  split
  · exact .inl rfl
  rename_i hget
  split
  · exact .inl rfl
  rename_i hbyp
  split
  · exact .inl rfl
  rename_i epoch hepoch
  split
  · exact .inl rfl
  rename_i hscope
  split
  · exact .inl rfl
  next key hkey =>
    refine .inr ⟨policy, epoch, key, ?_, hkey, rfl⟩
    exact ⟨hpol, not_not.mp hstores, not_not.mp hget, by simpa using hbyp,
      hepoch, by simpa [Option.isSome_iff_ne_none] using hscope⟩

theorem cacheKeyPrepareStage_frame :
    (cacheKeyPrepareStage routeCacheEpochStore scope context).1.toApgTransformContext =
        context.toApgTransformContext ∧
      (cacheKeyPrepareStage routeCacheEpochStore scope context).1.matchedPolicy =
        context.matchedPolicy := by
  rcases cacheKeyPrepareStage_cases routeCacheEpochStore scope context with
    hnone | ⟨policy, epoch, key, -, -, hkeys⟩
  · rw [hnone]
    exact ⟨rfl, rfl⟩
  · rw [hkeys]
    exact ⟨rfl, rfl⟩

/-- The keys of a request, as they are built for its route. -/
structure KeysFor : Prop where
  matched : context.matchedPolicy = some policy
  raw : ∀ key, context.cacheKey = some key →
    buildCacheKey (rawKeyInput policy scope epoch context) kCacheKeyMaxLen = some key
  variants : ∀ key, context.variantCacheKey = some key →
    policy.cache.fieldVariant.enabled = true ∧
      buildCacheKey (variantKeyInput policy scope epoch context) kCacheKeyMaxLen = some key

/-- The query that stands in the keys. -/
def keyQuery : Text :=
  if policy.cache.fieldVariant.enabled then sanitizedQuery context else context.rawQuery

theorem cacheKeyPrepareStage_keys {key : Text}
    (h : (cacheKeyPrepareStage routeCacheEpochStore scope context).1.HasKey key) :
    ∃ policy epoch, KeysFor policy scope epoch
      (cacheKeyPrepareStage routeCacheEpochStore scope context).1 := by
  rcases cacheKeyPrepareStage_cases routeCacheEpochStore scope context with
    hnone | ⟨policy, epoch, raw, hready, hraw, hkeys⟩
  · rw [hnone] at h
    simp [CacheContext.HasKey] at h
  · rw [hkeys]
    refine ⟨policy, epoch, hready.matched, fun k hk => ?_, fun k hk => ?_⟩
    · cases hk
      exact hraw
    · split at hk
      next hon => exact ⟨hon, hk⟩
      next => cases hk

/-- The admission stage decides on a variant key, for a route with field variants. -/
theorem fieldVariantAdmissionStage_frame :
    ∃ variantAdmissionPassed, (fieldVariantAdmissionStage registry context).2.1 =
        { context with variantAdmissionPassed } ∧
      (variantAdmissionPassed → context.variantCacheKey.isSome ∧
        ∃ policy, context.matchedPolicy = some policy ∧ policy.cache.fieldVariant.enabled) := by
  unfold fieldVariantAdmissionStage
  dsimp only
  split
  · exact ⟨false, rfl, by simp⟩
  · exact ⟨false, rfl, by simp⟩
  rename_i key policy hkey hpol
  split
  · exact ⟨false, rfl, by simp⟩
  rename_i hon
  iterate 2
    split
    · exact ⟨false, rfl, by simp⟩
  split
  · exact ⟨true, rfl, fun _ => ⟨by rw [hkey]; rfl, policy, hpol, by simpa using hon⟩⟩
  · exact ⟨false, rfl, by simp⟩

variable {policy scope epoch context}

/-- The two keys of a request differ in the selected fields only, and in what they begin with. -/
theorem KeysFor.keyText_input (h : KeysFor policy scope epoch context) {key : Text}
    (hkey : context.HasKey key) : key.length < kCacheKeyMaxLen ∧
      ∃ selectedFields variant, key = CacheKeyInput.keyText
        { keyInput policy scope epoch context with
          query := some (keyQuery policy context), selectedFields, variant } := by
  have hfits : ∀ {input : CacheKeyInput}, buildCacheKey input kCacheKeyMaxLen = some key →
      key.length < kCacheKeyMaxLen ∧ key = input.keyText := by
    intro input hbuild
    obtain ⟨-, htext, hroom⟩ := buildCacheKey_eq_some_iff.mp hbuild
    exact ⟨by omega, htext⟩
  rcases hkey with hkey | hkey
  · obtain ⟨hlen, htext⟩ := hfits (h.raw key hkey)
    refine ⟨hlen, ?_⟩
    unfold rawKeyInput at htext
    unfold keyQuery
    split at htext
    next hon => exact ⟨[], false, by rw [if_pos hon]; exact htext⟩
    next hon => exact ⟨context.selectedFields, false, by rw [if_neg hon]; exact htext⟩
  · obtain ⟨hon, hbuild⟩ := h.variants key hkey
    obtain ⟨hlen, htext⟩ := hfits hbuild
    exact ⟨hlen, context.selectedFields, true, by rw [keyQuery, if_pos hon]; exact htext⟩

end

end ByteTaper.Stages
