import ByteTaper.Runtime.RoutePolicyConversion
import ByteTaper.TaperQuery.PolicyIrValidator
import Mathlib.Data.List.Sublists

/-! # What the runtime form keeps of a route

A route that the validator accepts is converted to its runtime form and back. The validator and the
runtime form do not have the same limits: the validator accepts names that are one byte too long, header
lists of any length and times that are no whole seconds, and it does not look at the blocks that are not
enabled. -/

namespace ByteTaper.Runtime

open List
open JsonTransform (cString)
open Policy TaperQuery

def throughRuntime (route : TqRoutePolicy) : TqRoutePolicy :=
  convertRuntimeRoutePolicyToTq (convertTqRoutePolicyToRuntime route)

/-! ## What the identity covers -/

/-- The rules of an invalidation that is not enabled are not part of the identity. -/
def coveredInvalidation (invalidation : TqCacheInvalidationPolicy) : TqCacheInvalidationPolicy :=
  if invalidation.enabled then invalidation else {}

def coveredCache (cache : TqCachePolicy) : TqCachePolicy :=
  { normalizeCache cache with invalidation := coveredInvalidation cache.invalidation }

/-- The settings of a route that its identity is computed from. -/
def covered (route : TqRoutePolicy) : TqRoutePolicy :=
  { route with cache := coveredCache route.cache }

theorem feedRoute_covered (route : TqRoutePolicy) :
    feedRoute (covered route) = feedRoute (normalizeRoutePolicyIr route) := by
  have hinv : ∀ invalidation, TaperQuery.feedInvalidation
      (coveredInvalidation invalidation) = TaperQuery.feedInvalidation invalidation := by
    intro invalidation
    unfold coveredInvalidation
    split
    · rfl
    next h => simp [TaperQuery.feedInvalidation, h]
  simp only [feedRoute, covered, coveredCache, TaperQuery.feedCache, hinv]
  rfl

/-! ## Lists -/

theorem map_take_eq_self_iff {α : Type} (f : α → α) (n : Nat) (l : List α) :
    (l.take n).map f = l ↔ l.length ≤ n ∧ ∀ x ∈ l, f x = x := by
  constructor
  · intro h
    have hlen := congrArg List.length h
    rw [length_map, length_take] at hlen
    have hle : l.length ≤ n := by omega
    rw [take_of_length_le hle] at h
    refine ⟨hle, fun x hx => ?_⟩
    exact map_inj_left.mp (h.trans (map_id l).symm) x hx
  · rintro ⟨hle, hfix⟩
    rw [take_of_length_le hle]
    exact (map_congr_left hfix).trans (map_id l)

theorem map_cutTo_eq_self_iff {size : Nat} (hsize : 0 < size) (n : Nat) (l : List Text) :
    (l.take n).map (cutTo size) = l ↔ l.length ≤ n ∧ ∀ t ∈ l, FitsIn size t := by
  rw [map_take_eq_self_iff]
  simp [cutTo_eq_self_iff hsize]

/-! ## Header names

Names are compared in lower case and each counts once. -/

theorem toLower_eq_nul_iff (c : Char) : toLower c = '\x00' ↔ c = '\x00' := by
  unfold toLower
  split
  next h =>
    have hcode : 65 ≤ c.toNat ∧ c.toNat ≤ 90 := h
    have hsmall : ∀ n < 91, 65 ≤ n → Char.ofNat (n + 32) ≠ '\x00' := by decide
    constructor
    · intro hnul
      exact absurd hnul (hsmall c.toNat (by omega) hcode.1)
    · intro hnul
      rw [hnul] at hcode
      exact absurd hcode.1 (by decide)
  · rfl

theorem fitsIn_toLowercase_iff (size : Nat) (t : Text) : FitsIn size (toLowercase t) ↔ FitsIn size t := by
  simp [FitsIn, toLowercase, toLower_eq_nul_iff]

theorem toLowercase_cutTo_eq_iff {size : Nat} (hsize : 0 < size) (t : Text) :
    toLowercase (cutTo size t) = toLowercase t ↔ FitsIn size t := by
  constructor
  · intro h
    rw [← fitsIn_toLowercase_iff, ← h, fitsIn_toLowercase_iff]
    exact fitsIn_cutTo hsize t
  · intro h
    rw [(cutTo_eq_self_iff hsize t).mpr h]

theorem mem_foldl_dedupLowered {result : List Text} (input : List Text) (item : Text) :
    item ∈ input.foldl dedupLowered result ↔ item ∈ result ∨ item ∈ input.map toLowercase := by
  induction input generalizing result with
  | nil => simp
  | cons _ _ ih =>
    rw [foldl_cons, ih, map_cons, mem_cons]
    unfold dedupLowered
    split
    next hold =>
      constructor
      · rintro (h | h)
        · exact .inl h
        · exact .inr (.inr h)
      · rintro (h | rfl | h)
        · exact .inl h
        · exact .inl hold
        · exact .inr h
    · rw [mem_append, mem_singleton, or_assoc]

theorem mem_stableDedupAndLowercase (input : List Text) (item : Text) :
    item ∈ stableDedupAndLowercase input ↔ item ∈ input.map toLowercase := by
  rw [stableDedupAndLowercase, mem_foldl_dedupLowered]
  simp

/-- Names that were all seen before add nothing. -/
theorem foldl_dedupLowered_of_seen {result : List Text} {input : List Text}
    (h : ∀ name ∈ input, toLowercase name ∈ result) : input.foldl dedupLowered result = result := by
  induction input with
  | nil => rfl
  | cons name _ ih =>
    rw [foldl_cons, dedupLowered, if_pos (h name (by simp))]
    exact ih fun other hother => h other (by simp [hother])

/-- The header names that the runtime form keeps: each fits, and those beyond the last slot are repeated
    ones. -/
structure KeptHeaders (names : List Text) : Prop where
  fits : ∀ name ∈ names, FitsIn kMaxCacheVaryHeaderNameLen name
  slots : ∀ name ∈ names.drop kMaxCacheVaryHeaders,
    toLowercase name ∈ (names.take kMaxCacheVaryHeaders).map toLowercase

theorem stableDedupAndLowercase_cut_iff (names : List Text) : stableDedupAndLowercase
        ((names.take kMaxCacheVaryHeaders).map (cutTo kMaxCacheVaryHeaderNameLen)) =
      stableDedupAndLowercase names ↔ KeptHeaders names := by
  have hsize : 0 < kMaxCacheVaryHeaderNameLen := by decide
  have hcut : (∀ name ∈ names, FitsIn kMaxCacheVaryHeaderNameLen name) →
      (names.take kMaxCacheVaryHeaders).map (cutTo kMaxCacheVaryHeaderNameLen) =
        names.take kMaxCacheVaryHeaders := by
    intro hfits
    refine (map_congr_left fun name hname => ?_).trans (map_id _)
    exact (cutTo_eq_self_iff hsize name).mpr (hfits name (mem_of_mem_take hname))
  constructor
  · intro h
    -- Every name is, in lower case, one that was cut.
    have hfits : ∀ name ∈ names, FitsIn kMaxCacheVaryHeaderNameLen name := by
      intro name hname
      have hmem : toLowercase name ∈ stableDedupAndLowercase names :=
        (mem_stableDedupAndLowercase names _).mpr (mem_map_of_mem hname)
      rw [← h, mem_stableDedupAndLowercase, map_map] at hmem
      obtain ⟨other, -, hother⟩ := mem_map.mp hmem
      rw [← fitsIn_toLowercase_iff, ← hother]
      exact (fitsIn_toLowercase_iff _ _).mpr (fitsIn_cutTo hsize other)
    refine ⟨hfits, fun name hname => ?_⟩
    rw [hcut hfits] at h
    rw [← mem_stableDedupAndLowercase, h, mem_stableDedupAndLowercase]
    exact mem_map_of_mem (mem_of_mem_drop hname)
  · intro h
    rw [hcut h.fits]
    conv_rhs =>
      rw [← take_append_drop kMaxCacheVaryHeaders names]
    rw [stableDedupAndLowercase, stableDedupAndLowercase, foldl_append]
    refine (foldl_dedupLowered_of_seen fun name hname => ?_).symm
    exact (mem_stableDedupAndLowercase _ _).mpr (h.slots name hname)

/-! ## Invalidation -/

/-- The rules of an invalidation that the runtime form keeps. -/
structure KeptInvalidation (invalidation : TqCacheInvalidationPolicy) : Prop where
  methods : invalidation.onMethods.Sublist [lit "PATCH", lit "PUT", lit "DELETE"]
  timing : invalidation.timing = afterSuccessfulUpstreamResponse
  targets : ∀ target ∈ invalidation.targets, FitsIn kMaxRouteIdLen target.routeId

theorem methodNames_eq_iff (methods : List Text) :
    methodNames (lit "PATCH" ∈ methods) (lit "PUT" ∈ methods) (lit "DELETE" ∈ methods) = methods ↔
      methods.Sublist [lit "PATCH", lit "PUT", lit "DELETE"] := by
  constructor
  · intro h
    rw [← h]
    have hall : ∀ onPatch onPut onDelete,
        (methodNames onPatch onPut onDelete).Sublist [lit "PATCH", lit "PUT", lit "DELETE"] := by
      decide +kernel
    exact hall _ _ _
  · intro h
    have hall : ∀ methods ∈ [lit "PATCH", lit "PUT", lit "DELETE"].sublists,
        methodNames (lit "PATCH" ∈ methods) (lit "PUT" ∈ methods) (lit "DELETE" ∈ methods) =
          methods := by
      decide +kernel
    exact hall methods (mem_sublists.mpr h)

theorem targetToTq_targetToRuntime_iff (target : TqCacheInvalidationTarget) :
    targetToTq (targetToRuntime target) = target ↔ FitsIn kMaxRouteIdLen target.routeId := by
  obtain ⟨routeId, strategy⟩ := target
  simp only [targetToTq, targetToRuntime, Equiv.symm_apply_apply,
    TqCacheInvalidationTarget.mk.injEq, and_true]
  exact cutTo_eq_self_iff (by decide) routeId

theorem coveredInvalidation_throughRuntime_iff (invalidation : TqCacheInvalidationPolicy) :
    coveredInvalidation (invalidationToTq (invalidationToRuntime invalidation)) =
        coveredInvalidation invalidation ↔
      (invalidation.enabled → invalidation.targets.length ≤ kMaxCacheInvalidationTargets ∧
          KeptInvalidation invalidation) := by
  obtain ⟨enabled, onMethods, timing, successStatusMin, successStatusMax, targets⟩ := invalidation
  cases enabled with
  | false => simp [coveredInvalidation, invalidationToTq, invalidationToRuntime]
  | true =>
    simp only [coveredInvalidation, invalidationToTq, invalidationToRuntime, if_true,
      TqCacheInvalidationPolicy.mk.injEq, true_and, forall_const, methodNames_eq_iff, map_map,
      map_take_eq_self_iff, Function.comp_apply, targetToTq_targetToRuntime_iff]
    constructor
    · rintro ⟨hmeths, htiming, hslots, htgts⟩
      exact ⟨hslots, hmeths, htiming.symm, htgts⟩
    · rintro ⟨hslots, hmeths, htiming, htgts⟩
      exact ⟨hmeths, htiming.symm, hslots, htgts⟩

/-! ## Accepted routes -/

section Accepted

variable {strict : Bool} {route : TqRoutePolicy}

theorem fieldCount_of_accepted (h : hasError (routeIssues strict route) = false) :
    route.fieldFilter.fields.length ≤ kMaxFields := by
  have hfilt : hasError (fieldFilterIssues strict route) = false := by
    simp only [routeIssues, flatten_cons, hasError_append, Bool.or_eq_false_iff] at h
    exact h.2.2.2.1
  unfold fieldFilterIssues at hfilt
  split at hfilt
  · have hnone : route.fieldFilter.fields = [] := by simpa using hfilt
    simp [hnone]
  · simp only [flatten_cons, hasError_append, Bool.or_eq_false_iff] at hfilt
    have hcnt := hfilt.2.2.2.1
    simpa [kMaxFields] using hcnt

theorem invalidation_of_accepted (h : hasError (routeIssues strict route) = false) :
    hasError (invalidationIssues route) = false := by
  simp only [routeIssues, flatten_cons, hasError_append, Bool.or_eq_false_iff] at h
  exact h.2.2.1

theorem targetCount_of_accepted (h : hasError (routeIssues strict route) = false)
    (hon : route.cache.invalidation.enabled) :
    route.cache.invalidation.targets.length ≤ kMaxCacheInvalidationTargets := by
  have hinv := invalidation_of_accepted h
  simp only [invalidationIssues, hon, if_true, flatten_cons, hasError_append,
    Bool.or_eq_false_iff] at hinv
  have hcnt := hinv.2.2.2.1
  simp only [targetCountIssues, flatten_cons, hasError_append, Bool.or_eq_false_iff] at hcnt
  simpa [kMaxCacheInvalidationTargets] using hcnt.2.1

end Accepted

/-! ## Round trip -/

theorem seconds_eq_iff (ttlMs : UInt32) : ttlMs / 1000 * 1000 = ttlMs ↔ ttlMs % 1000 = 0 := by
  rw [← UInt32.toNat_inj, ← UInt32.toNat_inj, UInt32.toNat_mul, UInt32.toNat_div, UInt32.toNat_mod]
  have hlt := ttlMs.toNat_lt
  have hthousand : (1000 : UInt32).toNat = 1000 := rfl
  have hzero : (0 : UInt32).toNat = 0 := rfl
  rw [hthousand, hzero]
  omega

theorem fieldFilter_throughRuntime_iff {filter} (hcnt : filter.fields.length ≤ kMaxFields) :
    fieldFilterToTq (fieldFilterToRuntime filter) = filter ↔
      ∀ field ∈ filter.fields, FitsIn kMaxFieldNameLen field := by
  obtain ⟨mode, fields⟩ := filter
  have hcut : (fieldFilterToRuntime ⟨mode, fields⟩).fields.map (·.val) =
      (fields.take kMaxFields).map (cutTo kMaxFieldNameLen) := by
    simp only [fieldFilterToRuntime, map_map]
    rfl
  simp only [fieldFilterToTq, hcut, TqFieldFilterPolicy.mk.injEq]
  rw [map_cutTo_eq_self_iff (by decide)]
  exact ⟨fun h => h.2.2, fun h => ⟨filterModeCast.symm_apply_apply mode, hcnt, h⟩⟩

theorem fieldVariantToTq_fieldVariantToRuntime (variant : TqFieldVariantCachePolicy) :
    fieldVariantToTq (fieldVariantToRuntime variant) = variant := rfl

theorem cache_throughRuntime_iff (cache : TqCachePolicy) :
    coveredCache (cacheToTq (cacheToRuntime cache)) = coveredCache cache ↔
      cache.ttlMs % 1000 = 0 ∧ FitsIn kMaxCachePathLen cache.l2.path ∧
        FitsIn kMaxAuthScopeHeaderLen cache.privateCache.authScopeHeader ∧
        KeptHeaders cache.varyHeaders.names ∧
        (cache.invalidation.enabled →
          cache.invalidation.targets.length ≤ kMaxCacheInvalidationTargets ∧
            KeptInvalidation cache.invalidation) := by
  obtain ⟨behavior, ttlMs, enabled, l1, ⟨l2Enabled, path⟩, ⟨privateEnabled, authScope⟩, fieldVariant,
    ⟨names⟩, invalidation⟩ := cache
  simp only [coveredCache, normalizeCache, cacheToTq, cacheToRuntime, Equiv.symm_apply_apply,
    fieldVariantToTq_fieldVariantToRuntime, TqCachePolicy.mk.injEq, TqCacheL2Policy.mk.injEq,
    TqPrivateCachePolicy.mk.injEq, TqCacheVaryHeaderPolicy.mk.injEq, true_and]
  rw [seconds_eq_iff, cutTo_eq_self_iff (by decide), toLowercase_cutTo_eq_iff (by decide),
    stableDedupAndLowercase_cut_iff, coveredInvalidation_throughRuntime_iff]

theorem pagination_throughRuntime_iff (pagination : TqPaginationPolicy) :
    paginationToTq (paginationToRuntime pagination) = pagination ↔
      FitsIn kMaxPaginationParamLen pagination.limitParam ∧
        FitsIn kMaxPaginationParamLen pagination.offsetParam := by
  obtain ⟨enabled, mode, limitParam, offsetParam, defaultLimit, maxLimit, upstream, warning⟩ :=
    pagination
  simp only [paginationToTq, paginationToRuntime, Equiv.symm_apply_apply,
    TqPaginationPolicy.mk.injEq, true_and, and_true]
  rw [cutTo_eq_self_iff (by decide), cutTo_eq_self_iff (by decide)]

theorem compression_throughRuntime_iff (compression : TqCompressionPolicy) :
    compressionToTq (compressionToRuntime compression) = compression ↔
      (compression.eligibleContentTypes.length ≤ kMaxEligibleContentTypes ∧
          ∀ ct ∈ compression.eligibleContentTypes, FitsIn kMaxContentTypeLen ct) ∧
        compression.preferredAlgorithms.length ≤ kMaxCompressionAlgorithms := by
  obtain ⟨enabled, minSize, contentTypes, algorithms, encoded⟩ := compression
  simp only [compressionToTq, compressionToRuntime, Equiv.symm_apply_apply, map_map,
    TqCompressionPolicy.mk.injEq, true_and, and_true]
  rw [map_cutTo_eq_self_iff (by decide), map_take_eq_self_iff]
  simp

theorem coalescingToTq_coalescingToRuntime (coalescing : TqCoalescingPolicy) :
    coalescingToTq (coalescingToRuntime coalescing) = coalescing := by
  obtain ⟨enabled, ⟨⟩, _⟩ := coalescing
  rfl

/-- What an accepted route must have for the runtime form to keep all of it. -/
structure FitsRuntime (route : TqRoutePolicy) : Prop where
  texts : '\x00' ∉ route.routeId ∧ '\x00' ∉ route.matchPrefix
  fields : ∀ field ∈ route.fieldFilter.fields, FitsIn kMaxFieldNameLen field
  ttl : route.cache.ttlMs % 1000 = 0
  path : FitsIn kMaxCachePathLen route.cache.l2.path
  authScope : FitsIn kMaxAuthScopeHeaderLen route.cache.privateCache.authScopeHeader
  headers : KeptHeaders route.cache.varyHeaders.names
  invalidation : route.cache.invalidation.enabled = true →
    KeptInvalidation route.cache.invalidation
  params : FitsIn kMaxPaginationParamLen route.pagination.limitParam ∧
    FitsIn kMaxPaginationParamLen route.pagination.offsetParam
  contentTypes : route.compression.eligibleContentTypes.length ≤ kMaxEligibleContentTypes ∧
    ∀ ct ∈ route.compression.eligibleContentTypes, FitsIn kMaxContentTypeLen ct
  algorithms : route.compression.preferredAlgorithms.length ≤ kMaxCompressionAlgorithms

theorem covered_throughRuntime_iff {strict : Bool} {route : TqRoutePolicy}
    (hacc : hasError (routeIssues strict route) = false) :
    covered (throughRuntime route) = covered route ↔ FitsRuntime route := by
  have hflds := fieldCount_of_accepted hacc
  have htgts := targetCount_of_accepted hacc
  have hblocks : covered (throughRuntime route) = covered route ↔
      (cString route.routeId = route.routeId ∧ cString route.matchPrefix = route.matchPrefix) ∧
        fieldFilterToTq (fieldFilterToRuntime route.fieldFilter) = route.fieldFilter ∧
        coveredCache (cacheToTq (cacheToRuntime route.cache)) = coveredCache route.cache ∧
        paginationToTq (paginationToRuntime route.pagination) = route.pagination ∧
        compressionToTq (compressionToRuntime route.compression) = route.compression := by
    obtain ⟨routeId, matchPrefix, matchKind, mutation, allowedMethod, fieldFilter, maxResponseBytes,
      cache, failureMode, pagination, compression, coalescing⟩ := route
    simp [covered, throughRuntime, convertRuntimeRoutePolicyToTq, convertTqRoutePolicyToRuntime,
      copyRoutePolicyIdentityV2ToLegacySlot, coalescingToTq_coalescingToRuntime,
      TqRoutePolicy.mk.injEq, true_and, and_assoc]
  rw [hblocks, cString_eq_self_iff, cString_eq_self_iff, fieldFilter_throughRuntime_iff hflds,
    cache_throughRuntime_iff, pagination_throughRuntime_iff, compression_throughRuntime_iff]
  constructor
  · rintro ⟨htexts, hfilt, ⟨httl, hpath, hscope, hhdrs, hinv⟩, hparams, htypes, halgorithms⟩
    exact ⟨htexts, hfilt, httl, hpath, hscope, hhdrs, fun h => (hinv h).2, hparams,
      htypes, halgorithms⟩
  · intro h
    exact ⟨h.texts, h.fields, ⟨h.ttl, h.path, h.authScope, h.headers,
      fun hon => ⟨htgts hon, h.invalidation hon⟩⟩, h.params, h.contentTypes,
      h.algorithms⟩

/-- The runtime form keeps all that the identity of an accepted route covers exactly if the route fits it;
    then the route that comes back has the same identity. -/
theorem runtime_keeps_route_iff (siphash : Text → UInt64) (policy : PolicyIr)
    (options : TqPolicyValidationOptions)
    (haccepted : (validateTaperqueryPolicyIr policy options).ok = true) :
    ∀ route ∈ policy.routes,
      (covered (throughRuntime route) = covered route ↔ FitsRuntime route) ∧
        (FitsRuntime route →
          routeIdentityImpl siphash (normalizeRoutePolicyIr (throughRuntime route)) =
            routeIdentityImpl siphash (normalizeRoutePolicyIr route)) := by
  intro route hmem
  have hiff := covered_throughRuntime_iff (routeIssues_of_ok haccepted hmem)
  refine ⟨hiff, fun hfits => ?_⟩
  rw [routeIdentityImpl, routeIdentityImpl, ← feedRoute_covered, hiff.mpr hfits, feedRoute_covered]

/-! ## A time that is no whole second -/

/-- A cached route. -/
def pricesRoute (ttlMs : UInt32) : TqRoutePolicy where
  routeId := lit "prices"
  matchPrefix := lit "/prices"
  mutation := .full
  allowedMethod := .get
  cache :=
    { behavior := .store, ttlMs, enabled := true, l1 := { enabled := true, capacityEntries := 1000 } }

def pricesPolicy (ttlMs : UInt32) : PolicyIr :=
  { documentId := lit "prices"
    version :=
      { sourceSchemaVersion := lit "tq/v1", policyIrVersion := kCurrentPolicyIrVersion
        identityVersion := kCurrentPolicyIdentityVersion }
    routes := [pricesRoute ttlMs] }

theorem half_minute_kept :
    (validateTaperqueryPolicyIr (pricesPolicy 30000) {}).ok = true ∧
      covered (throughRuntime (pricesRoute 30000)) = covered (pricesRoute 30000) := by
  have hok : (validateTaperqueryPolicyIr (pricesPolicy 30000) {}).ok := by decide +kernel
  refine ⟨hok, ((runtime_keeps_route_iff (fun _ => 0) (pricesPolicy 30000) {} hok _
    (by simp [pricesPolicy])).1).mpr ?_⟩
  exact
    { texts := by decide +kernel
      fields := by decide +kernel
      ttl := by decide +kernel
      path := by decide +kernel
      authScope := by decide +kernel
      headers := ⟨by decide +kernel, by decide +kernel⟩
      invalidation := fun h => by cases h
      params := by decide +kernel
      contentTypes := by decide +kernel
      algorithms := by decide +kernel }

/-- Of one and a half seconds the runtime keeps one. -/
theorem half_second_lost :
    (validateTaperqueryPolicyIr (pricesPolicy 1500) {}).ok = true ∧
      (convertTqRoutePolicyToRuntime (pricesRoute 1500)).cache.ttlSeconds = 1 ∧
      feedRoute (normalizeRoutePolicyIr (throughRuntime (pricesRoute 1500))) ≠
        feedRoute (normalizeRoutePolicyIr (pricesRoute 1500)) := by
  refine ⟨by decide +kernel, rfl, fun h => ?_⟩
  have hrt : covered (throughRuntime (pricesRoute 1500)) = covered (pricesRoute 1000) := by
    decide +kernel
  rw [← feedRoute_covered, hrt, feedRoute_covered] at h
  simp only [feedRoute, flatten_cons, normalizeRoutePolicyIr, normalizeCache, pricesRoute,
    TaperQuery.feedCache, append_assoc, append_cancel_left_eq] at h
  have httl := (append_inj h (by decide +kernel)).1
  exact absurd httl (by decide +kernel)

end ByteTaper.Runtime
