import ByteTaper.TaperQuery.RoutePolicyIr

/-! # The plan of an apply

`policy_ir_compare.cpp` and `build_taperquery_apply_plan`: the routes that a policy adds, removes or
modifies, with the fields in which a modified route differs. The identities of the documents, the
issues of the validation and the texts of the values are left out, since neither the versioning of the
epochs nor the activation reads them. -/

namespace ByteTaper.TaperQuery

open List TqCachePolicy

/-! ## Field differences -/

/-- A field that two routes are compared in. -/
structure RouteField where
  path : Text
  differs : TqRoutePolicy → TqRoutePolicy → Bool

def routeField {α : Type} [DecidableEq α] (path : Text) (read : TqRoutePolicy → α) : RouteField where
  path
  differs expected actual := read expected ≠ read actual

variable (fields : List RouteField) (expected actual : TqRoutePolicy)

def fieldDiffs : List Text :=
  (fields.filter (·.differs expected actual)).map (·.path)

def matchFields : List RouteField :=
  [ routeField (lit "route_id") (·.routeId),
    routeField (lit "match_prefix") (·.matchPrefix),
    routeField (lit "match_kind") (·.matchKind),
    routeField (lit "mutation") (·.mutation),
    routeField (lit "allowed_method") (·.allowedMethod),
    routeField (lit "max_response_bytes") (·.maxResponseBytes),
    routeField (lit "failure_mode") (·.failureMode) ]

def cacheFields : List RouteField :=
  [ routeField (lit "cache.enabled") (·.cache.enabled),
    routeField (lit "cache.behavior") (·.cache.behavior),
    routeField (lit "cache.ttl_ms") (·.cache.ttlMs),
    routeField (lit "cache.l1.enabled") (·.cache.l1.enabled),
    routeField (lit "cache.l1.capacity_entries") (·.cache.l1.capacityEntries),
    routeField (lit "cache.l2.enabled") (·.cache.l2.enabled),
    routeField (lit "cache.l2.path") (·.cache.l2.path),
    routeField (lit "cache.private_cache.enabled") (·.cache.privateCache.enabled),
    routeField (lit "cache.private_cache.auth_scope_header") (·.cache.privateCache.authScopeHeader),
    routeField (lit "cache.field_variant.enabled") (·.cache.fieldVariant.enabled),
    routeField (lit "cache.field_variant.max_variants_per_route")
      (·.cache.fieldVariant.maxVariantsPerRoute),
    routeField (lit "cache.field_variant.min_field_count") (·.cache.fieldVariant.minFieldCount),
    routeField (lit "cache.field_variant.max_field_count") (·.cache.fieldVariant.maxFieldCount),
    routeField (lit "cache.field_variant.admission_threshold")
      (·.cache.fieldVariant.admissionThreshold),
    routeField (lit "cache.field_variant.ttl_max_ms") (·.cache.fieldVariant.ttlMaxMs),
    routeField (lit "cache.vary_headers.names") (·.cache.varyHeaders.names),
    routeField (lit "cache.invalidation.enabled") (·.cache.invalidation.enabled) ]

/-- Compared where one of the two routes has the invalidation enabled. -/
def invalidationFields : List RouteField :=
  [ routeField (lit "cache.invalidation.on_methods") (·.cache.invalidation.onMethods),
    routeField (lit "cache.invalidation.timing") (·.cache.invalidation.timing),
    routeField (lit "cache.invalidation.success_status_min")
      (·.cache.invalidation.successStatusMin),
    routeField (lit "cache.invalidation.success_status_max")
      (·.cache.invalidation.successStatusMax) ]

def filterFields : List RouteField :=
  [ routeField (lit "field_filter.mode") (·.fieldFilter.mode),
    routeField (lit "field_filter.fields") (·.fieldFilter.fields) ]

def paginationFields : List RouteField :=
  [ routeField (lit "pagination.enabled") (·.pagination.enabled),
    routeField (lit "pagination.mode") (·.pagination.mode),
    routeField (lit "pagination.limit_param") (·.pagination.limitParam),
    routeField (lit "pagination.offset_param") (·.pagination.offsetParam),
    routeField (lit "pagination.default_limit") (·.pagination.defaultLimit),
    routeField (lit "pagination.max_limit") (·.pagination.maxLimit),
    routeField (lit "pagination.upstream_supports_pagination")
      (·.pagination.upstreamSupportsPagination),
    routeField (lit "pagination.max_response_bytes_warning")
      (·.pagination.maxResponseBytesWarning) ]

def compressionFields : List RouteField :=
  [ routeField (lit "compression.enabled") (·.compression.enabled),
    routeField (lit "compression.min_size_bytes") (·.compression.minSizeBytes),
    routeField (lit "compression.eligible_content_types") (·.compression.eligibleContentTypes),
    routeField (lit "compression.preferred_algorithms") (·.compression.preferredAlgorithms),
    routeField (lit "compression.already_encoded_behavior")
      (·.compression.alreadyEncodedBehavior) ]

def coalescingFields : List RouteField :=
  [ routeField (lit "coalescing.enabled") (·.coalescing.enabled),
    routeField (lit "coalescing.mode") (·.coalescing.mode),
    routeField (lit "coalescing.backend_timeout_ms") (·.coalescing.backendTimeoutMs),
    routeField (lit "coalescing.handoff_buffer_ms") (·.coalescing.handoffBufferMs),
    routeField (lit "coalescing.result_ready_retention_ms")
      (·.coalescing.resultReadyRetentionMs),
    routeField (lit "coalescing.max_waiters_per_key") (·.coalescing.maxWaitersPerKey),
    routeField (lit "coalescing.require_cache_enabled") (·.coalescing.requireCacheEnabled),
    routeField (lit "coalescing.allow_authenticated") (·.coalescing.allowAuthenticated),
    routeField (lit "coalescing.max_follower_wait_budget_ms")
      (·.coalescing.maxFollowerWaitBudgetMs),
    routeField (lit "coalescing.max_active_follower_waiters")
      (·.coalescing.maxActiveFollowerWaiters),
    routeField (lit "coalescing.max_active_follower_waiters_per_shard")
      (·.coalescing.maxActiveFollowerWaitersPerShard) ]

def targetDiffs (expected actual : TqCacheInvalidationTarget) (j : Nat) : List Text :=
  let label := lit "cache.invalidation.targets[" ++ Nat.toDigits 10 j
  (if expected.routeId ≠ actual.routeId then [label ++ lit "].route_id"] else []) ++
    if expected.strategy ≠ actual.strategy then [label ++ lit "].strategy"] else []

def targetListDiffs (expected actual : List TqCacheInvalidationTarget) : List Text :=
  if expected.length ≠ actual.length then [lit "cache.invalidation.targets"]
  else (expected.zip actual).zipIdx.flatMap fun ((old, new), j) => targetDiffs old new j

def invalidationDiffs : List Text :=
  if expected.cache.invalidation.enabled || actual.cache.invalidation.enabled then
    fieldDiffs invalidationFields expected actual ++
      targetListDiffs expected.cache.invalidation.targets actual.cache.invalidation.targets
  else []

/-- `compare_policy_ir` of two documents of one route each: the paths of the fields that differ. -/
def comparePolicyIr : List Text :=
  fieldDiffs matchFields expected actual ++ fieldDiffs cacheFields expected actual ++
    invalidationDiffs expected actual ++ fieldDiffs filterFields expected actual ++
    fieldDiffs (paginationFields ++ compressionFields ++ coalescingFields) expected actual

/-! ## Impact -/

inductive TqSemanticImpact where
  | none | matchBehavior | mutationBehavior | cacheBehavior | cacheKeyBehavior
  | cacheStorageBehavior | fieldFilteringBehavior | paginationBehavior | compressionBehavior
  | coalescingBehavior | failureBehavior | runtimeCompatibility

def mapFieldPathToSemanticImpact (path : Text) : TqSemanticImpact :=
  let under (start : Text) : Bool := start.isPrefixOf path
  if path = lit "match_prefix" ∨ path = lit "match_kind" ∨ path = lit "allowed_method" then
    .matchBehavior
  else if path = lit "mutation" then .mutationBehavior
  else if under (lit "cache.l1.") || under (lit "cache.l2.") then .cacheStorageBehavior
  else if under (lit "cache.field_variant.") || path = lit "cache.vary_headers.names" ||
      path = lit "cache.vary_headers" || under (lit "cache.private_cache.") then
    .cacheKeyBehavior
  else if under (lit "cache.") then .cacheBehavior
  else if under (lit "field_filter.") then .fieldFilteringBehavior
  else if under (lit "pagination.") then .paginationBehavior
  else if under (lit "compression.") then .compressionBehavior
  else if under (lit "coalescing.") then .coalescingBehavior
  else if path = lit "failure_mode" then .failureBehavior
  else if under (lit "version.") then .runtimeCompatibility
  else .none

def isCacheImpacting : TqSemanticImpact → Bool
  | .fieldFilteringBehavior | .cacheBehavior | .cacheKeyBehavior | .cacheStorageBehavior => true
  | _ => false

def impactsCache (path : Text) : Bool := isCacheImpacting (mapFieldPathToSemanticImpact path)

/-- The fields with an impact on the cache are those of the cache and of the field filter. -/
theorem impactsCache_eq (path : Text) : impactsCache path =
      ((lit "cache.").isPrefixOf path || (lit "field_filter.").isPrefixOf path) := by
  by_cases hshort : path = lit "match_prefix" ∨ path = lit "match_kind" ∨
      path = lit "allowed_method" ∨ path = lit "mutation"
  · rcases hshort with rfl | rfl | rfl | rfl <;> decide +kernel
  simp only [not_or] at hshort
  unfold impactsCache mapFieldPathToSemanticImpact
  simp only [hshort, or_self, if_false]
  cases hcache : (lit "cache.").isPrefixOf path with
  | true =>
    simp only [if_true, Bool.true_or]
    split_ifs <;> rfl
  | false =>
    -- So it is no field of the cache, whose paths are all longer.
    have hlong : ∀ longer : Text, (lit "cache.").isPrefixOf longer →
        longer.isPrefixOf path = false := by
      intro longer hlong
      by_contra h
      rw [Bool.not_eq_false, List.isPrefixOf_iff_prefix] at h
      rw [List.isPrefixOf_iff_prefix.mpr ((List.isPrefixOf_iff_prefix.mp hlong).trans h)] at hcache
      cases hcache
    have hother : ∀ other : Text, (lit "cache.").isPrefixOf other → path ≠ other := by
      rintro other hother rfl
      exact Bool.false_ne_true (hcache.symm.trans hother)
    simp only [hlong (lit "cache.l1.") (by simp [lit]), hlong (lit "cache.l2.") (by simp [lit]),
      hlong (lit "cache.field_variant.") (by simp [lit]),
      hlong (lit "cache.private_cache.") (by simp [lit]),
      hother (lit "cache.vary_headers.names") (by simp [lit]),
      hother (lit "cache.vary_headers") (by simp [lit]), decide_false, Bool.or_self,
      Bool.false_eq_true, if_false, Bool.false_or]
    cases (lit "field_filter.").isPrefixOf path with
    | true => rfl
    | false =>
      simp only [Bool.false_eq_true, if_false]
      split_ifs <;> rfl

/-- Fields of one kind of impact. -/
theorem any_fieldDiffs_of_all {fields : List RouteField} {impact : Bool}
    (h : (fields.map fun field => (lit "cache.").isPrefixOf field.path ||
      (lit "field_filter.").isPrefixOf field.path).all (· == impact))
    (expected actual : TqRoutePolicy) :
    (fieldDiffs fields expected actual).any impactsCache =
      (impact && fields.any fun field => field.differs expected actual) := by
  simp only [fieldDiffs, any_map, any_filter, Function.comp_def]
  simp only [← impactsCache_eq] at h
  induction fields with
  | nil => simp
  | cons _ _ ih =>
    simp only [map_cons, all_cons, Bool.and_eq_true, beq_iff_eq] at h
    rw [any_cons, any_cons, ih h.2, h.1]
    cases impact <;> simp

theorem impactsCache_target (rest : Text) :
    impactsCache (lit "cache.invalidation.targets[" ++ rest) := by
  have hstart : lit "cache." <+: lit "cache.invalidation.targets[" := by simp [lit]
  rw [impactsCache_eq, List.isPrefixOf_iff_prefix.mpr (hstart.trans (prefix_append _ rest)),
    Bool.true_or]

theorem any_targetDiffs (expected actual : TqCacheInvalidationTarget) (j : Nat) :
    (targetDiffs expected actual j).any impactsCache = decide (expected ≠ actual) := by
  obtain ⟨oldId, oldStrategy⟩ := expected
  obtain ⟨newId, newStrategy⟩ := actual
  by_cases hid : oldId = newId <;> by_cases hstrat : oldStrategy = newStrategy <;>
    simp [targetDiffs, hid, hstrat, impactsCache_target]

/-- Lists of one length are compared position by position. -/
theorem any_zipIdx_flatMap_targetDiffs {expected actual : List TqCacheInvalidationTarget}
    (hlen : expected.length = actual.length) (k : Nat) :
    (((expected.zip actual).zipIdx k).flatMap fun ((old, new), j) =>
      targetDiffs old new j).any impactsCache = decide (expected ≠ actual) := by
  induction expected generalizing actual k with
  | nil =>
    cases actual with
    | nil => simp
    | cons => cases hlen
  | cons old _ ih =>
    cases actual with
    | nil => cases hlen
    | cons new =>
      simp only [zip_cons_cons, zipIdx_cons, flatMap_cons, any_append,
        any_targetDiffs, ih (Nat.succ.inj hlen)]
      by_cases hhead : old = new <;> simp [hhead]

theorem any_targetListDiffs (expected actual : List TqCacheInvalidationTarget) :
    (targetListDiffs expected actual).any impactsCache = decide (expected ≠ actual) := by
  unfold targetListDiffs
  split
  next hlen =>
    have hpath : impactsCache (lit "cache.invalidation.targets") := by decide +kernel
    have hne : expected ≠ actual := fun h => hlen (congrArg List.length h)
    simp [hpath, hne]
  next hlen => exact any_zipIdx_flatMap_targetDiffs (not_not.mp hlen) 0

/-! ## Settings that a cached response depends on -/

/-- The cache settings that are in use: a disabled invalidation has none. -/
def TqCachePolicy.inUse (cache : TqCachePolicy) : TqCachePolicy :=
  { cache with invalidation := if cache.invalidation.enabled then cache.invalidation else {} }

theorem cacheFields_same_iff :
    (cacheFields.any fun field => field.differs expected actual) = false ↔
      { expected.cache with invalidation := {} } = { actual.cache with invalidation := {} } ∧
        expected.cache.invalidation.enabled = actual.cache.invalidation.enabled := by
  obtain ⟨_, _, _, _, _, _, _, cache, _, _, _, _⟩ := expected
  obtain ⟨_, _, _, _, _, _, _, cache', _, _, _, _⟩ := actual
  obtain ⟨_, _, _, ⟨_, _⟩, ⟨_, _⟩, ⟨_, _⟩, ⟨_, _, _, _, _, _⟩, ⟨_⟩, _⟩ := cache
  obtain ⟨_, _, _, ⟨_, _⟩, ⟨_, _⟩, ⟨_, _⟩, ⟨_, _, _, _, _, _⟩, ⟨_⟩, _⟩ := cache'
  simp [cacheFields, routeField, and_assoc, and_left_comm, and_comm]

theorem invalidationDiffs_same_iff {expected actual : TqRoutePolicy}
    (h : expected.cache.invalidation.enabled = actual.cache.invalidation.enabled) :
    (invalidationDiffs expected actual).any impactsCache = false ↔
      expected.cache.inUse.invalidation = actual.cache.inUse.invalidation := by
  have himpact := any_fieldDiffs_of_all
    (show (invalidationFields.map _).all (· == true) by decide +kernel) expected actual
  cases hon : actual.cache.invalidation.enabled with
  | false => simp [invalidationDiffs, inUse, h, hon]
  | true =>
    simp only [invalidationDiffs, inUse, h, hon, Bool.or_self, if_true,
      any_append, himpact, any_targetListDiffs, TqCacheInvalidationPolicy.ext_iff]
    simp [invalidationFields, routeField, and_assoc]

theorem inUse_eq_iff (cache other : TqCachePolicy) : cache.inUse = other.inUse ↔
      { cache with invalidation := {} } = { other with invalidation := {} } ∧
        cache.inUse.invalidation = other.inUse.invalidation := by
  simp only [inUse, TqCachePolicy.mk.injEq]
  tauto

@[simp] theorem inUse_enabled (cache : TqCachePolicy) :
    cache.inUse.invalidation.enabled = cache.invalidation.enabled := by
  cases h : cache.invalidation.enabled <;> simp [inUse, h]

/-- No difference has an impact on the cache if the routes agree in the field filter and in the cache
    settings in use. -/
theorem comparePolicyIr_impact_iff :
    (comparePolicyIr expected actual).any impactsCache = false ↔
      expected.fieldFilter = actual.fieldFilter ∧ expected.cache.inUse = actual.cache.inUse := by
  have hmatch := any_fieldDiffs_of_all
    (show (matchFields.map _).all (· == false) by decide +kernel) expected actual
  have hcache := any_fieldDiffs_of_all
    (show (cacheFields.map _).all (· == true) by decide +kernel) expected actual
  have hfilt := any_fieldDiffs_of_all
    (show (filterFields.map _).all (· == true) by decide +kernel) expected actual
  have hother := any_fieldDiffs_of_all
    (show ((paginationFields ++ compressionFields ++ coalescingFields).map _).all (· == false) by
      decide +kernel) expected actual
  have hfilterSame : (filterFields.any fun field => field.differs expected actual) = false ↔
      expected.fieldFilter = actual.fieldFilter := by
    simp [filterFields, routeField, TqFieldFilterPolicy.ext_iff]
  simp only [comparePolicyIr, any_append, hmatch, hcache, hfilt, hother, Bool.false_and,
    Bool.true_and, Bool.false_or, Bool.or_false, Bool.or_eq_false_iff]
  rw [hfilterSame, cacheFields_same_iff, inUse_eq_iff, and_comm]
  refine and_congr_right fun _ => ⟨fun ⟨⟨hcache, hon⟩, hdiffs⟩ => ?_, fun ⟨hcache, hrules⟩ => ?_⟩
  · exact ⟨hcache, (invalidationDiffs_same_iff hon).mp hdiffs⟩
  · have hon : expected.cache.invalidation.enabled = actual.cache.invalidation.enabled := by
      simpa using congrArg TqCacheInvalidationPolicy.enabled hrules
    exact ⟨⟨hcache, hon⟩, (invalidationDiffs_same_iff hon).mpr hrules⟩

/-! ## Route changes -/

inductive TqRouteChangeKind where
  | added | removed | modified | unchanged
deriving DecidableEq

structure TqApplyPlanFieldChange where
  fieldPath : Text
  impact : TqSemanticImpact := .none

structure TqApplyPlanRouteChange where
  routeId : Text
  kind : TqRouteChangeKind := .unchanged
  beforeIdentity : Text := []
  afterIdentity : Text := []
  fieldChanges : List TqApplyPlanFieldChange := []

abbrev RouteChanges := List TqApplyPlanRouteChange

structure TqApplyPlanOptions where
  includeUnchangedRoutes : Bool := false
  includeFieldLevelChanges : Bool := true

/-- The route that a map filled from the list has under the id: the last one. -/
def routeById (routes : List TqRoutePolicy) (routeId : Text) : Option TqRoutePolicy :=
  routes.reverse.find? (·.routeId == routeId)

section Plan

variable (L : RouteLanguage TqRoutePolicy) (options : TqApplyPlanOptions)

def computeRoutePolicyIdentity (route : TqRoutePolicy) : Text :=
  L.routeIdentity (L.normalizeRoute route)

def fieldChanges (before after : TqRoutePolicy) : List TqApplyPlanFieldChange :=
  if options.includeFieldLevelChanges then
    (comparePolicyIr before after).map fun path =>
      { fieldPath := path, impact := mapFieldPathToSemanticImpact path }
  else []

/-- What becomes of a route of the new policy. -/
def planRoute (before : List TqRoutePolicy) (after : TqRoutePolicy) :
    Option TqApplyPlanRouteChange :=
  let afterIdentity := computeRoutePolicyIdentity L after
  match routeById before after.routeId with
  | none => some { routeId := after.routeId, kind := .added, afterIdentity }
  | some old =>
    let beforeIdentity := computeRoutePolicyIdentity L old
    if beforeIdentity ≠ afterIdentity then
      some
        { routeId := after.routeId, kind := .modified, beforeIdentity, afterIdentity
          fieldChanges := fieldChanges options old after }
    else if options.includeUnchangedRoutes then
      some { routeId := after.routeId, kind := .unchanged, beforeIdentity, afterIdentity }
    else none

/-- What becomes of a route of the old policy, if the new one has none of its id. -/
def planRemoval (after : List TqRoutePolicy) (before : TqRoutePolicy) :
    Option TqApplyPlanRouteChange :=
  match routeById after before.routeId with
  | some _ => none
  | none =>
    some
      { routeId := before.routeId, kind := .removed
        beforeIdentity := computeRoutePolicyIdentity L before }

/-- The route changes of `build_taperquery_apply_plan`. -/
def buildTaperqueryApplyPlan (before after : PolicyIr) :
    RouteChanges :=
  after.routes.filterMap (planRoute L options before.routes) ++
    before.routes.filterMap (planRemoval L after.routes)

variable {L options} {before after : List TqRoutePolicy} {route : TqRoutePolicy}
  {change : TqApplyPlanRouteChange}

theorem planRoute_cases (h : planRoute L options before route = some change) :
    change.routeId = route.routeId ∧ (change.kind = .unchanged → options.includeUnchangedRoutes) ∧
      (change.kind = .added ↔ routeById before route.routeId = none) := by
  unfold planRoute at h
  dsimp only at h
  split at h
  next hnone =>
    cases h
    exact ⟨rfl, by simp, by simp [hnone]⟩
  next old hold =>
    split at h
    · cases h
      exact ⟨rfl, by simp, by simp [hold]⟩
    · split at h
      next hoption =>
        cases h
        exact ⟨rfl, fun _ => hoption, by simp [hold]⟩
      next => cases h

theorem planRemoval_cases (h : planRemoval L after route = some change) :
    change.routeId = route.routeId ∧ change.kind = .removed ∧ routeById after route.routeId = none := by
  unfold planRemoval at h
  split at h
  · cases h
  next hnone =>
    cases h
    exact ⟨rfl, rfl, hnone⟩

section Documents

variable {old new : PolicyIr}

theorem mem_plan_iff : change ∈ buildTaperqueryApplyPlan L options old new ↔
      (∃ route ∈ new.routes, planRoute L options old.routes route = some change) ∨
        ∃ route ∈ old.routes, planRemoval L new.routes route = some change := by
  simp [buildTaperqueryApplyPlan]

section

variable (h : change ∈ buildTaperqueryApplyPlan L options old new)

include h

/-- The plan speaks of routes of the two policies only. -/
theorem plan_routeId : ∃ route ∈ old.routes ++ new.routes, route.routeId = change.routeId := by
  rcases mem_plan_iff.mp h with ⟨route, hmem, hplan⟩ | ⟨route, hmem, hplan⟩
  · exact ⟨route, mem_append_right _ hmem, (planRoute_cases hplan).1.symm⟩
  · exact ⟨route, mem_append_left _ hmem, (planRemoval_cases hplan).1.symm⟩

theorem plan_changed (hoptions : options.includeUnchangedRoutes = false) :
    change.kind ≠ .unchanged := by
  intro hkind
  rcases mem_plan_iff.mp h with ⟨route, -, hplan⟩ | ⟨route, -, hplan⟩
  · exact Bool.false_ne_true (hoptions.symm.trans ((planRoute_cases hplan).2.1 hkind))
  · cases hkind.symm.trans (planRemoval_cases hplan).2.1

/-- A route is added if the old policy has none of its id. -/
theorem plan_added_iff : change.kind = .added ↔ routeById old.routes change.routeId = none := by
  rcases mem_plan_iff.mp h with ⟨route, -, hplan⟩ | ⟨route, hmem, hplan⟩
  · rw [(planRoute_cases hplan).1]
    exact (planRoute_cases hplan).2.2
  · obtain ⟨hid, hkind, -⟩ := planRemoval_cases hplan
    have hsome : (routeById old.routes change.routeId).isSome :=
      find?_isSome.mpr ⟨route, mem_reverse.mpr hmem, by simp [hid]⟩
    simp [hkind, Option.isSome_iff_ne_none.mp hsome]

end

theorem length_plan_le : (buildTaperqueryApplyPlan L options old new).length ≤
      old.routes.length + new.routes.length := by
  have hnew := length_filterMap_le (planRoute L options old.routes) new.routes
  have hold := length_filterMap_le (planRemoval L new.routes) old.routes
  rw [buildTaperqueryApplyPlan, length_append]
  omega

end Documents

end Plan

/-! ## Plans of normal forms -/

section Marks

variable (L : RouteLanguage TqRoutePolicy) (options : TqApplyPlanOptions)

/-- The routes that a plan speaks of, each with what becomes of it. -/
def planMarks (before after : PolicyIr) : List (Text × TqRouteChangeKind) :=
  (buildTaperqueryApplyPlan L options before after).map fun change => (change.routeId, change.kind)

/-- The route is rewritten without a change of what plans compare. -/
def KeepsIdentity (f : TqRoutePolicy → TqRoutePolicy) : Prop :=
  ∀ route, (f route).routeId = route.routeId ∧
    computeRoutePolicyIdentity L (f route) = computeRoutePolicyIdentity L route

variable {L options} {f g : TqRoutePolicy → TqRoutePolicy}

theorem routeById_map (hf : KeepsIdentity L f) (routes : List TqRoutePolicy) (routeId : Text) :
    routeById (routes.map f) routeId = (routeById routes routeId).map f := by
  have hsame : (fun route => (f route).routeId == routeId) = (·.routeId == routeId) :=
    funext fun route => by rw [(hf route).1]
  rw [routeById, ← map_reverse, find?_map]
  exact congrArg (fun p => (routes.reverse.find? p).map f) hsame

/-- What a plan marks does not change if the routes of both sides are rewritten. -/
theorem planMarks_map (hf : KeepsIdentity L f) (hg : KeepsIdentity L g)
    {old old' new new' : PolicyIr} (hold : old'.routes = old.routes.map f)
    (hnew : new'.routes = new.routes.map g) :
    planMarks L options old' new' = planMarks L options old new := by
  simp only [planMarks, buildTaperqueryApplyPlan, hold, hnew, filterMap_map, map_append,
    map_filterMap]
  congr 1
  · refine filterMap_congr fun route _ => ?_
    simp only [Function.comp, planRoute, (hg route).1, (hg route).2, routeById_map hf]
    cases routeById old.routes route.routeId with
    | none => rfl
    | some before =>
      simp only [Option.map_some, (hf before).2]
      split_ifs <;> rfl
  · refine filterMap_congr fun route _ => ?_
    simp only [Function.comp, planRemoval, (hf route).1, routeById_map hg]
    cases routeById new.routes route.routeId <;> rfl

end Marks

/-- Normalizing is stable: twice is once, and neither the identities nor what plans make of the
    routes tell a document from its normal form. -/
theorem normalizePolicyIr_stable (siphash : Text → UInt64) (sha256Hex : Text → Text)
    (printRoute : TqRoutePolicy → Text)
    (loadYaml : Text → Except Text PolicyIr) (options : TqApplyPlanOptions) (d third : PolicyIr) :
    let L := policyLanguage siphash sha256Hex printRoute loadYaml
    let normal := L.normalizePolicyIr d
    let identities := map (computeRoutePolicyIdentity L.toRouteLanguage)
    let marks := planMarks L.toRouteLanguage options
    L.normalizePolicyIr normal = normal ∧
      L.computePolicyDocumentIdentity normal = L.computePolicyDocumentIdentity d ∧
      identities normal.routes = identities d.routes ∧
      marks normal third = marks d third ∧ marks third normal = marks third d := by
  intro L normal identities marks
  have hkeeps : KeepsIdentity L.toRouteLanguage L.normalizeRoute := fun route =>
    ⟨rfl, congrArg L.routeIdentity (L.normalizeRoute_idem route)⟩
  have hid : KeepsIdentity L.toRouteLanguage id := fun _ => ⟨rfl, rfl⟩
  have hthird : third.routes = third.routes.map id := (map_id _).symm
  refine ⟨L.normalizePolicyIr_idem d, L.computePolicyDocumentIdentity_normalize d, ?_,
    planMarks_map hkeeps hid rfl hthird, planMarks_map hid hkeeps hthird rfl⟩
  exact map_map.trans (map_congr_left fun route _ => (hkeeps route).2)

end ByteTaper.TaperQuery
