import ByteTaper.Operational.ActivationAtomicity

/-! # The routes that an activation reaches

The routes to register and to bump come from the comparison of the new policy with a base. The base need
not be the policy that is served, and a route that the base has is never registered. -/

namespace ByteTaper.Operational

open ByteTaper.Runtime TaperQuery List ActivationState

/-! ## Changed settings -/

/-- The routes filter fields differently, or one of the cache settings in use is another one. -/
def CacheSettingsDiffer (served policy : TqRoutePolicy) : Prop :=
  served.fieldFilter ≠ policy.fieldFilter ∨ served.cache.inUse ≠ policy.cache.inUse

instance (served policy : TqRoutePolicy) : Decidable (CacheSettingsDiffer served policy) :=
  inferInstanceAs (Decidable (_ ∨ _))

theorem any_fieldChanges (base route : TqRoutePolicy) :
    ((fieldChanges {} base route).any fun field => isCacheImpacting field.impact) =
      decide (CacheSettingsDiffer base route) := by
  have himpact := comparePolicyIr_impact_iff base route
  simp only [fieldChanges, if_true, any_map, Function.comp_def]
  change (comparePolicyIr base route).any impactsCache = _
  rw [Bool.eq_iff_iff, decide_eq_true_eq, CacheSettingsDiffer, ← not_and_or, ← himpact,
    Bool.not_eq_false]

open TqApplyPlanRouteChange

section Bumps

variable (L : RouteLanguage TqRoutePolicy)

/-- The base has a route of this id with another identity and other settings. -/
def bumpsOver (base : List TqRoutePolicy) (route : TqRoutePolicy) : Bool :=
  (routeById base route.routeId).any fun old =>
    computeRoutePolicyIdentity L old ≠ computeRoutePolicyIdentity L route &&
      decide (CacheSettingsDiffer old route)

/-- How often the route is bumped: once for every route of the policy that has its id. -/
def bumpCount (base policy : List TqRoutePolicy) (routeId : Text) : Nat :=
  policy.countP fun route => route.routeId == routeId && bumpsOver L base route

variable {L}

theorem bumps_planRoute (base : List TqRoutePolicy) (route : TqRoutePolicy) (routeId : Text) :
    ((planRoute L {} base route).map fun change =>
      change.bumps && change.routeId == routeId).getD false =
      (route.routeId == routeId && bumpsOver L base route) := by
  cases hold : routeById base route.routeId with
  | none => simp [planRoute, bumpsOver, hold, bumps]
  | some old =>
    by_cases hident : computeRoutePolicyIdentity L old = computeRoutePolicyIdentity L route
    · simp [planRoute, bumpsOver, hold, hident]
    · simp [planRoute, bumpsOver, hold, hident, bumps, any_fieldChanges, Bool.and_comm]

/-- The plan bumps a route as often as that. -/
theorem countP_plan_bumps (base policy : PolicyIr) (routeId : Text) :
    (changesOf routeId (buildTaperqueryApplyPlan L {} base policy)).countP (·.bumps) =
      bumpCount L base.routes policy.routes routeId := by
  have hrem : (base.routes.filterMap (planRemoval L policy.routes)).countP
      (fun change => change.bumps && change.routeId == routeId) = 0 := by
    refine countP_eq_zero.mpr fun change hmem => ?_
    obtain ⟨route, -, hplan⟩ := mem_filterMap.mp hmem
    simp [bumps, (planRemoval_cases hplan).2.1]
  rw [changesOf, countP_filter, buildTaperqueryApplyPlan, countP_append, hrem,
    Nat.add_zero, countP_filterMap, bumpCount]
  simp [bumps_planRoute]

end Bumps

/-! ## What is to hold after an activation -/

def ActivationState.servedPolicy (state : ActivationState) : PolicyIr :=
  ((state.policyStore.bind (·.active)).map (·.policyIr)).getD {}

/-- Every route of the policy is registered, and the epoch of every route that was served with other
    settings has grown. A route that was not registered counts as epoch `0`. -/
structure Covers (policy : PolicyIr) (state after : ActivationState) : Prop where
  registered : ∀ route ∈ policy.routes, (after.registeredEpoch route.routeId).isSome = true
  grown : ∀ served ∈ state.servedPolicy.routes, ∀ route ∈ policy.routes,
    served.routeId = route.routeId → CacheSettingsDiffer served route →
      (state.registeredEpoch route.routeId).getD 0 < (after.registeredEpoch route.routeId).getD 0

/-- Every route of the policy is registered or not in the base, and every registered route that is served
    with other settings is bumped over the base without a wrap. -/
structure BaseCovers (L : RouteLanguage TqRoutePolicy) (input : ActivationInput)
    (state : ActivationState) : Prop where
  registered : ∀ route ∈ input.after.routes,
    (state.registeredEpoch route.routeId).isSome = true ∨
      state.epochs.isSome = true ∧ routeById input.before.routes route.routeId = none
  grown : ∀ served ∈ state.servedPolicy.routes, ∀ route ∈ input.after.routes,
    served.routeId = route.routeId → CacheSettingsDiffer served route →
      ∀ epoch, state.registeredEpoch route.routeId = some epoch →
        0 < bumpCount L input.before.routes input.after.routes route.routeId ∧
          epoch.toNat + bumpCount L input.before.routes input.after.routes route.routeId < 2 ^ 64

/-! ## Epochs after versioning -/

theorem lt_add_ofNat_iff {epoch : UInt64} {n : Nat} (hn : n < 2 ^ 64) :
    epoch < epoch + UInt64.ofNat n ↔ 0 < n ∧ epoch.toNat + n < 2 ^ 64 := by
  have hepoch := epoch.toNat_lt
  rw [UInt64.lt_iff_toNat_lt, UInt64.toNat_add, UInt64.toNat_ofNat_of_lt' hn]
  rcases Nat.lt_or_ge (epoch.toNat + n) (2 ^ 64) with hsum | hsum
  · omega
  · omega

section Versioned

variable {L : RouteLanguage TqRoutePolicy} {base policy : PolicyIr}
  {store after : RouteCacheEpochStore} {routes : List TqRouteCacheCleanupPlan}
  {route : TqRoutePolicy}

/-- A route of the policy is added if the base has none of its id. -/
theorem exists_added_iff (hroute : route ∈ policy.routes) :
    (∃ change ∈ buildTaperqueryApplyPlan L {} base policy,
      change.kind = .added ∧ change.routeId = route.routeId) ↔
      routeById base.routes route.routeId = none := by
  constructor
  · rintro ⟨change, hmem, hkind, hid⟩
    rw [← hid]
    exact (plan_added_iff hmem).mp hkind
  · intro hnone
    exact ⟨_, mem_plan_iff.mpr (.inl ⟨route, hroute, by rw [planRoute, hnone]⟩), rfl, rfl⟩

variable (h : Versioned store (buildTaperqueryApplyPlan L {} base policy) after routes)
  (hfits : ∀ change ∈ buildTaperqueryApplyPlan L {} base policy,
    change.routeId.length < kEpochRouteIdSize)

include h hfits

theorem registered_iff (hroute : route ∈ policy.routes) :
    (routeCacheEpochGet after route.routeId).isSome ↔
      (routeCacheEpochGet store route.routeId).isSome ∨
        routeById base.routes route.routeId = none := by
  rw [← exists_added_iff hroute]
  exact h.isRegistered_iff hfits route.routeId

theorem get_of_registered {epoch : UInt64} {routeId : Text}
    (hepoch : routeCacheEpochGet store routeId = some epoch) :
    routeCacheEpochGet after routeId =
      some (epoch + UInt64.ofNat (bumpCount L base.routes policy.routes routeId)) := by
  rw [h.get hfits, hepoch, effects_some, countP_plan_bumps]

/-- A route that the versioning registers starts with the first epoch. -/
theorem get_of_added (hroute : route ∈ policy.routes)
    (hepoch : routeCacheEpochGet store route.routeId = none)
    (hbase : routeById base.routes route.routeId = none) :
    routeCacheEpochGet after route.routeId = some kInitialRouteCacheEpoch := by
  have hbumps : bumpCount L base.routes policy.routes route.routeId = 0 := by
    refine countP_eq_zero.mpr fun other _ hother => ?_
    simp only [Bool.and_eq_true, beq_iff_eq] at hother
    simp [bumpsOver, hother.1, hbase] at hother
  rw [h.get hfits, hepoch]
  rw [← countP_plan_bumps] at hbumps
  obtain ⟨change, hmem, hkind, hid⟩ := (exists_added_iff (L := L) hroute).mpr hbase
  cases hchs : changesOf route.routeId (buildTaperqueryApplyPlan L {} base policy) with
  | nil =>
    have hmine : change ∈ changesOf route.routeId (buildTaperqueryApplyPlan L {} base policy) := by
      simp [changesOf, hmem, hid]
    rw [hchs] at hmine
    cases hmine
  | cons first rest =>
    -- The first change of the route adds it, and none of the others bumps it.
    have hfst : first ∈ changesOf route.routeId (buildTaperqueryApplyPlan L {} base policy) := by
      simp [hchs]
    obtain ⟨hplan, hfirstId⟩ : first ∈ buildTaperqueryApplyPlan L {} base policy ∧
        first.routeId = route.routeId := by simpa [changesOf] using hfst
    have hadded : first.kind = .added := (plan_added_iff hplan).mpr (hfirstId ▸ hbase)
    rw [hchs, countP_cons] at hbumps
    have hrest : rest.countP (·.bumps) = 0 := by omega
    rw [effects, foldl_cons, ← effects,
      show first.effect none = some kInitialRouteCacheEpoch by
        simp [effect, hadded], effects_some, hrest]
    simp

end Versioned

/-! ## Activations that succeed -/

section Succeeded

variable {L : IrLanguage} {config : PolicyActivationBarrierConfig}
  {request : PolicyActivationRequest} {state after : ActivationState}
  {result : PolicyActivationResult} {input : ActivationInput}

/-- Without an epoch store no route is registered. -/
theorem covers_iff_of_none (heps : state.epochs = none) (hafter : after.epochs = none) :
    Covers input.after state after ↔ BaseCovers L.toRouteLanguage input state := by
  have hno : ∀ routeId, state.registeredEpoch routeId = none := by
    simp [registeredEpoch, heps]
  have hstill : ∀ routeId, after.registeredEpoch routeId = none := by
    simp [registeredEpoch, hafter]
  constructor
  · intro hcovers
    exact ⟨fun route hroute => by simpa [hstill] using hcovers.registered route hroute,
      fun _ _ _ _ _ _ epoch hepoch => by simp [hno] at hepoch⟩
  · intro hbase
    have hempty : ∀ route, route ∉ input.after.routes := fun route hroute => by
      simpa [hno, heps] using hbase.registered route hroute
    exact ⟨fun route hroute => absurd hroute (hempty route),
      fun _ _ route hroute => absurd hroute (hempty route)⟩

theorem covers_iff_of_versioned {store versioned routes} (hread : input.Readable)
    (hmade : Versioned store (input.plan L) versioned routes)
    (heps : state.epochs = some store) (hafter : after.epochs = some versioned) :
    Covers input.after state after ↔ BaseCovers L.toRouteLanguage input state := by
  have hold : ∀ routeId, state.registeredEpoch routeId = routeCacheEpochGet store routeId := by
    simp [registeredEpoch, heps]
  have hnew : ∀ routeId, after.registeredEpoch routeId = routeCacheEpochGet versioned routeId := by
    simp [registeredEpoch, hafter]
  have hreg : ∀ route ∈ input.after.routes, ((after.registeredEpoch route.routeId).isSome ↔
        (state.registeredEpoch route.routeId).isSome ∨
          state.epochs.isSome ∧ routeById input.before.routes route.routeId = none) := by
    intro route hroute
    rw [hold, hnew, heps, registered_iff hmade hread.plan_ids hroute]
    simp
  have hsize : ∀ routeId,
      bumpCount L.toRouteLanguage input.before.routes input.after.routes routeId < 2 ^ 64 := by
    intro routeId
    have hle : bumpCount L.toRouteLanguage input.before.routes input.after.routes routeId ≤ _ :=
      countP_le_length
    have hsizes := hread.sizes
    omega
  constructor
  · intro hcovers
    refine ⟨fun route hroute => (hreg route hroute).mp (hcovers.registered route hroute),
      fun served hserv route hroute hid hdiffer epoch hepoch => ?_⟩
    have hgrown := hcovers.grown served hserv route hroute hid hdiffer
    rw [hepoch, hnew, get_of_registered hmade hread.plan_ids (hold _ ▸ hepoch)] at hgrown
    exact (lt_add_ofNat_iff (hsize _)).mp hgrown
  · intro hbase
    refine ⟨fun route hroute => (hreg route hroute).mpr (hbase.registered route hroute),
      fun served hserv route hroute hid hdiffer => ?_⟩
    cases hepoch : state.registeredEpoch route.routeId with
    | some epoch =>
      rw [hnew, get_of_registered hmade hread.plan_ids (hold _ ▸ hepoch)]
      exact (lt_add_ofNat_iff (hsize _)).mpr
        (hbase.grown served hserv route hroute hid hdiffer epoch hepoch)
    | none =>
      have hadded : routeById input.before.routes route.routeId = none := by
        simpa [hepoch, heps] using hbase.registered route hroute
      rw [hnew, get_of_added hmade hread.plan_ids hroute (hold _ ▸ hepoch) hadded]
      decide

/-- A successful activation covers its policy if the base and the registered routes do. -/
theorem successful_activation_covers_iff
    (hactivate : activate L config request state = some (after, result)) (hok : result.ok = true)
    (hinput : activationInput L config request state = some (.ok input))
    (hread : input.Readable) :
    Covers input.after state after ↔ BaseCovers L.toRouteLanguage input state := by
  rcases activate_cases hactivate with ⟨hnone, -, -⟩ | ⟨found, hfound, h⟩
  · exact absurd hinput (hnone input)
  have hsame := hinput.symm.trans hfound
  cases hsame
  have hcases := activateInput_cases h
  rcases hcases with ⟨-, hfail, -⟩ | ⟨hsync, ⟨hfail, -⟩ | ⟨-, hafter⟩⟩
  · cases hok.symm.trans hfail
  · cases hok.symm.trans hfail
  cases hep : state.epochs with
  | none =>
    rw [hep] at hafter
    exact covers_iff_of_none hep hafter
  | some store =>
    obtain ⟨made, rest, versioned, hplan, hvers, hmade, hend⟩ :=
      versionEpochsForApply_cases store (input.plan L)
    rw [hep, syncRouteEpochs] at hsync hafter
    rcases hend with ⟨-, rfl⟩ | ⟨hnot, -⟩
    · rw [append_nil] at hplan
      rw [← hplan] at hmade
      exact covers_iff_of_versioned hread hmade hep (hafter.trans hvers)
    · cases hsync.symm.trans hnot

end Succeeded

/-- Both routes are registered, and served without the filters. -/
theorem successful_activation_covers_filtered :
    ∃ after result,
      activate sampleLanguage {} (pullOf 2 filteredPolicy)
        (servingState [lit "orders", lit "items"]) = some (after, result) ∧
      result.ok = true ∧
      Covers filteredPolicy (servingState [lit "orders", lit "items"]) after := by
  have hin := activationInput_pullOf 2 filteredPolicy [lit "orders", lit "items"]
  obtain ⟨after, result, hactv, hok⟩ : ∃ after result,
      activate sampleLanguage {} (pullOf 2 filteredPolicy)
        (servingState [lit "orders", lit "items"]) = some (after, result) ∧ result.ok := by
    rw [activate, hin]
    exact ⟨_, _, rfl, by decide +kernel⟩
  have hepoch : ∀ route ∈ filteredPolicy.routes,
      (servingState [lit "orders", lit "items"]).registeredEpoch route.routeId = some 1 := by
    decide +kernel
  have hcnt : ∀ route ∈ filteredPolicy.routes,
      bumpCount sampleLanguage.toRouteLanguage servedPolicy.routes filteredPolicy.routes
        route.routeId = 1 := by
    decide +kernel
  refine ⟨after, result, hactv, hok, (successful_activation_covers_iff hactv hok hin
    (filtered_readable 2 _ _ hin)).mpr ⟨fun route hrt => ?_, ?_⟩⟩
  · exact .inl (by simp [hepoch route hrt])
  · intro served _ route hrt _ _ epoch hsome
    have hone := (hepoch route hrt).symm.trans hsome
    cases hone
    rw [hcnt route hrt]
    decide

/-! ## A base that is not served -/

/-- Orders are filtered; items are as they were. -/
def committedOrders : PolicyIr :=
  { routes := [ordersRoute .allowlist, itemsRoute .none] }

/-- Every version that the control plane has is this policy. -/
def committedLanguage : IrLanguage :=
  { sampleLanguage with loadYaml := fun _ => .ok committedOrders }

def colocatedConfig : PolicyActivationBarrierConfig where
  policyStateStore := some fun _ => some (.ok (lit "orders: filtered"))

def colocatedInput : ActivationInput where
  store := { active := some servedSnapshot, generation := 1 }
  before := committedOrders
  after := committedOrders

theorem activationInput_colocated :
    activationInput committedLanguage colocatedConfig (pullOf 2 committedOrders)
      (servingState [lit "orders"]) = some (.ok colocatedInput) := by
  have hident : committedLanguage.computePolicyDocumentIdentity committedOrders =
      sampleLanguage.computePolicyDocumentIdentity committedOrders := rfl
  have hload : committedLanguage.loadYaml = fun _ => .ok committedOrders := rfl
  simp [activationInput, servingState, pullOf, pullRequest, basePolicy, committedPolicy,
    PolicyActivationRequest.beforeGeneration, colocatedConfig, loadPolicyIrFromStore, hident,
    hload, colocatedInput]

/-- The policy that is served came from elsewhere. The new policy is the one of the generation before,
    so that nothing is planned: items stay unregistered, and what was cached of orders stays in force. -/
theorem colocated_activation_covers_nothing :
    ∃ after result,
      activate committedLanguage colocatedConfig (pullOf 2 committedOrders)
        (servingState [lit "orders"]) = some (after, result) ∧
      result.ok = true ∧ after.registeredEpoch (lit "items") = none ∧
      after.registeredEpoch (lit "orders") =
        (servingState [lit "orders"]).registeredEpoch (lit "orders") ∧
      ¬Covers committedOrders (servingState [lit "orders"]) after := by
  have hitems : (activateInput committedLanguage colocatedConfig (pullOf 2 committedOrders)
      (servingState [lit "orders"]) colocatedInput).1.registeredEpoch (lit "items") = none := by
    decide +kernel
  rw [activate, activationInput_colocated]
  refine ⟨_, _, congrArg some (Prod.mk.eta).symm, by decide +kernel, hitems, by decide +kernel,
    fun hcovers => ?_⟩
  have hreg := hcovers.registered (itemsRoute .none) (by simp [committedOrders])
  have hid : (itemsRoute .none).routeId = lit "items" := rfl
  rw [hid, hitems] at hreg
  cases hreg

end ByteTaper.Operational
