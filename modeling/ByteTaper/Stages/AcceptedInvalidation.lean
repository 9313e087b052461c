import ByteTaper.Runtime.ConversionRoundTrip
import ByteTaper.Stages.MutationInvalidation
import Mathlib.Data.List.Find

/-! # Invalidation rules that the validator accepts

A rule passes `validate_taperquery_policy_ir`, is converted for the runtime, and is then resolved by
`resolve_invalidation_targets` when a mutation comes in. The conversion cuts the ids of the targets, and
the resolver knows one strategy only; the validator looks at neither. -/

namespace ByteTaper.Stages

open List
open JsonTransform (cString)
open ByteTaper.Runtime Policy TaperQuery

variable {policy : PolicyIr} {options : TqPolicyValidationOptions}
  {route : TqRoutePolicy} {target : TqCacheInvalidationTarget} {routes : List TqRoutePolicy}

/-! ## What is accepted -/

/-- What the checks of a route ensure about its rule. -/
structure AcceptedRule (route : TqRoutePolicy) : Prop where
  methods : ∀ name ∈ route.cache.invalidation.onMethods,
    ∃ method, isMutationMethod method = true ∧ methodToString method = name
  mutation : route.allowedMethod ≠ .get
  nonempty : route.cache.invalidation.targets ≠ []
  count : route.cache.invalidation.targets.length ≤ kMaxCacheInvalidationTargets
  ids : ∀ target ∈ route.cache.invalidation.targets, target.routeId ≠ []

theorem acceptedRule {strict : Bool} (h : hasError (routeIssues strict route) = false)
    (hon : route.cache.invalidation.enabled) : AcceptedRule route := by
  have hcnt := targetCount_of_accepted h hon
  have hinv := invalidation_of_accepted h
  simp only [invalidationIssues, hon, if_true, flatten_cons, hasError_append,
    Bool.or_eq_false_iff] at hinv
  obtain ⟨hmeths, -, hmut, htgts, -, hids, -⟩ := hinv
  refine ⟨?_, ?_, ?_, hcnt, ?_⟩
  · intro name hname
    unfold methodIssues at hmeths
    split at hmeths
    next hempty => simp [List.isEmpty_iff.mp hempty] at hname
    have hnamed := any_eq_false.mp ((hasError_flatMap _ _).symm.trans hmeths) name hname
    simp only [hasError_issueIf, isError_routeError, Bool.and_true, Bool.and_eq_true,
      decide_eq_true_eq, not_and, Decidable.not_not] at hnamed
    by_cases hpatch : name = lit "PATCH"
    · exact ⟨.patch, rfl, hpatch.symm⟩
    by_cases hput : name = lit "PUT"
    · exact ⟨.put, rfl, hput.symm⟩
    · exact ⟨.delete, rfl, (hnamed ⟨hpatch, hput⟩).symm⟩
  · rintro hget
    simp [hget, isMutationMethod] at hmut
  · rintro hnil
    simp [targetCountIssues, hnil] at htgts
  · intro target htgt hnil
    have hid := any_eq_false.mp ((hasError_flatMap _ _).symm.trans hids) target htgt
    simp [hnil] at hid

/-! ## What is resolved -/

/-- The first route whose id is read as that of the target at run time can be invalidated, and the id of
    the mutation route is not read so. -/
def Reached (routes : List TqRoutePolicy) (route : TqRoutePolicy) (target : TqCacheInvalidationTarget) :
    Prop :=
  cString route.routeId ≠ target.routeId ∧
    ∃ named, routes.find? (fun other => cString other.routeId == target.routeId) = some named ∧
      storesResponses named = true ∧ named.allowedMethod = .get

/-- What a target must have for the resolver. -/
def Resolvable (routes : List TqRoutePolicy) (route : TqRoutePolicy)
    (target : TqCacheInvalidationTarget) : Prop :=
  target.strategy = .routeEpoch ∧ FitsIn kMaxRouteIdLen target.routeId ∧ Reached routes route target

theorem findRouteById_map {id : Text} (hid : id ≠ []) :
    findRouteById (routes.map convertTqRoutePolicyToRuntime) id =
      (routes.find? fun other => cString other.routeId == id).map convertTqRoutePolicyToRuntime := by
  rw [findRouteById, find?_map]
  congr 2
  funext other
  show (!(cString other.routeId).isEmpty && cString other.routeId == id) = _
  cases h : cString other.routeId == id with
  | false => simp
  | true => simpa [eq_of_beq h] using hid

theorem resolveTarget_eq_ok_iff {routes : List RoutePolicy} {mutationRoute : RoutePolicy}
    {target} {id : Text} :
    resolveTarget routes mutationRoute target = .ok id ↔
      target.routeId ≠ [] ∧ target.strategy = .routeEpoch ∧
        target.routeId.take (kInvalidationRouteIdMaxLen - 1) = id ∧
        ∃ named, findRouteById routes target.routeId = some named ∧
          named.routeId ≠ mutationRoute.routeId ∧ named.cache.enabled ∧
          named.cache.behavior = .store ∧ named.allowedMethod = .get := by
  unfold resolveTarget
  by_cases hid : target.routeId = []
  · simp [hid]
  rw [if_neg (by simpa using hid)]
  cases findRouteById routes target.routeId with
  | none => simp
  | some =>
    simp only
    split_ifs <;> simp_all

/-- The conversion keeps what the resolver asks of a target route. -/
theorem invalidable_convert_iff (named : TqRoutePolicy) :
    (convertTqRoutePolicyToRuntime named).cache.enabled ∧
        (convertTqRoutePolicyToRuntime named).cache.behavior = .store ∧
        (convertTqRoutePolicyToRuntime named).allowedMethod = .get ↔
      storesResponses named ∧ named.allowedMethod = .get := by
  have hbehavior : behaviorCast named.cache.behavior = .store ↔ named.cache.behavior = .store :=
    behaviorCast.injective.eq_iff' rfl
  have hmeth : methodCast named.allowedMethod = .get ↔ named.allowedMethod = .get :=
    methodCast.injective.eq_iff' rfl
  rw [storesResponses, Bool.and_eq_true, decide_eq_true_eq, and_assoc, ← hbehavior, ← hmeth]
  rfl

theorem resolveTarget_iff (hid : target.routeId ≠ []) :
    resolveTarget (routes.map convertTqRoutePolicyToRuntime) (convertTqRoutePolicyToRuntime route)
        (targetToRuntime target) = .ok target.routeId ↔
      Resolvable routes route target := by
  have hstrat : (targetToRuntime target).strategy = .routeEpoch ↔ target.strategy = .routeEpoch :=
    strategyCast.injective.eq_iff' rfl
  have hcut : (targetToRuntime target).routeId.take (kInvalidationRouteIdMaxLen - 1) =
      cutTo kMaxRouteIdLen target.routeId :=
    take_of_length_le (Nat.le_of_lt_succ (length_cutTo_lt (by decide) _))
  have hfits : cutTo kMaxRouteIdLen target.routeId = target.routeId ↔ _ :=
    cutTo_eq_self_iff (by decide) _
  rw [resolveTarget_eq_ok_iff, hstrat, hcut, Resolvable, ← hfits, Reached]
  constructor
  · rintro ⟨-, hepoch, hsame, named, hfind, hother, hnamed⟩
    rw [show (targetToRuntime target).routeId = _ from hsame, findRouteById_map hid] at hfind
    obtain ⟨found, hfound, rfl⟩ := Option.map_eq_some_iff.mp hfind
    refine ⟨hepoch, hsame, ?_, found, hfound, (invalidable_convert_iff found).mp hnamed⟩
    have hid : cString found.routeId = target.routeId := by simpa using find?_some hfound
    exact fun hself => hother (congrArg some (hid.trans hself.symm))
  · rintro ⟨hepoch, hsame, hother, named, hfind, hnamed⟩
    rw [show (targetToRuntime target).routeId = _ from hsame, findRouteById_map hid, hfind]
    refine ⟨hid, hepoch, hsame, _, rfl, ?_, (invalidable_convert_iff named).mpr hnamed⟩
    have hid : cString named.routeId = target.routeId := by simpa using find?_some hfind
    exact fun hself => hother ((Option.some.inj hself).symm.trans hid)

theorem mapM_eq_map_iff {ε α β γ : Type} (f : α → Except ε β) (g : γ → α) (h : γ → β) (l : List γ) :
    (l.map g).mapM f = .ok (l.map h) ↔ ∀ a ∈ l, f (g a) = .ok (h a) := by
  induction l with
  | nil => exact ⟨fun _ => by simp, fun _ => rfl⟩
  | cons a l ih =>
    rw [map_cons, mapM_cons, forall_mem_cons, ← ih]
    cases f (g a) with
    | error => exact iff_of_false (by rintro ⟨⟩) (by rintro ⟨⟨⟩, -⟩)
    | ok b =>
      cases (l.map g).mapM f with
      | error => exact iff_of_false (by rintro ⟨⟩) (by rintro ⟨-, ⟨⟩⟩)
      | ok bs =>
        constructor
        · intro hall
          have hcons : b :: bs = h a :: l.map h := Except.ok.inj hall
          obtain ⟨rfl, rfl⟩ := List.cons.inj hcons
          exact ⟨rfl, rfl⟩
        · rintro ⟨hb, hbs⟩
          obtain rfl := Except.ok.inj hb
          obtain rfl := Except.ok.inj hbs
          rfl

theorem eq_of_routeId {first second : TqRoutePolicy} (h : hasError (duplicateIdIssues routes) = false)
    (hfst : first ∈ routes) (hsnd : second ∈ routes) (hid : first.routeId = second.routeId)
    (hne : first.routeId ≠ []) : first = second := by
  induction routes with
  | nil => cases hfst
  | cons head later ih =>
    rw [duplicateIdIssues, hasError_append, Bool.or_eq_false_iff] at h
    have hhead : ∀ other ∈ later, head.routeId = other.routeId → head.routeId = [] := by
      intro other hother hsame
      by_contra hne
      have hkept : other ∈ later.filter fun r2 => !head.routeId.isEmpty && head.routeId = r2.routeId :=
        mem_filter.mpr ⟨hother, by simp [← hsame, hne]⟩
      exact any_eq_false.mp h.1 _ (mem_map_of_mem hkept) rfl
    rcases mem_cons.mp hfst with rfl | hlater <;>
      rcases mem_cons.mp hsnd with rfl | hlater'
    · rfl
    · exact absurd (hhead second hlater' hid) hne
    · exact absurd (hid.trans (hhead first hlater hid.symm)) hne
    · exact ih h.2 hlater hlater'

/-- A policy whose ids can be read at run time reaches its targets. -/
theorem reached_of_accepted (h : (validateTaperqueryPolicyIr policy options).ok)
    (hids : ∀ other ∈ policy.routes, '\x00' ∉ other.routeId) (hroute : route ∈ policy.routes)
    (hon : route.cache.invalidation.enabled)
    (htgt : target ∈ route.cache.invalidation.targets) : Reached policy.routes route target := by
  have hrule := acceptedRule (routeIssues_of_ok h hroute) hon
  rw [validateTaperqueryPolicyIr_ok] at h
  simp only [policyIssues, flatten_cons, hasError_append, hasError_flatMap, Bool.not_eq_true',
    Bool.or_eq_false_iff, any_eq_false] at h
  obtain ⟨-, -, -, hduplicates, htgts, -⟩ := h
  -- the route that the target names
  obtain ⟨named, hfind, hstores, hget⟩ : ∃ named,
      policy.routes.find? (·.routeId == target.routeId) = some named ∧
        storesResponses named ∧ named.allowedMethod = .get := by
    have hissues := htgts route hroute
    simp only [targetIssues, hon, if_true, hasError_flatMap, Bool.not_eq_true,
      any_eq_false] at hissues
    have hnamed := hissues target htgt
    simp only [targetRouteIssues, List.isEmpty_iff, hrule.ids target htgt, if_false] at hnamed
    cases hfind : policy.routes.find? (·.routeId == target.routeId) with
    | none => simp [hfind] at hnamed
    | some named => exact ⟨named, rfl, by simpa [hfind] using hnamed⟩
  have hread : ∀ other ∈ policy.routes, cString other.routeId = other.routeId :=
    fun other hother => (cString_eq_self_iff _).mpr (hids other hother)
  have hid : named.routeId = target.routeId := by simpa using find?_some hfind
  refine ⟨?_, named, ?_, hstores, hget⟩
  · rw [hread route hroute]
    intro hself
    have hsame := eq_of_routeId hduplicates hroute (mem_of_find?_eq_some hfind)
      (hself.trans hid.symm) (hself ▸ hrule.ids target htgt)
    exact hrule.mutation (hsame ▸ hget)
  · rw [← hfind]
    exact find?_congr fun other hother => by rw [hread other hother]

/-- A rule that the validator accepts resolves all its targets for each of its methods, with its range of
    status codes, if and only if every target has the strategy that the resolver knows and an id that the
    conversion keeps and that leads to its route. The last is so if no id has a terminator in it. -/
theorem accepted_rule_resolves_iff (h : (validateTaperqueryPolicyIr policy options).ok = true)
    (hroute : route ∈ policy.routes) (henabled : route.cache.invalidation.enabled = true) :
    (∀ name ∈ route.cache.invalidation.onMethods, ∃ method, methodToString method = name ∧
      (resolveInvalidationTargets (some (policy.routes.map convertTqRoutePolicyToRuntime))
          (convertTqRoutePolicyToRuntime route) (methodCast method) =
          .ok
            { routeIds := route.cache.invalidation.targets.map (·.routeId)
              successStatusMin := route.cache.invalidation.successStatusMin
              successStatusMax := route.cache.invalidation.successStatusMax } ↔
        ∀ target ∈ route.cache.invalidation.targets, Resolvable policy.routes route target)) ∧
      ((∀ other ∈ policy.routes, '\x00' ∉ other.routeId) →
        ∀ target ∈ route.cache.invalidation.targets, Reached policy.routes route target) := by
  have hrule := acceptedRule (routeIssues_of_ok h hroute) henabled
  refine ⟨?_, fun hids target htgt => reached_of_accepted h hids hroute henabled htgt⟩
  intro name hname
  obtain ⟨method, hmut, rfl⟩ := hrule.methods name hname
  refine ⟨method, rfl, ?_⟩
  have hallows : (methodCast method = .patch ∨ methodCast method = .put ∨ methodCast method = .delete) ∧
      invalidationPolicyAllowsMethod (invalidationToRuntime route.cache.invalidation)
        (methodCast method) := by
    cases method with
    | patch => exact ⟨.inl rfl, decide_eq_true hname⟩
    | put => exact ⟨.inr (.inl rfl), decide_eq_true hname⟩
    | delete => exact ⟨.inr (.inr rfl), decide_eq_true hname⟩
    | any | get | post => cases hmut
  have htargets : (invalidationToRuntime route.cache.invalidation).targets =
      route.cache.invalidation.targets.map targetToRuntime := by
    rw [invalidationToRuntime, take_of_length_le hrule.count]
  have hcnt : ¬ kMaxResolvedInvalidationTargets <
      (route.cache.invalidation.targets.map targetToRuntime).length := by
    rw [length_map]
    exact Nat.not_lt.mpr hrule.count
  unfold resolveInvalidationTargets
  simp only [show (convertTqRoutePolicyToRuntime route).cache.invalidation =
    invalidationToRuntime route.cache.invalidation from rfl, htargets]
  rw [if_neg (by simpa [invalidationToRuntime] using henabled), if_neg (by tauto),
    if_neg (by simp [hallows.2]), if_neg (by simpa using hrule.nonempty), if_neg hcnt]
  have hresolved := mapM_eq_map_iff
    (resolveTarget (policy.routes.map convertTqRoutePolicyToRuntime) (convertTqRoutePolicyToRuntime route))
    targetToRuntime (·.routeId) route.cache.invalidation.targets
  rw [← forall₂_congr fun target htgt => resolveTarget_iff (hrule.ids target htgt), ← hresolved]
  generalize List.mapM (resolveTarget _ _) _ = resolved
  cases resolved with
  | error => exact iff_of_false (by rintro ⟨⟩) (by rintro ⟨⟩)
  | ok =>
    constructor
    · intro hok
      exact congrArg Except.ok (congrArg ResolvedInvalidationTargets.routeIds (Except.ok.inj hok))
    · intro hok
      obtain rfl := Except.ok.inj hok
      rfl

/-! ## A strategy that is not supported -/

/-- A route that invalidates the prices. -/
def repriceRoute (strategy : TqCacheInvalidationStrategy) : TqRoutePolicy where
  routeId := lit "reprice"
  matchPrefix := lit "/reprice"
  mutation := .full
  allowedMethod := .patch
  cache :=
    { invalidation :=
        { enabled := true, onMethods := [lit "PATCH"]
          targets := [{ routeId := lit "prices", strategy }] } }

def repricePolicy (strategy : TqCacheInvalidationStrategy) : PolicyIr :=
  { pricesPolicy 30000 with routes := [pricesRoute 30000, repriceRoute strategy] }

def repriceTargets (strategy : TqCacheInvalidationStrategy) :=
  resolveInvalidationTargets
    (some ((repricePolicy strategy).routes.map convertTqRoutePolicyToRuntime))
    (convertTqRoutePolicyToRuntime (repriceRoute strategy)) .patch

theorem epoch_target_resolves :
    repriceTargets .routeEpoch =
      .ok { routeIds := [lit "prices"], successStatusMin := 200, successStatusMax := 299 } := by
  obtain ⟨hresolves, hreached⟩ := @accepted_rule_resolves_iff (repricePolicy .routeEpoch) {}
    (repriceRoute .routeEpoch) (by decide +kernel) (by simp [repricePolicy]) rfl
  obtain ⟨method, hmeth, hiff⟩ := hresolves (lit "PATCH") (mem_singleton_self _)
  obtain rfl : method = .patch := by
    cases method <;> first | rfl | exact absurd hmeth (by decide +kernel)
  refine hiff.mpr fun target htgt => ⟨?_, ?_, hreached (by decide +kernel) target htgt⟩
  · exact (mem_singleton.mp htgt) ▸ rfl
  · exact (mem_singleton.mp htgt) ▸ by decide +kernel

/-- The validator only warns of a strategy that the resolver refuses. -/
theorem exact_key_target_refused :
    (validateTaperqueryPolicyIr (repricePolicy .exactKey) {}).ok = true ∧
      repriceTargets .exactKey = .error (.unsupportedStrategy, "unsupported-strategy") := by
  decide +kernel

end ByteTaper.Stages
