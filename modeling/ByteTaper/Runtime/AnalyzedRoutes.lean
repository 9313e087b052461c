import ByteTaper.Policy.RouteMatcherAgreement
import ByteTaper.Runtime.RoutePolicyConversion
import ByteTaper.TaperQuery.RouteAnalysis

/-! # The analysis of routes and the matcher

`route_analysis.cpp` marks the routes that an earlier one may hide, and says of some that they will
never be reached. It compares methods and the segments of paths. The matcher of `route_matcher.h`
looks at the characters of the path only. -/

namespace ByteTaper.Runtime

open List Option
open JsonTransform (cString)
open Policy TaperQuery

/-! ## What is selected -/

section Selected

variable {kind : RouteMatchKind} {policies : List RoutePolicy} {path : Text}

/-- The first accepting route of a kind, in its place in the list. -/
theorem find?_routesFrom {n : Nat} {route : CompiledRoute}
    (h : (routesFrom kind n policies).find? (fun route => kind.accepts route.path path) =
      some route) :
    ∃ before policy after, policies = before ++ policy :: after ∧ route.policy = n + before.length ∧
      policy.matchKind = kind ∧ policy.accepts path ∧
      ∀ earlier ∈ before, earlier.matchKind = kind → earlier.accepts path = false := by
  induction policies generalizing n with
  | nil => cases h
  | cons head policies ih =>
    by_cases hhead : head.matchKind = kind ∧ head.accepts path
    · refine ⟨[], head, policies, rfl, ?_, hhead.1, hhead.2, by simp⟩
      obtain ⟨rfl, hacc⟩ := hhead
      unfold RoutePolicy.accepts at hacc
      cases hpath : head.matchPrefix with
      | none => simp [hpath] at hacc
      | some =>
        simp only [hpath] at hacc
        simp only [routesFrom, hpath, if_true, find?_cons, hacc, some.injEq] at h
        rw [← h]
        rfl
    · have hskip : (routesFrom kind (n + 1) policies).find?
          (fun route => kind.accepts route.path path) = some route := by
        rw [routesFrom] at h
        cases hpath : head.matchPrefix with
        | none => simpa [hpath] using h
        | some text =>
          simp only [hpath] at h
          split at h
          next hkind =>
            have hrefuses : kind.accepts text path = false := by
              simpa [RoutePolicy.accepts, hpath, hkind] using hhead
            simpa [hrefuses] using h
          next => exact h
      obtain ⟨before, policy, after, rfl, hpos, hkind, hacc, hbef⟩ := ih hskip
      refine ⟨head :: before, policy, after, rfl, ?_, hkind, hacc, ?_⟩
      · rw [hpos, length_cons]
        omega
      · intro earlier hearl hsame
        rcases mem_cons.mp hearl with rfl | hearl
        · simpa [hsame] using hhead
        · exact hbef earlier hearl hsame

/-- The selected route accepts the path, and no earlier route of its kind does. -/
theorem selected_spec {hash : Text → UInt64} {i : Nat}
    (h : matchCompiled hash policies none path = some (some i)) :
    ∃ before policy after, policies = before ++ policy :: after ∧ before.length = i ∧
      policy.accepts path ∧
      ∀ earlier ∈ before, earlier.matchKind = policy.matchKind → earlier.accepts path = false := by
  rw [matchCompiled_eq, some.injEq] at h
  obtain ⟨kind, route, hkept, rfl⟩ :
      ∃ kind route, firstKept kind policies path = some route ∧ route.policy = i := by
    cases hexact : firstKept .exactMatch policies path with
    | none =>
      cases hpfx : firstKept .prefixMatch policies path with
      | none => simp [hexact, hpfx, tiebreak] at h
      | some route => exact ⟨_, route, hpfx, by simpa [hexact, hpfx, tiebreak] using h⟩
    | some route =>
      cases hpfx : firstKept .prefixMatch policies path with
      | none => exact ⟨_, route, hexact, by simpa [hexact, hpfx, tiebreak] using h⟩
      | some other =>
        simp only [hexact, hpfx, tiebreak] at h
        split at h
        · exact ⟨_, route, hexact, some.inj h⟩
        · exact ⟨_, other, hpfx, some.inj h⟩
  obtain ⟨before, policy, after, rfl, hpos, rfl, hacc, hbef⟩ :=
    find?_routesFrom ((List.take_prefix _ _).find?_eq_some hkept)
  exact ⟨before, policy, after, rfl, by omega, hacc, hbef⟩

/-- Of two routes the first is selected wherever it accepts the path. -/
theorem selects_first (hash : Text → UInt64) {first second : RoutePolicy} (h : first.accepts path) :
    matchCompiled hash [first, second] none path = some (some 0) := by
  have hscan : matchRouteByPath [first, second] path = some 0 := by
    simp [matchRouteByPath, findIdx?_cons, h]
  rw [← hscan, compiled_agrees_iff, show [first, second] = [] ++ first :: [second] from rfl,
    compiledExact_iff_of_match hscan]
  refine ⟨by simp [routesFrom, kMaxCompiledRoutes], fun route hroute => ?_⟩
  have hmem := mem_of_mem_take (mem_of_find?_eq_some hroute)
  rcases mem_routesFrom_cons hmem with ⟨_, _, hkind, _⟩ | hmem
  · exact absurd hkind (by cases first.matchKind <;> decide)
  rcases mem_routesFrom_cons hmem with ⟨_, _, _, rfl⟩ | hmem
  · cases first.matchKind <;> simp [RouteMatchKind.Precedes]
  · cases hmem

end Selected

/-! ## What is analyzed -/

section Analyzed

variable (hash : Text → UInt64) {policy : PolicyIr}
  {r1 r2 route : TqRoutePolicy} {earlier later : List TqRoutePolicy}
  {finding : TqRouteAnalysisFinding}

theorem forRoutes_getElem? {α : Type}
    (round : List TqRoutePolicy → TqRoutePolicy → List TqRoutePolicy → α)
    (before : List TqRoutePolicy) :
    (forRoutes (fun earlier route later => [round earlier route later]) before
      (earlier ++ route :: later))[earlier.length]? =
        some (round (before ++ earlier) route later) := by
  induction earlier generalizing before with
  | nil => simp [forRoutes]
  | cons head _ ih =>
    have hrest := ih (before ++ [head])
    simpa [forRoutes] using hrest

theorem mayBeShadowed_eq (h : policy.routes = earlier ++ route :: later) :
    ((analyzeTaperqueryRoutePrecedence policy).precedence[earlier.length]?).map (·.mayBeShadowed) =
      some (earlier.any (shadows · route)) := by
  simp only [analyzeTaperqueryRoutePrecedence, h]
  rw [forRoutes_getElem? precedenceEntry]
  rfl

theorem mem_forRoutes {α : Type}
    {round : List TqRoutePolicy → TqRoutePolicy → List TqRoutePolicy → List α}
    {before routes : List TqRoutePolicy} {a : α} (h : a ∈ forRoutes round before routes) :
    ∃ earlier route later, routes = earlier ++ route :: later ∧
      a ∈ round (before ++ earlier) route later := by
  induction routes generalizing before with
  | nil => cases h
  | cons head routes ih =>
    rcases mem_append.mp h with h | h
    · exact ⟨[], head, routes, rfl, by simpa using h⟩
    · obtain ⟨earlier, route, later, rfl, hround⟩ := ih h
      exact ⟨head :: earlier, route, later, rfl, by simpa using hround⟩

/-- The finding that a route is never reached is about two routes with the same rule. -/
theorem eq_of_mem_pairFindings (h : finding ∈ pairFindings r1 r2)
    (hkind : finding.kind = .earlierRouteWins) :
    finding = earlierRouteFinding r1 r2 ∧ sameMatch r1 r2 := by
  rcases mem_append.mp h with h | h
  · split_ifs at h with _ hsame
    · rcases mem_cons.mp h with rfl | h
      · unfold sameMatchFinding at hkind
        split at hkind <;> cases hkind
      · exact ⟨mem_singleton.mp h, hsame⟩
    · rw [mem_singleton.mp h, shadowFinding] at hkind
      split at hkind <;> cases hkind
    all_goals cases h
  · split_ifs at h
    · cases mem_singleton.mp h
      cases hkind
    · cases h

theorem kind_of_mem_invalidationFindings {routes : List TqRoutePolicy}
    (h : finding ∈ invalidationFindings routes route) : finding.kind ≠ .earlierRouteWins := by
  unfold invalidationFindings at h
  split_ifs at h
  · obtain ⟨target, -, h⟩ := mem_flatMap.mp h
    unfold targetFindings at h
    split at h
    · cases mem_singleton.mp h
      nofun
    · simp only [mem_append, mem_ite_nil_right, mem_singleton] at h
      rcases h with (⟨-, rfl⟩ | ⟨-, rfl⟩) | ⟨-, rfl⟩ <;> nofun
  · cases h

/-- What the report calls unreached comes behind the route that it names. -/
theorem exists_of_reported (h : finding ∈ (analyzeTaperqueryRoutePrecedence policy).findings)
    (hkind : finding.kind = .earlierRouteWins) :
    ∃ earlier route later, policy.routes = earlier ++ route :: later ∧
      ∃ r1 ∈ earlier, finding = earlierRouteFinding r1 route ∧ finding ∈ pairFindings r1 route := by
  rcases mem_append.mp h with h | h
  · obtain ⟨earlier, r1, rest, hroutes, h⟩ := mem_forRoutes h
    rcases mem_append.mp h with h | h
    · obtain ⟨other, -, rfl⟩ := mem_map.mp h
      cases hkind
    · obtain ⟨route, hroute, hfind⟩ := mem_flatMap.mp h
      obtain ⟨middle, later, rfl⟩ := append_of_mem hroute
      exact ⟨earlier ++ r1 :: middle, route, later, by simpa using hroutes, r1, by simp,
        (eq_of_mem_pairFindings hfind hkind).1, hfind⟩
  · obtain ⟨route, -, h⟩ := mem_flatMap.mp h
    exact absurd hkind (kind_of_mem_invalidationFindings h)

/-- Every path that the later route accepts is accepted by the earlier one. -/
def Covers (r1 r2 : TqRoutePolicy) : Prop :=
  ∀ path, (convertTqRoutePolicyToRuntime r2).accepts path = true →
    (convertTqRoutePolicyToRuntime r1).accepts path = true

variable (policy)

/-- The position of the route that the matcher selects for a path. -/
def selects (path : Text) : Option (Option Nat) :=
  matchCompiled hash (policy.routes.map convertTqRoutePolicyToRuntime) none path

/-- The analysis marks what one earlier route always wins, and what it calls unreached is. -/
structure AgreesWithMatcher : Prop where
  shadowed : ∀ earlier route later, policy.routes = earlier ++ route :: later →
    (∃ i < earlier.length, ∀ path, (convertTqRoutePolicyToRuntime route).accepts path = true →
      selects hash policy path = some (some i)) →
    ((analyzeTaperqueryRoutePrecedence policy).precedence[earlier.length]?).map (·.mayBeShadowed) =
      some true
  unreached : ∀ earlier route later, policy.routes = earlier ++ route :: later →
    (∃ r1 ∈ earlier, earlierRouteFinding r1 route ∈ pairFindings r1 route) →
    ∀ path, selects hash policy path ≠ some (some earlier.length)
  reported : ∀ finding ∈ (analyzeTaperqueryRoutePrecedence policy).findings,
    finding.kind = .earlierRouteWins → ∃ earlier route later,
      policy.routes = earlier ++ route :: later ∧
      (∃ r1 ∈ earlier, finding = earlierRouteFinding r1 route) ∧
      ∀ path, selects hash policy path ≠ some (some earlier.length)

/-- A route that covers a later one also hides it for the analysis. -/
def HidesCovered : Prop :=
  ∀ earlier route later, policy.routes = earlier ++ route :: later → ∀ r1 ∈ earlier,
    Covers r1 route → shadows r1 route = true

variable {policy}

theorem unreached_of_finding (h : policy.routes = earlier ++ route :: later)
    (hr1 : r1 ∈ earlier) (hfind : earlierRouteFinding r1 route ∈ pairFindings r1 route)
    (path : Text) : selects hash policy path ≠ some (some earlier.length) := by
  intro hsels
  rw [selects, h, map_append, map_cons] at hsels
  obtain ⟨before, selected, after, hsplit, hlen, hacc, hbef⟩ := selected_spec hsels
  obtain ⟨rfl, hrest⟩ := append_inj hsplit (by simpa using hlen.symm)
  obtain ⟨rfl, -⟩ := List.cons.inj hrest
  have hsame := (eq_of_mem_pairFindings hfind rfl).2
  simp only [sameMatch, Bool.and_eq_true, decide_eq_true_eq] at hsame
  have hrefuses := hbef _ (mem_map_of_mem hr1) (congrArg matchKindCast hsame.2)
  have heq : (convertTqRoutePolicyToRuntime r1).accepts path =
      (convertTqRoutePolicyToRuntime route).accepts path := by
    show (matchKindCast r1.matchKind).accepts (cString r1.matchPrefix) path = _
    rw [hsame.1, hsame.2]
    rfl
  rw [heq, hacc] at hrefuses
  cases hrefuses

theorem unreached_of_reported (h : finding ∈ (analyzeTaperqueryRoutePrecedence policy).findings)
    (hkind : finding.kind = .earlierRouteWins) :
    ∃ earlier route later, policy.routes = earlier ++ route :: later ∧
      (∃ r1 ∈ earlier, finding = earlierRouteFinding r1 route) ∧
      ∀ path, selects hash policy path ≠ some (some earlier.length) := by
  obtain ⟨earlier, route, later, hroutes, r1, hr1, rfl, hfind⟩ := exists_of_reported h hkind
  exact ⟨earlier, route, later, hroutes, ⟨r1, hr1, rfl⟩, unreached_of_finding hash hroutes hr1 hfind⟩

theorem HidesCovered.agrees (h : HidesCovered policy) : AgreesWithMatcher hash policy := by
  refine ⟨?_, fun _ _ _ h ⟨_, hr1, hfind⟩ => unreached_of_finding hash h hr1 hfind,
    fun _ => unreached_of_reported hash⟩
  rintro earlier route later hrts ⟨i, hi, hwins⟩
  rw [mayBeShadowed_eq hrts]
  have hmem : earlier[i] ∈ earlier := getElem_mem hi
  refine congrArg some (any_eq_true.mpr ⟨_, hmem, h _ _ _ hrts _ hmem ?_⟩)
  intro path hpath
  obtain ⟨before, selected, after, hsplit, rfl, hacc, -⟩ := selected_spec (hwins path hpath)
  have hselected :
      (policy.routes.map convertTqRoutePolicyToRuntime)[before.length]? = some selected := by
    simp [hsplit]
  rw [hrts, map_append, getElem?_append_left (by simpa using hi),
    getElem?_map, getElem?_eq_getElem hi] at hselected
  rw [some.inj hselected]
  exact hacc

/-- The analysis agrees with the matcher if every route that covers a later one also hides it for
    the analysis. For a policy of two routes this is the exact condition. -/
theorem analysis_agrees (policy : PolicyIr) :
    (HidesCovered policy → AgreesWithMatcher hash policy) ∧
      ∀ r1 r2, policy.routes = [r1, r2] →
        (AgreesWithMatcher hash policy ↔ (Covers r1 r2 → shadows r1 r2 = true)) := by
  refine ⟨fun h => h.agrees hash, fun r1 r2 hroutes => ⟨fun hagrees hcovers => ?_, ?_⟩⟩
  · have hmarked := hagrees.shadowed [r1] r2 [] hroutes ⟨0, Nat.zero_lt_one, fun path hpath => ?_⟩
    · have hent := mayBeShadowed_eq (show policy.routes = [r1] ++ r2 :: [] from hroutes)
      simpa using hent.symm.trans hmarked
    · rw [selects, hroutes]
      exact selects_first hash (hcovers path hpath)
  · intro hhides
    refine HidesCovered.agrees hash ?_
    intro earlier route later hsplit r hr
    rw [hroutes] at hsplit
    match earlier, hr with
    | [_], hr =>
      obtain ⟨rfl, hrest⟩ := List.cons.inj hsplit
      obtain ⟨rfl, -⟩ := List.cons.inj hrest
      rwa [mem_singleton.mp hr]
    | _ :: _ :: _, _ => simp at hsplit

end Analyzed

/-! ## Routes of different methods -/

def ordersRoute (routeId : Text) (method : TqHttpMethod) : TqRoutePolicy where
  routeId
  matchPrefix := lit "/orders"
  allowedMethod := method

/-- Reading and writing orders, in this order. -/
def ordersPolicy (method : TqHttpMethod) : PolicyIr :=
  { routes := [ordersRoute (lit "read") .get, ordersRoute (lit "write") method] }

theorem repeated_route_agrees : AgreesWithMatcher (fun _ => 0) (ordersPolicy .get) :=
  ((analysis_agrees (fun _ => 0) (ordersPolicy .get)).2 _ _ rfl).mpr fun _ => by decide +kernel

/-- The first route is selected for every request on the second one's paths, which the analysis
    does not mark: the methods differ. -/
theorem method_route_unmarked :
    (∀ path, (convertTqRoutePolicyToRuntime (ordersRoute (lit "write") .post)).accepts path = true →
        selects (fun _ => 0) (ordersPolicy .post) path = some (some 0)) ∧
      (analyzeTaperqueryRoutePrecedence (ordersPolicy .post)).precedence.map (·.mayBeShadowed) =
        [false, false] ∧
      ¬ AgreesWithMatcher (fun _ => 0) (ordersPolicy .post) := by
  have hwins : ∀ path,
      (convertTqRoutePolicyToRuntime (ordersRoute (lit "write") .post)).accepts path →
      selects (fun _ => 0) (ordersPolicy .post) path = some (some 0) :=
    fun _ hpath => selects_first _ hpath
  refine ⟨hwins, by decide +kernel, fun hagrees => ?_⟩
  have hmarked := hagrees.shadowed [ordersRoute (lit "read") .get] _ [] rfl
    ⟨0, Nat.zero_lt_one, hwins⟩
  exact absurd hmarked (by decide +kernel)

end ByteTaper.Runtime
