import ByteTaper.Policy.RouteMatcher

/-! # The compiled matcher and the plain scan

The compiled form keeps the first `kMaxCompiledRoutes` routes of each kind, looks for the first
accepting one among the kept routes of each kind, and takes the one with the smaller order. This is the
route of the plain scan just if that route was kept and the orders, which are 32 bits wide, tell which
of two positions is the smaller one (`CompiledExact`). The strategy and the hash function do not matter
for it. -/

namespace ByteTaper.Policy

open List Option RouteMatchKind

/-! ## The routes of a kind -/

variable (kind : RouteMatchKind) (policies : List RoutePolicy) (requestPath : Text)

/-- The routes of a kind in their order, the positions counted from `n` on. -/
def routesFrom : Nat → List RoutePolicy → List CompiledRoute
  | _, [] => []
  | n, policy :: policies =>
    match policy.matchPrefix with
    | none => routesFrom (n + 1) policies
    | some path =>
      if policy.matchKind = kind then
        { path, policy := n, originalOrder := n.toUInt32 } :: routesFrom (n + 1) policies
      else routesFrom (n + 1) policies

/-- The routes of a kind that the compiled form keeps. -/
def keptRoutes : List CompiledRoute :=
  (routesFrom kind 0 policies).take kMaxCompiledRoutes

def firstKept : Option CompiledRoute :=
  (keptRoutes kind policies).find? fun route => kind.accepts route.path requestPath

theorem routesFrom_append (n : Nat) (before after : List RoutePolicy) :
    routesFrom kind n (before ++ after) =
      routesFrom kind n before ++ routesFrom kind (n + before.length) after := by
  induction before generalizing n with
  | nil => simp [routesFrom]
  | cons policy before ih =>
    have hlen : n + (policy :: before).length = n + 1 + before.length := by
      rw [length_cons]
      omega
    rw [cons_append, routesFrom, routesFrom, ih, hlen]
    cases policy.matchPrefix with
    | none => rfl
    | some => by_cases hkind : policy.matchKind = kind <;> simp [hkind]

variable {kind policies requestPath} {i n : Nat} {route : CompiledRoute}

theorem mem_routesFrom_cons {policy : RoutePolicy}
    (h : route ∈ routesFrom kind n (policy :: policies)) :
    (∃ path, policy.matchPrefix = some path ∧ policy.matchKind = kind ∧
        route = { path, policy := n, originalOrder := n.toUInt32 }) ∨
      route ∈ routesFrom kind (n + 1) policies := by
  rw [routesFrom] at h
  split at h
  · exact .inr h
  rename_i path hpath
  split at h
  next hkind =>
    rcases mem_cons.mp h with hroute | h
    · exact .inl ⟨path, hpath, hkind, hroute⟩
    · exact .inr h
  · exact .inr h

/-- A route comes from a policy of the list that accepts the same paths. -/
theorem mem_routesFrom (h : route ∈ routesFrom kind n policies) :
    n ≤ route.policy ∧ route.originalOrder = route.policy.toUInt32 ∧
      ∃ policy ∈ policies, ∀ requestPath,
        policy.accepts requestPath = kind.accepts route.path requestPath := by
  induction policies generalizing n with
  | nil => cases h
  | cons policy _ ih =>
    rcases mem_routesFrom_cons h with ⟨path, hpath, hkind, rfl⟩ | h
    · refine ⟨Nat.le_refl _, rfl, policy, mem_cons_self, fun requestPath => ?_⟩
      rw [RoutePolicy.accepts, hpath, ← hkind]
    · obtain ⟨hn, horder, policy', hpol', hacc⟩ := ih h
      exact ⟨by omega, horder, policy', mem_cons_of_mem _ hpol', hacc⟩

theorem routesFrom_accepts_eq_false (h : ∀ policy ∈ policies, policy.accepts requestPath = false) :
    ∀ route ∈ routesFrom kind n policies, kind.accepts route.path requestPath = false := by
  intro route hroute
  obtain ⟨-, -, policy, hpol, hacc⟩ := mem_routesFrom hroute
  rw [← hacc, h policy hpol]

/-! ## What the compiled form selects -/

theorem addRoute_take (routes : List CompiledRoute) (route : CompiledRoute) :
    addRoute (routes.take kMaxCompiledRoutes) route =
      (routes ++ [route]).take kMaxCompiledRoutes := by
  unfold addRoute
  rw [length_take]
  split
  next h =>
    rw [take_of_length_le (by omega), take_of_length_le]
    rw [length_append, length_singleton]
    omega
  next h => rw [take_append_of_le_length (by omega)]

theorem compileRoutes_eq (policies : List RoutePolicy) :
    (compileRoutes policies).exactRoutes = keptRoutes .exactMatch policies ∧
      (compileRoutes policies).prefixRoutes = keptRoutes .prefixMatch policies := by
  induction policies using List.reverseRecOn with
  | nil => exact ⟨rfl, rfl⟩
  | append_singleton policies policy ih =>
    have hstep : compileRoutes (policies ++ [policy]) =
        compileRoute (compileRoutes policies) policy policies.length := by
      simp [compileRoutes, zipIdx_append]
    rw [hstep, keptRoutes, keptRoutes, routesFrom_append, routesFrom_append, Nat.zero_add]
    unfold compileRoute
    cases hpath : policy.matchPrefix with
    | none =>
      simp only [routesFrom, hpath, append_nil]
      exact ih
    | some =>
      cases hkind : policy.matchKind with
      | exactMatch =>
        simp only [routesFrom, hpath, hkind, ih.1, if_true, reduceCtorEq, if_false, append_nil]
        exact ⟨addRoute_take _ _, ih.2⟩
      | prefixMatch =>
        simp only [routesFrom, hpath, hkind, ih.2, if_true, reduceCtorEq, if_false, append_nil]
        exact ⟨ih.1, addRoute_take _ _⟩

section Hash

variable (hash : Text → UInt64) {matcher : CompiledRouteMatcher}

/-- There is room for all exact routes in the hash table, so that looking a path up in it gives the
    first one of them. -/
theorem buildHashTable_spec (hlen : matcher.exactRoutes.length < kExactHashTableSize) :
    ∃ built, buildHashTable hash matcher = some built ∧ built.prefixRoutes = matcher.prefixRoutes ∧
      ∀ requestPath, bestExact hash built requestPath =
        some (matcher.exactRoutes.find? fun route => requestPath == route.path) := by
  by_cases hstrat : matcher.strategy = .exactHashPrefixLinear
  · obtain ⟨exactHashTable, htable, hfind⟩ := OpenAddressing.find_insertAll CompiledRoute.path
      (hashSlot hash) hlen
    refine ⟨{ matcher with exactHashTable }, ?_, rfl, fun requestPath => ?_⟩
    · unfold buildHashTable
      rw [if_pos hstrat, htable]
      rfl
    · unfold bestExact
      rw [if_pos hstrat, hfind]
      congr
      funext route
      rw [Bool.eq_iff_iff, decide_eq_true_iff, beq_iff_eq, eq_comm]
  · refine ⟨matcher, ?_, rfl, fun requestPath => if_neg hstrat⟩
    unfold buildHashTable
    rw [if_neg hstrat]

/-- Whatever the strategy and the hash function are, the loops stop, and the selection is made
    between the first accepting kept routes of the two kinds. -/
theorem matchCompiled_eq (policies : List RoutePolicy)
    (forceStrategy : Option RouteMatcherStrategy) (requestPath : Text) :
    matchCompiled hash policies forceStrategy requestPath =
      some (tiebreak (firstKept .exactMatch policies requestPath)
        (firstKept .prefixMatch policies requestPath)) := by
  obtain ⟨hexact, hpfx⟩ := compileRoutes_eq policies
  have hlen : (compileRoutes policies).exactRoutes.length < kExactHashTableSize := by
    rw [hexact, keptRoutes, length_take]
    exact Nat.lt_of_le_of_lt (Nat.min_le_left _ _) (by decide)
  let matcher := { compileRoutes policies with
    strategy := forceStrategy.getD (chosenStrategy (compileRoutes policies)) }
  obtain ⟨built, hbuilt, hprefixRoutes, hbest⟩ :=
    buildHashTable_spec hash (show matcher.exactRoutes.length < _ from hlen)
  have hcomp : compileRouteMatcher hash policies forceStrategy = some built := hbuilt
  rw [matchCompiled, hcomp, bind_some, matchRouteCompiled, hbest, map_some,
    bestPrefix, hprefixRoutes]
  rw [hexact, hpfx]
  rfl

end Hash

/-! ## The first accepting route -/

theorem firstKept_eq_none (h : ∀ policy ∈ policies, policy.accepts requestPath = false) :
    firstKept kind policies requestPath = none := by
  unfold firstKept keptRoutes
  rw [find?_eq_none]
  intro route hroute
  rw [routesFrom_accepts_eq_false h route (mem_of_mem_take hroute)]
  exact Bool.false_ne_true

section FirstAccepting

variable {before : List RoutePolicy} {policy : RoutePolicy} (after : List RoutePolicy)
  {requestPath : Text} (hbefore : ∀ p ∈ before, p.accepts requestPath = false)
include hbefore

/-- The first accepting route is the first kept one of its kind, if there was room for it. -/
theorem firstKept_same (hpol : policy.accepts requestPath) :
    ∃ path, firstKept policy.matchKind (before ++ policy :: after) requestPath =
      if (routesFrom policy.matchKind 0 before).length < kMaxCompiledRoutes then
        some { path, policy := before.length, originalOrder := before.length.toUInt32 }
      else none := by
  unfold RoutePolicy.accepts at hpol
  split at hpol
  · cases hpol
  rename_i path hpath
  refine ⟨path, ?_⟩
  have hnone : ∀ kind n, (((routesFrom kind 0 before).take n).find? fun route =>
      kind.accepts route.path requestPath) = none := by
    intro kind n
    rw [find?_eq_none]
    intro route hroute
    rw [routesFrom_accepts_eq_false hbefore route (mem_of_mem_take hroute)]
    exact Bool.false_ne_true
  unfold firstKept keptRoutes
  rw [routesFrom_append, take_append, find?_append, hnone, none_or, Nat.zero_add, routesFrom, hpath]
  simp only [if_true]
  split
  next hroom =>
    obtain ⟨room, hroom⟩ := Nat.exists_eq_add_of_lt hroom
    have hsub : kMaxCompiledRoutes - (routesFrom policy.matchKind 0 before).length =
        room + 1 := by omega
    rw [hsub, take_succ_cons, find?_cons, hpol]
  next hroom =>
    have hsub : kMaxCompiledRoutes - (routesFrom policy.matchKind 0 before).length = 0 := by
      omega
    rw [hsub, take_zero, find?_nil]

/-- What is kept and accepts the path of the other kind comes after it. -/
theorem firstKept_other (hkind : policy.matchKind ≠ kind)
    (h : firstKept kind (before ++ policy :: after) requestPath = some route) :
    before.length < route.policy := by
  have hmem := mem_of_mem_take (mem_of_find?_eq_some h)
  have hacc := find?_some h
  rw [routesFrom_append, mem_append, Nat.zero_add] at hmem
  rcases hmem with hmem | hmem
  · rw [routesFrom_accepts_eq_false hbefore route hmem] at hacc
    cases hacc
  · rcases mem_routesFrom_cons hmem with ⟨_, _, hsame, _⟩ | hmem
    · exact absurd hsame hkind
    · exact (mem_routesFrom hmem).1

end FirstAccepting

theorem matchRouteByPath_eq_some (h : matchRouteByPath policies requestPath = some i) :
    ∃ before policy after, policies = before ++ policy :: after ∧ before.length = i ∧
      (∀ p ∈ before, p.accepts requestPath = false) ∧ policy.accepts requestPath := by
  induction policies generalizing i with
  | nil => cases h
  | cons policy policies ih =>
    unfold matchRouteByPath at h ih
    rw [findIdx?_cons] at h
    split at h
    next hacc =>
      cases h
      exact ⟨[], policy, policies, rfl, rfl, by simp, hacc⟩
    next hacc =>
      obtain ⟨j, hj, rfl⟩ := map_eq_some_iff.mp h
      obtain ⟨before, policy', after, rfl, hlen, hbefore, hpol'⟩ := ih hj
      refine ⟨policy :: before, policy', after, rfl, by rw [length_cons, hlen], ?_, hpol'⟩
      intro p hp
      rcases mem_cons.mp hp with rfl | hp
      · exact Bool.eq_false_iff.mpr hacc
      · exact hbefore p hp

/-! ## The agreement -/

def RouteMatchKind.other : RouteMatchKind → RouteMatchKind
  | .exactMatch => .prefixMatch
  | .prefixMatch => .exactMatch

/-- The route at the position is taken and not a route of the other kind. -/
def RouteMatchKind.Precedes (kind : RouteMatchKind) (i : Nat) (route : CompiledRoute) : Prop :=
  match kind with
  | .exactMatch => i.toUInt32 < route.originalOrder
  | .prefixMatch => i.toUInt32 ≤ route.originalOrder

/-- The first accepting route is among the first `kMaxCompiledRoutes` of its kind, and its order is
    the smaller one if such a route of the other kind accepts the path, too. -/
def CompiledExact (policies : List RoutePolicy) (requestPath : Text) : Prop :=
  ∀ i policy, matchRouteByPath policies requestPath = some i → policies[i]? = some policy →
    (routesFrom policy.matchKind 0 (policies.take i)).length < kMaxCompiledRoutes ∧
      ∀ route, firstKept policy.matchKind.other policies requestPath = some route →
        policy.matchKind.Precedes i route

section

variable {other : Option CompiledRoute} (hother : ∀ route, other = some route → i < route.policy)

include hother

theorem tiebreak_exact {path : Text} :
    tiebreak (some { path, policy := i, originalOrder := i.toUInt32 }) other = some i ↔
      ∀ route, other = some route → exactMatch.Precedes i route := by
  cases other with
  | none => simp [tiebreak]
  | some route =>
    have hne := Nat.ne_of_gt (hother route rfl)
    simp only [tiebreak, Precedes, some.injEq, forall_eq']
    split
    next hlt => exact iff_of_true rfl hlt
    next hle => exact iff_of_false (fun h => hne (some.inj h)) hle

theorem tiebreak_prefix {path : Text} :
    tiebreak other (some { path, policy := i, originalOrder := i.toUInt32 }) = some i ↔
      ∀ route, other = some route → prefixMatch.Precedes i route := by
  cases other with
  | none => simp [tiebreak]
  | some route =>
    have hne := Nat.ne_of_gt (hother route rfl)
    simp only [tiebreak, Precedes, some.injEq, forall_eq']
    split
    next hlt =>
      exact iff_of_false (fun h => hne (some.inj h)) (UInt32.not_le.mpr hlt)
    next hle => exact iff_of_true rfl (UInt32.not_lt.mp hle)

theorem tiebreak_none : tiebreak none other ≠ some i ∧ tiebreak other none ≠ some i := by
  cases other with
  | none => exact ⟨nofun, nofun⟩
  | some route =>
    have hne := Nat.ne_of_gt (hother route rfl)
    exact ⟨fun h => hne (some.inj h), fun h => hne (some.inj h)⟩

end

/-- `CompiledExact` at the route that the plain scan selects. -/
theorem compiledExact_iff_of_match {before after : List RoutePolicy} {policy : RoutePolicy}
    (hmatch : matchRouteByPath (before ++ policy :: after) requestPath = some before.length) :
    CompiledExact (before ++ policy :: after) requestPath ↔
      (routesFrom policy.matchKind 0 before).length < kMaxCompiledRoutes ∧
        ∀ route, firstKept policy.matchKind.other (before ++ policy :: after) requestPath =
          some route → policy.matchKind.Precedes before.length route := by
  unfold CompiledExact
  rw [hmatch]
  constructor
  · intro h
    simpa using h before.length policy rfl (by simp)
  · intro h i policy' hi hpol'
    cases hi
    obtain rfl : policy = policy' := by simpa using hpol'
    simpa using h

/-- The compiled form selects the route of the plain scan just if that route is kept and comes first
    in the orders. -/
theorem compiled_agrees_iff (hash : Text → UInt64) (policies : List RoutePolicy)
    (forceStrategy : Option RouteMatcherStrategy) (requestPath : Text) :
    matchCompiled hash policies forceStrategy requestPath =
        some (matchRouteByPath policies requestPath) ↔
      CompiledExact policies requestPath := by
  rw [matchCompiled_eq, some.injEq]
  cases hmatch : matchRouteByPath policies requestPath with
  | none =>
    have hnone := findIdx?_eq_none_iff.mp hmatch
    rw [firstKept_eq_none hnone, firstKept_eq_none hnone]
    refine iff_of_true rfl fun i policy h => ?_
    rw [hmatch] at h
    cases h
  | some =>
    obtain ⟨before, policy, after, rfl, rfl, hbefore, hpol⟩ := matchRouteByPath_eq_some hmatch
    obtain ⟨path, hsame⟩ := firstKept_same after hbefore hpol
    have hother : ∀ route, firstKept policy.matchKind.other (before ++ policy :: after)
        requestPath = some route → before.length < route.policy :=
      fun route => firstKept_other after hbefore (by cases policy.matchKind <;> decide)
    rw [compiledExact_iff_of_match hmatch]
    by_cases hroom : (routesFrom policy.matchKind 0 before).length < kMaxCompiledRoutes
    · rw [if_pos hroom] at hsame
      cases hkind : policy.matchKind with
      | exactMatch =>
        simp only [hkind, other] at hsame hother hroom ⊢
        rw [hsame, tiebreak_exact hother, and_iff_right hroom]
      | prefixMatch =>
        simp only [hkind, other] at hsame hother hroom ⊢
        rw [hsame, tiebreak_prefix hother, and_iff_right hroom]
    · rw [if_neg hroom] at hsame
      refine iff_of_false (fun htie => ?_) fun h => hroom h.1
      cases hkind : policy.matchKind with
      | exactMatch =>
        simp only [hkind, other] at hsame hother
        rw [hsame] at htie
        exact absurd htie (tiebreak_none hother).1
      | prefixMatch =>
        simp only [hkind, other] at hsame hother
        rw [hsame] at htie
        exact absurd htie (tiebreak_none hother).2

/-- Sixty-four routes below `/a` and one below `/b`. -/
def crowdedPolicies : List RoutePolicy :=
  List.replicate 64 { matchPrefix := some (lit "/a") } ++ [{ matchPrefix := some (lit "/b") }]

/-- The last route is not in the compiled form, and a request below `/b` matches no route. -/
theorem crowded_route_is_lost :
    matchRouteByPath crowdedPolicies (lit "/b") = some 64 ∧
      matchCompiled (fun _ => 0) crowdedPolicies none (lit "/b") = some none := by
  decide +kernel

end ByteTaper.Policy
