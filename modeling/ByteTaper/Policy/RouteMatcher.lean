import ByteTaper.Library.OpenAddressing
import ByteTaper.Policy.RoutePolicy

/-! # Matching routes

`route_matcher.h`: the plain scan of the list of routes, and the compiled form, which keeps the exact
and the prefix routes apart and looks exact paths up in a hash table if there are many of them. A route
is given by its position in the list. -/

namespace ByteTaper.Policy

def kMaxCompiledRoutes : Nat := 64
def kExactHashTableSize : Nat := 128
def kExactHashStrategyThreshold : Nat := 8

inductive RouteMatcherStrategy where
  | linearSmall | exactHashPrefixLinear | prefixTrieExperimental
deriving DecidableEq

/-! ## The plain scan -/

def RouteMatchKind.accepts (kind : RouteMatchKind) (path requestPath : Text) : Bool :=
  match kind with
  | .exactMatch => requestPath == path
  | .prefixMatch => path.isPrefixOf requestPath

/-- A route without a path matches nothing. -/
def RoutePolicy.accepts (policy : RoutePolicy) (requestPath : Text) : Bool :=
  match policy.matchPrefix with
  | none => false
  | some path => policy.matchKind.accepts path requestPath

/-- `match_route_by_path`. -/
def matchRouteByPath (policies : List RoutePolicy) (requestPath : Text) : Option Nat :=
  policies.findIdx? (·.accepts requestPath)

/-! ## The compiled form -/

/-- An exact or a prefix route. `policy` is the position of the route, and `originalOrder` what the
    matcher keeps of it. -/
structure CompiledRoute where
  path : Text
  policy : Nat
  originalOrder : UInt32

abbrev ExactRouteHashTable := OpenAddressing.Table CompiledRoute kExactHashTableSize

structure CompiledRouteMatcher where
  strategy : RouteMatcherStrategy := .linearSmall
  exactRoutes : List CompiledRoute := []
  prefixRoutes : List CompiledRoute := []
  exactHashTable : ExactRouteHashTable := fun _ => none

/-- A route is dropped if there is no room for it. -/
def addRoute (routes : List CompiledRoute) (route : CompiledRoute) : List CompiledRoute :=
  if routes.length < kMaxCompiledRoutes then routes ++ [route] else routes

def compileRoute (matcher : CompiledRouteMatcher) (policy : RoutePolicy) (i : Nat) :
    CompiledRouteMatcher :=
  match policy.matchPrefix with
  | none => matcher
  | some path =>
    let route := { path, policy := i, originalOrder := i.toUInt32 }
    match policy.matchKind with
    | .exactMatch => { matcher with exactRoutes := addRoute matcher.exactRoutes route }
    | .prefixMatch => { matcher with prefixRoutes := addRoute matcher.prefixRoutes route }

def compileRoutes (policies : List RoutePolicy) : CompiledRouteMatcher :=
  policies.zipIdx.foldl (fun matcher route => compileRoute matcher route.1 route.2) {}

section Hash

-- `hash_cstr_runtime`, which is keyed with the seed of the process.
variable (hash : Text → UInt64) (matcher : CompiledRouteMatcher) (requestPath : Text)

instance : NeZero kExactHashTableSize := ⟨by decide⟩

def hashSlot (path : Text) : Fin kExactHashTableSize :=
  Fin.ofNat kExactHashTableSize ((hash path).toUInt32 &&& 127).toNat

/-- The hash table is built for the strategy that uses it; `none` if probing does not stop. -/
def buildHashTable : Option CompiledRouteMatcher :=
  if matcher.strategy = .exactHashPrefixLinear then
    (OpenAddressing.insertAll CompiledRoute.path (hashSlot hash) (fun _ => none)
      matcher.exactRoutes).map fun exactHashTable => { matcher with exactHashTable }
  else some matcher

def chosenStrategy : RouteMatcherStrategy :=
  if matcher.exactRoutes.length > kExactHashStrategyThreshold then .exactHashPrefixLinear
  else .linearSmall

variable (policies : List RoutePolicy) (forceStrategy : Option RouteMatcherStrategy)

/-- `compile_route_matcher`; a strategy can be forced. -/
def compileRouteMatcher : Option CompiledRouteMatcher :=
  let matcher := compileRoutes policies
  buildHashTable hash
    { matcher with strategy := forceStrategy.getD (chosenStrategy matcher) }

/-- The first exact route for the path. -/
def bestExact : Option (Option CompiledRoute) :=
  if matcher.strategy = .exactHashPrefixLinear then
    OpenAddressing.find CompiledRoute.path (hashSlot hash) matcher.exactHashTable requestPath
  else some (matcher.exactRoutes.find? fun route => requestPath == route.path)

def bestPrefix : Option CompiledRoute :=
  matcher.prefixRoutes.find? fun route => route.path.isPrefixOf requestPath

/-- The earlier one of the two, as far as the orders tell. -/
def tiebreak : Option CompiledRoute → Option CompiledRoute → Option Nat
  | none, none => none
  | none, some prefixRoute => some prefixRoute.policy
  | some exactRoute, none => some exactRoute.policy
  | some exactRoute, some prefixRoute =>
    if exactRoute.originalOrder < prefixRoute.originalOrder then some exactRoute.policy
    else some prefixRoute.policy

/-- `match_route_compiled`. -/
def matchRouteCompiled : Option (Option Nat) :=
  (bestExact hash matcher requestPath).map fun exactRoute =>
    tiebreak exactRoute (bestPrefix matcher requestPath)

/-- What the compiled form selects; `none` on the outside if a loop does not stop. -/
def matchCompiled (requestPath : Text) : Option (Option Nat) :=
  (compileRouteMatcher hash policies forceStrategy).bind fun matcher =>
    matchRouteCompiled hash matcher requestPath

end Hash

end ByteTaper.Policy
