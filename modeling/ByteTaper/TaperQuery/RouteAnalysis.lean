import ByteTaper.TaperQuery.RoutePolicyIr

/-! # The analysis of the routes of a policy

`route_analysis.cpp`: the routes in the order of their declaration, with the ones that an earlier route
hides, and what is wrong or doubtful about two routes or about the targets of an invalidation. -/

namespace ByteTaper.TaperQuery

/-! ## Findings -/

inductive TqRouteAnalysisSeverity where
  | info | warning | error
deriving DecidableEq

inductive TqRouteAnalysisKind where
  | duplicateRouteId | duplicateExactMatch | equivalentPrefixMatch | prefixShadowsPrefix
  | prefixShadowsExact | earlierRouteWins | sharedL2CachePath | unknownInvalidationTarget
  | invalidInvalidationTargetMethod | invalidInvalidationTargetCachePolicy
  | unsupportedInvalidationStrategy

structure TqRouteAnalysisFinding where
  severity : TqRouteAnalysisSeverity := .warning
  kind : TqRouteAnalysisKind := .prefixShadowsPrefix
  routeId : Text := []
  relatedRouteId : Text := []
  fieldPath : Text := []
  reason : Text := []
  hint : Text := []

structure TqRoutePrecedenceEntry where
  routeId : Text
  method : Text
  matchKind : Text
  path : Text
  declarationIndex : UInt32 := 0
  specificityScore : UInt32 := 0
  mayShadowLaterRoutes : Bool := false
  mayBeShadowed : Bool := false

structure TqRouteAnalysisReport where
  ok : Bool := true
  precedence : List TqRoutePrecedenceEntry := []
  findings : List TqRouteAnalysisFinding := []

/-! ## Names -/

def methodToString : TqHttpMethod → Text
  | .get => lit "GET"
  | .post => lit "POST"
  | .put => lit "PUT"
  | .delete => lit "DELETE"
  | .patch => lit "PATCH"
  | .any => lit "ANY"

def matchKindToString : TqRouteMatchKind → Text
  | .exactMatch => lit "exact"
  | .prefixMatch => lit "prefix"

def strategyToString : TqCacheInvalidationStrategy → Text
  | .routeEpoch => lit "RouteEpoch"
  | .exactKey => lit "ExactKey"
  | .keyPrefix => lit "Prefix"

/-! ## Two routes -/

def methodsOverlap (m1 m2 : TqHttpMethod) : Bool := m1 = .any || m2 = .any || m1 = m2

def isPrefixShadow (broad narrow : Text) : Bool :=
  broad.isEmpty ||
    broad.isPrefixOf narrow &&
      (broad.getLast? = some '/' || narrow.length = broad.length ||
        narrow[broad.length]? = some '/')

variable (r1 r2 : TqRoutePolicy)

/-- The two routes match the same paths in the same way. -/
def sameMatch : Bool :=
  r1.matchPrefix = r2.matchPrefix && r1.matchKind = r2.matchKind

/-- The earlier route hides the later one. -/
def shadows : Bool :=
  methodsOverlap r1.allowedMethod r2.allowedMethod &&
    (sameMatch r1 r2 ||
      r1.matchKind = .prefixMatch && isPrefixShadow r1.matchPrefix r2.matchPrefix)

def duplicateIdFinding (route earlier : TqRoutePolicy) : TqRouteAnalysisFinding where
  severity := .error
  kind := .duplicateRouteId
  routeId := route.routeId
  relatedRouteId := earlier.routeId
  fieldPath := lit "route_id"
  reason :=
    lit "Duplicate route_id '" ++ route.routeId ++ lit "' detected across multiple route blocks"
  hint := lit "Change this route_id to be unique within the policy document."

def overlapReason (what : Text) (r1 r2 : TqRoutePolicy) : Text :=
  what ++ lit " route path '" ++ r2.matchPrefix ++ lit "' with overlapping method (" ++
    methodToString r2.allowedMethod ++ lit " vs " ++ methodToString r1.allowedMethod ++ lit ")"

def sameMatchFinding : TqRouteAnalysisFinding :=
  let finding : TqRouteAnalysisFinding :=
    { routeId := r2.routeId, relatedRouteId := r1.routeId, fieldPath := lit "match_prefix" }
  if r1.matchKind = .exactMatch then
    { finding with
      severity := .error, kind := .duplicateExactMatch
      reason := overlapReason (lit "Duplicate exact") r1 r2
      hint := lit "Remove the duplicate route or change one of the match paths or allowed methods." }
  else
    { finding with
      severity := .warning, kind := .equivalentPrefixMatch
      reason := overlapReason (lit "Equivalent prefix") r1 r2
      hint := lit "Consolidate these identical prefix route definitions." }

def earlierRouteFinding : TqRouteAnalysisFinding where
  severity := .info
  kind := .earlierRouteWins
  routeId := r2.routeId
  relatedRouteId := r1.routeId
  fieldPath := lit "match_prefix"
  reason :=
    lit "Route '" ++ r2.routeId ++ lit "' will never be reached because duplicate route '" ++
      r1.routeId ++ lit "' is processed first"
  hint := lit "Move the earlier route below or remove the duplicate configuration."

def shadowReason (what : Text) (r1 r2 : TqRoutePolicy) : Text :=
  what ++ lit " route '" ++ r2.routeId ++ lit "' (" ++ r2.matchPrefix ++
    lit ") is shadowed by earlier prefix route '" ++ r1.routeId ++ lit "' (" ++ r1.matchPrefix ++
    lit ")"

def shadowFinding : TqRouteAnalysisFinding :=
  let finding : TqRouteAnalysisFinding :=
    { severity := .warning, fieldPath := lit "match_prefix", routeId := r2.routeId
      relatedRouteId := r1.routeId }
  if r2.matchKind = .exactMatch then
    { finding with
      kind := .prefixShadowsExact, reason := shadowReason (lit "Exact") r1 r2
      hint := lit "Move more specific exact route blocks before broad prefix matching blocks." }
  else
    { finding with
      kind := .prefixShadowsPrefix, reason := shadowReason (lit "Prefix") r1 r2
      hint := lit "Move more specific longer prefix routes before shorter prefix matching routes." }

def usesL2 (route : TqRoutePolicy) : Bool :=
  route.cache.enabled && route.cache.l2.enabled && !route.cache.l2.path.isEmpty

def sharedL2Finding : TqRouteAnalysisFinding where
  severity := .warning
  kind := .sharedL2CachePath
  routeId := r2.routeId
  relatedRouteId := r1.routeId
  fieldPath := lit "cache.l2.path"
  reason :=
    lit "Shared L2 cache storage path '" ++ r2.cache.l2.path ++ lit "' detected across routes '" ++
      r1.routeId ++ lit "' and '" ++ r2.routeId ++ lit "'"
  hint :=
    lit "Configure unique storage folders for different routes to avoid RocksDB lock or cache contamination."

/-- What is found about a route and a later one. -/
def pairFindings : List TqRouteAnalysisFinding :=
  (if methodsOverlap r1.allowedMethod r2.allowedMethod then
    if sameMatch r1 r2 then [sameMatchFinding r1 r2, earlierRouteFinding r1 r2]
    else if r1.matchKind = .prefixMatch ∧ isPrefixShadow r1.matchPrefix r2.matchPrefix then
      [shadowFinding r1 r2]
    else []
  else []) ++
    if usesL2 r1 && usesL2 r2 && r1.cache.l2.path = r2.cache.l2.path then [sharedL2Finding r1 r2]
    else []

/-! ## Targets of invalidations -/

def targetFinding (kind : TqRouteAnalysisKind) (route : TqRoutePolicy) (relatedRouteId : Text)
    (reason hint : Text) : TqRouteAnalysisFinding where
  severity := .warning
  kind := kind
  routeId := route.routeId
  relatedRouteId := relatedRouteId
  fieldPath := lit "cache.invalidation.targets"
  reason := reason
  hint := hint

def targetFindings (routes : List TqRoutePolicy) (route : TqRoutePolicy)
    (target : TqCacheInvalidationTarget) : List TqRouteAnalysisFinding :=
  match routes.find? (·.routeId == target.routeId) with
  | none =>
    [targetFinding .unknownInvalidationTarget route []
      (lit "Mutation route '" ++ route.routeId ++ lit "' targets unknown route '" ++
        target.routeId ++ lit "'")
      (lit "Ensure the target route_id is defined in the policy document.")]
  | some targetRoute =>
    (if targetRoute.allowedMethod ≠ .get then
      [targetFinding .invalidInvalidationTargetMethod route targetRoute.routeId
        (lit "Invalidation target '" ++ targetRoute.routeId ++
          lit "' is not a GET route (method=" ++ methodToString targetRoute.allowedMethod ++ lit ")")
        (lit "Mutation invalidation only supports clearing GET route caches.")]
    else []) ++
    (if targetRoute.cache.enabled = false ∨ targetRoute.cache.behavior ≠ .store then
      [targetFinding .invalidInvalidationTargetCachePolicy route targetRoute.routeId
        (lit "Invalidation target '" ++ targetRoute.routeId ++
          lit "' does not have cache.behavior=Store")
        (lit "The target route must have cache.behavior=Store to benefit from invalidation.")]
    else []) ++
    if target.strategy ≠ .routeEpoch then
      [targetFinding .unsupportedInvalidationStrategy route []
        (lit "Unsupported invalidation strategy '" ++ strategyToString target.strategy ++
          lit "' for target '" ++ target.routeId ++ lit "'")
        (lit "Currently only 'RouteEpoch' strategy is supported.")]
    else []

def invalidationFindings (routes : List TqRoutePolicy) (route : TqRoutePolicy) :
    List TqRouteAnalysisFinding :=
  if route.cache.invalidation.enabled then
    route.cache.invalidation.targets.flatMap (targetFindings routes route)
  else []

/-! ## All routes -/

def computeRouteSpecificityScore (route : TqRoutePolicy) : UInt32 :=
  (if route.matchKind = .exactMatch then 10000 else 0) +
    (if route.allowedMethod ≠ .any then 1000 else 0) + route.matchPrefix.length.toUInt32

variable (earlier : List TqRoutePolicy) (route : TqRoutePolicy) (later : List TqRoutePolicy)

def precedenceEntry : TqRoutePrecedenceEntry where
  routeId := route.routeId
  method := methodToString route.allowedMethod
  matchKind := matchKindToString route.matchKind
  path := route.matchPrefix
  declarationIndex := earlier.length.toUInt32
  specificityScore := computeRouteSpecificityScore route
  mayShadowLaterRoutes := later.any (shadows route)
  mayBeShadowed := earlier.any (shadows · route)

/-- What is found about a route and the ones before and behind it. -/
def routeFindings : List TqRouteAnalysisFinding :=
  ((earlier.filter fun other => !route.routeId.isEmpty && route.routeId = other.routeId).map
      (duplicateIdFinding route)) ++
    later.flatMap (pairFindings route)

/-- One round of a loop over the routes for each of them, with the ones before and behind it. -/
def forRoutes {α : Type} (round : List TqRoutePolicy → TqRoutePolicy → List TqRoutePolicy → List α) :
    List TqRoutePolicy → List TqRoutePolicy → List α
  | _, [] => []
  | earlier, route :: later =>
    round earlier route later ++ forRoutes round (earlier ++ [route]) later

/-- Every finding that clears the flag is an error. -/
def analyzeTaperqueryRoutePrecedence (policy : PolicyIr) :
    TqRouteAnalysisReport :=
  let findings := forRoutes routeFindings [] policy.routes ++
    policy.routes.flatMap (invalidationFindings policy.routes)
  { ok := findings.all (·.severity ≠ .error)
    precedence := forRoutes (fun earlier route later => [precedenceEntry earlier route later]) []
      policy.routes
    findings }

end ByteTaper.TaperQuery
