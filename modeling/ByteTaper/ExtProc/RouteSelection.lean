import ByteTaper.ExtProc.ResponseBody
import ByteTaper.Policy.RouteMatcherAgreement

/-! # The route of a request

Which policy the request headers phase applies, compared with the first route in the list that accepts
the path and allows the method. The phase asks the compiled matcher, which sees the path only: a route
for another method that comes first hides the routes behind it. -/

namespace ByteTaper.ExtProc

open FieldSelection Policy Option

/-! ## What is selected, and what is to be selected -/

def requestPath (target : Text) : Text := target.takeWhile (· != '?')

def rawPath (target : Text) : Text := (extractRawPathAndQuery target {}).rawPath

variable (hash : Text → UInt64) (policies : List RoutePolicy)

/-- The position of the route that the phase applies; `none` on the outside if a loop does not stop. -/
def appliedRoute (target : Text) : Option (Option Nat) :=
  if (rawPath target).isEmpty then some none
  else matchCompiled hash policies none (rawPath target)

/-- The function that the phase matches paths with, once the routes are compiled. -/
def matchIn (path : Text) : Option RoutePolicy :=
  ((matchCompiled hash policies none path).getD none).bind (policies[·]?)

variable {hash policies} in
/-- The phase applies the policy at that position. -/
theorem matchedPolicy_onRequestHeaders {target : Text} {selected : Option Nat}
    (h : appliedRoute hash policies target = some selected) :
    (onRequestHeaders (matchIn hash policies) (some target) {}).matchedPolicy =
      selected.bind (policies[·]?) := by
  have hpath : (applyRequestHeadersSelection (some target) {}).context.rawPath = rawPath target := rfl
  unfold onRequestHeaders
  dsimp only
  rw [hpath]
  unfold appliedRoute at h
  split at h
  next hempty =>
    obtain rfl := some.inj h
    rw [if_pos hempty]
    rfl
  next hempty =>
    have hmatch : matchIn hash policies (rawPath target) = selected.bind (policies[·]?) := by
      rw [matchIn, h, getD_some]
    rw [if_neg hempty, hmatch]
    cases selected.bind (policies[·]?) with
    | none => rfl
    | some policy => exact prepareEffectiveFieldSelection_matchedPolicy policy _

def allowsMethod (policy : RoutePolicy) (method : HttpMethod) : Bool :=
  policy.allowedMethod = .any || policy.allowedMethod = method

/-- The first route that accepts the path and allows the method. -/
def routeFor (path : Text) (method : HttpMethod) : Option Nat :=
  policies.findIdx? fun policy => policy.accepts path && allowsMethod policy method

/-! ## What the compiled matcher selects -/

section Table

variable {policies} {path : Text}

/-- The route at the position is the first one of its kind in the table that accepts the path, and comes
    before the first one of the other kind. -/
def FirstInTable (policies : List RoutePolicy) (path : Text) (i : Nat) : Prop :=
  ∃ kind route, firstKept kind policies path = some route ∧ route.policy = i ∧
    ∀ other, firstKept kind.other policies path = some other → kind.Precedes i other

theorem exists_kind_iff {P : RouteMatchKind → Prop} :
    (∃ kind, P kind) ↔ P .exactMatch ∨ P .prefixMatch := by
  constructor
  · rintro ⟨_ | _, h⟩
    · exact .inr h
    · exact .inl h
  · rintro (h | h) <;> exact ⟨_, h⟩

theorem originalOrder_of_firstKept {kind : RouteMatchKind} {route : CompiledRoute}
    (h : firstKept kind policies path = some route) :
    route.originalOrder = route.policy.toUInt32 :=
  (mem_routesFrom (List.mem_of_mem_take (List.mem_of_find?_eq_some h))).2.1

theorem tiebreak_eq_some_iff (i : Nat) :
    tiebreak (firstKept .exactMatch policies path) (firstKept .prefixMatch policies path) = some i ↔
      FirstInTable policies path i := by
  rw [FirstInTable, exists_kind_iff]
  simp only [RouteMatchKind.other, RouteMatchKind.Precedes]
  cases hexact : firstKept .exactMatch policies path with
  | none =>
    cases hpfx : firstKept .prefixMatch policies path with
    | none => simp [tiebreak]
    | some => simp [tiebreak]
  | some exactRoute =>
    cases hpfx : firstKept .prefixMatch policies path with
    | none => simp [tiebreak]
    | some prefixRoute =>
      -- Orders are positions, as far as 32 bits tell.
      have hexactOrder := originalOrder_of_firstKept hexact
      have hprefixOrder := originalOrder_of_firstKept hpfx
      simp only [tiebreak, some.injEq, exists_eq_left', forall_eq']
      by_cases horder : exactRoute.originalOrder < prefixRoute.originalOrder
      · rw [if_pos horder, some.injEq]
        refine ⟨fun hid => .inl ⟨hid, by rw [← hid, ← hexactOrder]; exact horder⟩, ?_⟩
        rintro (⟨hid, -⟩ | ⟨hid, hle⟩)
        · exact hid
        · rw [← hid, ← hprefixOrder] at hle
          exact absurd horder (UInt32.not_lt.mpr hle)
      · rw [if_neg horder, some.injEq]
        refine ⟨fun hid => .inr ⟨hid, by
          rw [← hid, ← hprefixOrder]; exact UInt32.not_lt.mp horder⟩, ?_⟩
        rintro (⟨hid, hlt⟩ | ⟨hid, -⟩)
        · rw [← hid, ← hexactOrder] at hlt
          exact absurd hlt horder
        · exact hid

theorem tiebreak_eq_none_iff :
    tiebreak (firstKept .exactMatch policies path) (firstKept .prefixMatch policies path) = none ↔
      ∀ kind, firstKept kind policies path = none := by
  rw [← not_iff_not, not_forall, exists_kind_iff]
  cases firstKept .exactMatch policies path <;> cases firstKept .prefixMatch policies path <;>
    simp [tiebreak, ite_eq_iff]

end Table

/-! ## Selection by path and method -/

/-- The table has the route that is to be selected, and in front of all others that accept as much of the
    path as is kept; if there is no such route, the table has none that does. -/
def TableHonours (target : Text) (method : HttpMethod) : Prop :=
  match routeFor policies (requestPath target) method with
  | none => rawPath target = [] ∨ ∀ kind, firstKept kind policies (rawPath target) = none
  | some i => rawPath target ≠ [] ∧ FirstInTable policies (rawPath target) i

/-- The policy that is applied is the one for the path and the method if the table honours it. -/
theorem route_selection_iff (target : Text) (method : HttpMethod) :
    appliedRoute hash policies target = some (routeFor policies (requestPath target) method) ↔
      TableHonours policies target method := by
  unfold appliedRoute TableHonours
  by_cases hempty : rawPath target = []
  · cases routeFor policies (requestPath target) method <;> simp [hempty]
  rw [if_neg (by simpa using hempty), matchCompiled_eq, some.injEq]
  cases routeFor policies (requestPath target) method with
  | none =>
    rw [tiebreak_eq_none_iff]
    simp [hempty]
  | some =>
    rw [tiebreak_eq_some_iff]
    simp [hempty]

/-- Two routes for one path, as in the example of the documentation. -/
def userRoutes : List RoutePolicy :=
  [{ routeId := some (lit "get_user"), matchKind := .exactMatch, matchPrefix := some (lit "/user")
     allowedMethod := .get },
   { routeId := some (lit "update_user_patch"), matchKind := .exactMatch
     matchPrefix := some (lit "/user"), allowedMethod := .patch }]

/-- A PATCH request gets the policy of the route for GET. -/
theorem patch_gets_the_route_for_get :
    routeFor userRoutes (requestPath (lit "/user")) .patch = some 1 ∧
      appliedRoute (fun _ => 0) userRoutes (lit "/user") = some (some 0) := by
  decide +kernel

end ByteTaper.ExtProc
