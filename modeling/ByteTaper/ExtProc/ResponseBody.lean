import ByteTaper.JsonTransform.FilterFlatJson
import ByteTaper.Policy.RoutePolicyValidation

/-! # The phases of an exchange, as far as they filter the body

The external processor of `grpc_server.cpp` sees the request headers, the response headers and the
response body of an exchange. The first two fill a `StreamFilterState`; the last one filters the body,
or gives a reason why it does not. -/

namespace ByteTaper.ExtProc

open FieldSelection JsonTransform Policy

inductive FailOpenReason where
  | skipUnsupported | invalidInput | outputTooSmall | invalidJsonSafeError | payloadTooLarge
  | non2xxResponse | nonJsonResponse | policyNotFound | timeout | invalidPolicy | observeMode
deriving DecidableEq

structure StreamFilterState where
  context : ApgTransformContext := {}
  responseKind : JsonResponseKind := .skipUnsupported
  hasQuerySelection : Bool := false
  hasEffectiveFieldFilter : Bool := false
  matchedPolicy : Option RoutePolicy := none
  isNon2xxResponse : Bool := false

/-- The policy of a path. -/
abbrev MatchRoute := Text → Option RoutePolicy

variable (matchRoute : MatchRoute) (path status contentType : Option Text)
  (policy : RoutePolicy) (state : StreamFilterState) (endOfStream : Bool) (inputBody : Text)

/-! ## Request headers -/

/-- The selection of the client; `path` is the `:path` header. -/
def applyRequestHeadersSelection : StreamFilterState :=
  let state := { state with
    context := {}, responseKind := .skipUnsupported, hasQuerySelection := false }
  match path with
  | none => state
  | some target =>
    let context := parseAndStoreSelectedFields (extractRawPathAndQuery target state.context)
    { state with context, hasQuerySelection := context.clientQueryPresent }

def prepareEffectiveFieldSelectionFromPolicy : StreamFilterState :=
  match policy.fieldFilter.mode with
  | .none => state
  | .allowlist =>
    if state.hasQuerySelection then
      { state with hasEffectiveFieldFilter := !state.context.selectedFields.isEmpty }
    else
      { state with
        context.selectedFields := policy.fieldFilter.fields, hasEffectiveFieldFilter := true }
  | .denylist => { state with hasEffectiveFieldFilter := true }

/-- The request headers: the selection, the route that the path is matched to, and what the policy
    of the route makes of the selection. -/
def onRequestHeaders : StreamFilterState :=
  let state := applyRequestHeadersSelection path state
  let matchedPolicy :=
    if state.context.rawPath.isEmpty then none else matchRoute state.context.rawPath
  match matchedPolicy with
  | none => { state with matchedPolicy := none }
  | some policy =>
    let context := enforceSelectedFieldsPolicy state.context policy.fieldFilter
    prepareEffectiveFieldSelectionFromPolicy policy
      { state with
        context, matchedPolicy := some policy, hasQuerySelection := context.clientQueryPresent }

/-! ## Response headers -/

def asciiLower (c : Char) : Char :=
  if 'A' ≤ c && c ≤ 'Z' then Char.ofNat (c.toNat - 65 + 97) else c

def equalsIgnoreAsciiCase (value expected : Text) : Bool := value.map asciiLower == expected

/-- `application/*+json`, with something in front of the plus sign. -/
def hasJsonStructuredSuffix (value : Text) : Bool :=
  value.length > 12 && equalsIgnoreAsciiCase (value.take 12) (lit "application/") &&
    (value.drop 12).length > 5 &&
    equalsIgnoreAsciiCase (value.drop (value.length - 5)) (lit "+json")

def trimSpaces (t : Text) : Text :=
  let isSpace := fun c : Char => c = ' ' || c = '\t'
  ((t.dropWhile isSpace).reverse.dropWhile isSpace).reverse

def detectApplicationJsonResponse (contentType : Text) : JsonResponseKind :=
  let mediaType := trimSpaces (contentType.takeWhile (· != ';'))
  if equalsIgnoreAsciiCase mediaType (lit "application/json") ||
      hasJsonStructuredSuffix mediaType then .eligibleJson
  else .skipUnsupported

def kCacheContentTypeMaxLen : Nat := 64

/-- The `:status` and `content-type` headers. -/
def applyResponseContentType : StreamFilterState :=
  let state := match status with
    | some (c :: _) => if c ≠ '2' then { state with isNon2xxResponse := true } else state
    | _ => state
  { state with
    responseKind := match contentType with
      | some contentType =>
        detectApplicationJsonResponse (boundedCopy kCacheContentTypeMaxLen contentType)
      | none => .skipUnsupported }

/-! ## The response body -/

/-- `evaluate_filter_safety` of a status that is not `Ok`. -/
def filterFailOpenReason : FlatJsonFilterStatus → FailOpenReason
  | .ok | .skipUnsupported => .skipUnsupported
  | .invalidInput => .invalidInput
  | .outputTooSmall => .outputTooSmall
  | .invalidJsonSafeError => .invalidJsonSafeError
  | .timeout => .timeout

inductive BodyResponse where
  /-- The body goes on as it came. -/
  | unchanged
  | filtered (body : FilteredBody)
deriving DecidableEq

/-- The body that goes into the caches: the filtered one if there is one. -/
def storedBody : BodyResponse → Text
  | .unchanged => inputBody
  | .filtered body => body.output

def StreamFilterState.filteringActive : Bool :=
  state.hasQuerySelection || state.hasEffectiveFieldFilter

/-- The checks in front of the filter; `none` lets the body through to it. -/
def bodyRefused : Option FailOpenReason :=
  if (validateRoutePolicy policy).isSome then some .invalidPolicy
  else if policy.mutation ≠ .full then some .observeMode
  else if state.isNon2xxResponse then some .non2xxResponse
  else if state.filteringActive && state.responseKind ≠ .eligibleJson then some .nonJsonResponse
  else if !state.filteringActive && policy.cache.behavior ≠ .store then some .skipUnsupported
  else if !endOfStream then some .skipUnsupported
  else if exceedsMaxResponseBytes policy inputBody.length then some .payloadTooLarge
  else none

/-- `build_filtered_body_response`, for a message that has a body. -/
def buildFilteredBodyResponse : Except FailOpenReason BodyResponse :=
  match state.matchedPolicy with
  | none => .error .policyNotFound
  | some policy =>
    match bodyRefused policy state endOfStream inputBody with
    | some reason => .error reason
    | none =>
      if !state.filteringActive then .ok .unchanged
      else
        let parsed := parseFlatJsonObject inputBody state.responseKind
        match transformFlatJsonWithFilterToggle inputBody parsed.1 parsed.2
          state.matchedPolicy state.context true (inputBody.length + 1) with
        | .ok body => .ok (.filtered body)
        | .error status => .error (filterFailOpenReason status)

/-- The state in which the response body of an exchange is met. -/
def exchangeState : StreamFilterState :=
  applyResponseContentType status contentType (onRequestHeaders matchRoute path {})

/-- The filtered body of an exchange, if its response-body phase returns one. -/
def exchangeFilteredBody : Option Text :=
  match buildFilteredBodyResponse (exchangeState matchRoute path status contentType) endOfStream
    inputBody with
  | .ok (.filtered body) => some body.output
  | _ => none

theorem applyResponseContentType_eq :
    ∃ isNon2xxResponse responseKind, applyResponseContentType status contentType state =
      { state with isNon2xxResponse, responseKind } := by
  unfold applyResponseContentType
  split
  · split <;> exact ⟨_, _, rfl⟩
  · exact ⟨_, _, rfl⟩

theorem prepareEffectiveFieldSelection_eq :
    ∃ selectedFields hasEffectiveFieldFilter,
      prepareEffectiveFieldSelectionFromPolicy policy state =
        { state with context.selectedFields := selectedFields, hasEffectiveFieldFilter } := by
  unfold prepareEffectiveFieldSelectionFromPolicy
  split
  · exact ⟨_, _, rfl⟩
  · split <;> exact ⟨_, _, rfl⟩
  · exact ⟨_, _, rfl⟩

theorem prepareEffectiveFieldSelection_matchedPolicy :
    (prepareEffectiveFieldSelectionFromPolicy policy state).matchedPolicy =
      state.matchedPolicy := by
  obtain ⟨_, _, heq⟩ := prepareEffectiveFieldSelection_eq policy state
  rw [heq]

/-- The state that the request headers leave on a route, from the path and the query. -/
def selectedState (rawPath rawQuery : Text) : StreamFilterState :=
  let context := enforceSelectedFieldsPolicy
    (parseAndStoreSelectedFields { rawPath, rawQuery }) policy.fieldFilter
  prepareEffectiveFieldSelectionFromPolicy policy
    { context, matchedPolicy := some policy, hasQuerySelection := context.clientQueryPresent }

section Route

variable {matchRoute path status contentType policy}

theorem onRequestHeaders_selected
    (h : (onRequestHeaders matchRoute path {}).matchedPolicy = some policy) :
    ∃ rawPath rawQuery,
      onRequestHeaders matchRoute path {} = selectedState policy rawPath rawQuery := by
  unfold onRequestHeaders at h ⊢
  dsimp only at h ⊢
  split at h
  · cases h
  · rw [prepareEffectiveFieldSelection_matchedPolicy] at h
    obtain rfl := Option.some.inj h
    cases path <;> exact ⟨_, _, rfl⟩

/-- The state in which the response body is met, on a route. -/
theorem exchangeState_selected
    (hroute : (exchangeState matchRoute path status contentType).matchedPolicy = some policy) :
    ∃ rawPath rawQuery isNon2xxResponse responseKind,
      exchangeState matchRoute path status contentType =
        { selectedState policy rawPath rawQuery with isNon2xxResponse, responseKind } := by
  obtain ⟨_, _, heq⟩ :=
    applyResponseContentType_eq status contentType (onRequestHeaders matchRoute path {})
  rw [exchangeState, heq] at hroute ⊢
  obtain ⟨rawPath, rawQuery, hstate⟩ := onRequestHeaders_selected hroute
  exact ⟨rawPath, rawQuery, _, _, by rw [hstate]⟩

/-- The route of a request is the one that the path of its target is matched to. -/
theorem onRequestHeaders_matchedPolicy
    (h : (applyRequestHeadersSelection path {}).context.rawPath ≠ []) :
    (onRequestHeaders matchRoute path {}).matchedPolicy =
      matchRoute (applyRequestHeadersSelection path {}).context.rawPath := by
  rw [onRequestHeaders]
  simp only [List.isEmpty_iff, h, if_false]
  split
  next hroute => exact hroute.symm
  next policy hroute => rw [prepareEffectiveFieldSelection_matchedPolicy, hroute]

theorem exchangeState_matchedPolicy (status contentType : Option Text)
    (h : (applyRequestHeadersSelection path {}).context.rawPath ≠ []) :
    (exchangeState matchRoute path status contentType).matchedPolicy =
      matchRoute (applyRequestHeadersSelection path {}).context.rawPath := by
  obtain ⟨_, _, heq⟩ :=
    applyResponseContentType_eq status contentType (onRequestHeaders matchRoute path {})
  rw [exchangeState, heq, onRequestHeaders_matchedPolicy h]

end Route

end ByteTaper.ExtProc
