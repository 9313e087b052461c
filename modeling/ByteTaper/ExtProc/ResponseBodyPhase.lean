import ByteTaper.ExtProc.DefaultPipelines
import ByteTaper.JsonTransform.FlatFields

/-! # The answers of the response-body phase

What the server answers to a message with a part of the response body: the body goes on as it came, is
replaced by the filtered one, or the response is rejected. The reports that are added as headers are
left out, apart from the reason why a body was not filtered. -/

namespace ByteTaper.ExtProc

open FieldSelection JsonTransform Policy

structure ResponseBodyMessage where
  body : Text
  endOfStream : Bool

def getFailOpenReasonString : FailOpenReason → Text
  | .skipUnsupported => lit "skip_unsupported"
  | .invalidInput => lit "invalid_input"
  | .outputTooSmall => lit "output_too_small"
  | .invalidJsonSafeError => lit "invalid_json_safe_error"
  | .payloadTooLarge => lit "payload_too_large"
  | .non2xxResponse => lit "non_2xx_response"
  | .nonJsonResponse => lit "non_json_response"
  | .policyNotFound => lit "policy_not_found"
  | .timeout => lit "timeout"
  | .invalidPolicy => lit "invalid_policy"
  | .observeMode => lit "observe_mode"

structure ImmediateResponse where
  statusCode : Nat
  details : Text := []
  body : Text
  headers : List (Text × Text) := []
deriving DecidableEq

inductive BodyAnswer where
  /-- `CONTINUE`, with the body that replaces the one of the message if there is one, and the headers
      that are set. -/
  | goOn (bodyMutation : Option Text) (headers : List (Text × Text))
  | immediate (response : ImmediateResponse)
deriving DecidableEq

def failClosedResponse (reason : FailOpenReason) : ImmediateResponse where
  statusCode := 500
  details := lit "bytetaper_fail_closed"
  body := lit "ByteTaper safety constraint triggered (fail-closed)"
  headers := [(lit "x-bytetaper-fail-closed-reason", getFailOpenReasonString reason)]

/-- Whether the route rejects a response that was not filtered for this reason. -/
def rejectsUnfiltered (matchedPolicy : Option RoutePolicy) (reason : FailOpenReason) : Bool :=
  match matchedPolicy with
  | none => false
  | some policy => policy.failureMode = .failClosed && reason ≠ .skipUnsupported

/-- The answer to a message that is processed. -/
def processedAnswer (state : StreamFilterState) (message : ResponseBodyMessage) : BodyAnswer :=
  match buildFilteredBodyResponse state message.endOfStream message.body with
  | .ok .unchanged => .goOn none []
  | .ok (.filtered body) => .goOn (some body.output) []
  | .error reason =>
    if rejectsUnfiltered state.matchedPolicy reason then .immediate (failClosedResponse reason)
    else .goOn none [(lit "x-bytetaper-fail-open-reason", getFailOpenReasonString reason)]

/-- The answer to a message; `decisionFinal` tells whether the compression decision has been
    made, in the context that the route uses for it. -/
def onResponseBody (state : StreamFilterState) (decisionFinal : Bool)
    (message : ResponseBodyMessage) : BodyAnswer :=
  match state.matchedPolicy with
  | none => processedAnswer state message
  | some policy =>
    if isCompressionOnlyRoute policy state then .goOn none []
    else if routeNeedsResponseBodyProcessing policy state decisionFinal then
      processedAnswer state message
    else .goOn none []

/-! ## What a filter can read -/

/-- The walk through the members reaches the end of the body. -/
def readsBody (rules : FieldRules) (body : Text) : Bool :=
  let rest := skipWhitespace (cString body)
  match filterObject rules (4 * rest.length + 4) [] { rest } with
  | none => false
  | some (st, _) => skipWhitespace st.rest = []

theorem fitCapacity_ne_skip (outputCapacity : Nat) (body : FilteredBody) :
    fitCapacity outputCapacity body ≠ .error .skipUnsupported := by
  unfold fitCapacity
  split <;> simp

variable {body : Text} {outputCapacity : Nat} {context : ApgTransformContext}

theorem filterBody_eq_skip_iff {rules : FieldRules} :
    filterBody (filterObject rules) body outputCapacity = .error .skipUnsupported ↔
      readsBody rules body = false := by
  unfold filterBody readsBody
  dsimp only
  cases filterObject rules (4 * (skipWhitespace (cString body)).length + 4) []
      { rest := skipWhitespace (cString body) } with
  | none => simp
  | some walked =>
    obtain ⟨st, n⟩ := walked
    by_cases hend : skipWhitespace st.rest = []
    · simp [hend, fitCapacity_ne_skip]
    · simp [hend]

/-- A body that is not passed over as unsupported: it is taken for malformed, or the filter that it is
    given to reads it. -/
def bodySupported (policy : RoutePolicy) (context : ApgTransformContext) (body : Text) : Bool :=
  let parsed := (parseFlatJsonObject body .eligibleJson).1
  if parsed = .invalidJson || parsed = .invalidInput then true
  else if context.clientQueryPresent || policy.fieldFilter.mode = .none then
    !selectionContainsUnsupportedArrayNotation context &&
      readsBody (selectionRules (compileFieldSelection context)) body
  else parsed = .ok || readsBody (policyRules policy.fieldFilter) body

section Supported

variable {policy : RoutePolicy}

theorem readsBody_objectText {rules : FieldRules} {members : Json.Members}
    (h : Json.ObjectText members body) :
    readsBody rules body = (projectMembers rules [] members).isSome := by
  have hspec := @filterBody_spec rules _ _ 0 h
  cases hproject : projectMembers rules [] members with
  | none =>
    rw [hproject] at hspec
    exact filterBody_eq_skip_iff.mp hspec
  | some =>
    rw [hproject] at hspec
    obtain ⟨s, n, -, hfilter⟩ := hspec
    refine Bool.not_eq_false _ ▸ fun hreads => ?_
    exact fitCapacity_ne_skip _ _ (hfilter ▸ filterBody_eq_skip_iff.mpr hreads)

/-- An object is supported if the rules can be applied to all of its members, and by the filter of a
    policy also if it is flat. -/
theorem bodySupported_objectText {members : Json.Members} (h : Json.ObjectText members body) :
    bodySupported policy context body =
      if context.clientQueryPresent || policy.fieldFilter.mode = .none then
        !selectionContainsUnsupportedArrayNotation context &&
          (projectMembers (selectionRules (compileFieldSelection context)) [] members).isSome
      else isFlat members || (projectMembers (policyRules policy.fieldFilter) [] members).isSome := by
  rw [bodySupported, parseFlatJsonObject_spec h, readsBody_objectText h, readsBody_objectText h]
  cases isFlat members <;> simp

/-- Of what does not begin like an object, only an array is unsupported: the rest is malformed. -/
theorem bodySupported_of_not_object (h : (skipWhitespace (cString body)).head? ≠ some '\x7b') :
    bodySupported policy context body = true ↔
      (skipWhitespace (cString body)).head? ≠ some '[' := by
  cases hbegin : skipWhitespace (cString body) with
  | nil => simp [bodySupported, parseFlatJsonObject, hbegin]
  | cons c =>
    have hc : c ≠ '\x7b' := by simpa [hbegin] using h
    have hreads : ∀ rules, readsBody rules body = false := by
      intro rules
      simp [readsBody, filterObject, hbegin, hc]
    by_cases harray : c = '['
    · subst harray
      simp [bodySupported, parseFlatJsonObject, hbegin, hreads]
    · simp [bodySupported, parseFlatJsonObject, hbegin, hc, harray]

end Supported

theorem parseFlatJsonObject_hasSource (body : Text) :
    (parseFlatJsonObject body .eligibleJson).2.hasSource := by
  unfold parseFlatJsonObject
  rw [if_neg (by simp)]
  dsimp only
  split
  · rfl
  · rfl
  · split <;> rfl
  · rfl

theorem filterNestedBySelected_eq_skip_iff :
    filterNestedJsonBySelectedFields body context outputCapacity = .error .skipUnsupported ↔
      (!selectionContainsUnsupportedArrayNotation context &&
        readsBody (selectionRules (compileFieldSelection context)) body) = false := by
  unfold filterNestedJsonBySelectedFields
  split
  next h => simp [h]
  next h =>
    rw [writeFilteredObject, filterBody_eq_skip_iff]
    simp [h]

theorem transform_eq_skip_iff {policy : RoutePolicy} :
    transformFlatJsonWithFilterToggle body (parseFlatJsonObject body .eligibleJson).1
        (parseFlatJsonObject body .eligibleJson).2 (some policy) context true outputCapacity =
          .error .skipUnsupported ↔
      bodySupported policy context body = false := by
  have hsource := parseFlatJsonObject_hasSource body
  have hinv : invalidJsonSafeError outputCapacity ≠ .skipUnsupported := by
    unfold invalidJsonSafeError
    split <;> simp
  have hflat : ∀ filter, filterFlatJsonByPolicyDenylist
      (parseFlatJsonObject body .eligibleJson).2 filter outputCapacity ≠
        .error .skipUnsupported := by
    intro filter
    rw [filterFlatJsonByPolicyDenylist, hsource]
    exact fitCapacity_ne_skip _ _
  have hfilt : bodyFilter (some policy) context =
      if context.clientQueryPresent || policy.fieldFilter.mode = .none then none
      else some policy.fieldFilter := by
    cases hquery : context.clientQueryPresent <;> cases hmode : policy.fieldFilter.mode <;>
      simp [bodyFilter, hquery, hmode]
  unfold transformFlatJsonWithFilterToggle bodySupported
  rw [hfilt, hsource]
  cases hparsed : (parseFlatJsonObject body .eligibleJson).1 with
  | invalidJson => simpa using hinv
  | invalidInput => simp
  | ok =>
    cases context.clientQueryPresent || decide (policy.fieldFilter.mode = .none) with
    | true => simpa using filterNestedBySelected_eq_skip_iff
    | false => simpa using hflat policy.fieldFilter
  | skipUnsupported =>
    cases context.clientQueryPresent || decide (policy.fieldFilter.mode = .none) with
    | true => simpa using filterNestedBySelected_eq_skip_iff
    | false =>
      simpa [filterNestedJsonByPolicyDenylist, writeFilteredObjectDenylist] using
        filterBody_eq_skip_iff

theorem fitCapacity_ne_ok (outputCapacity : Nat) (body : FilteredBody) :
    fitCapacity outputCapacity body ≠ .error .ok := by
  unfold fitCapacity
  split <;> simp

theorem filterBody_ne_ok {filter} : filterBody filter body outputCapacity ≠ .error .ok := by
  unfold filterBody
  dsimp only
  split
  · simp
  · split
    · exact fitCapacity_ne_ok _ _
    · simp

/-- A filter that fails does not report `Ok`. -/
theorem transform_ne_ok {parseStatus parsed matchedPolicy} :
    transformFlatJsonWithFilterToggle body parseStatus parsed matchedPolicy context true
      outputCapacity ≠ .error .ok := by
  have hinv : invalidJsonSafeError outputCapacity ≠ .ok := by
    unfold invalidJsonSafeError
    split <;> simp
  have hnested : filterNestedJsonBySelectedFields body context outputCapacity ≠ .error .ok := by
    unfold filterNestedJsonBySelectedFields
    split
    · simp
    · exact filterBody_ne_ok
  unfold transformFlatJsonWithFilterToggle
  rw [if_neg (by simp)]
  split
  · simpa using hinv
  · simp
  · split
    · simp
    · split
      · exact filterBody_ne_ok
      · exact hnested
  · split
    · unfold filterFlatJsonByPolicyDenylist
      split
      · simp
      · exact fitCapacity_ne_ok _ _
    · exact hnested

end ByteTaper.ExtProc
