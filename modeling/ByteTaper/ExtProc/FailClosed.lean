import ByteTaper.ExtProc.ResponseBodyPhase

/-! # Routes that fail closed

A route that fails closed is documented to let no unfiltered data through. The server rejects a
response that it could not filter for every reason but one: what it does not support it passes on. That
are messages that do not end the body, and bodies that the filter cannot read although they begin like
JSON, such as an array at the top. -/

namespace ByteTaper.ExtProc

open FieldSelection JsonTransform Policy StreamFilterState

/-- The message is answered with the filtered body or with a rejection. -/
def AnsweredSafely (state : StreamFilterState) (decisionFinal : Bool)
    (message : ResponseBodyMessage) : Prop :=
  (∃ response, onResponseBody state decisionFinal message = .immediate response) ∨
    ∃ body, buildFilteredBodyResponse state message.endOfStream message.body =
        .ok (.filtered body) ∧
      onResponseBody state decisionFinal message = .goOn (some body.output) []

/-- What a message has to be like: the last one of its body, and too large for the route or supported
    by its filter. A route that is not valid rejects everything. -/
def NotPassedOver (policy : RoutePolicy) (context : ApgTransformContext)
    (message : ResponseBodyMessage) : Prop :=
  (validateRoutePolicy policy).isSome = true ∨
    message.endOfStream = true ∧
      (exceedsMaxResponseBytes policy message.body.length = true ∨
        bodySupported policy context message.body = true)

theorem prepareEffectiveFieldSelection_filteringActive {policy : RoutePolicy}
    (hfilt : policy.fieldFilter.mode ≠ .none) (state : StreamFilterState) :
    (prepareEffectiveFieldSelectionFromPolicy policy state).filteringActive := by
  unfold prepareEffectiveFieldSelectionFromPolicy
  split
  next hmode => exact absurd hmode hfilt
  · split
    next hquery => simp [filteringActive, hquery]
    · simp [filteringActive]
  · simp [filteringActive]

section

variable {state : StreamFilterState} {policy : RoutePolicy}
  (hpolicy : state.matchedPolicy = some policy) (hactive : state.filteringActive = true)
  (message : ResponseBodyMessage)

include hpolicy hactive

/-- Failing closed, every reason but one leads to a rejection. -/
theorem answeredSafely_iff_ne_skip (hcls : policy.failureMode = .failClosed)
    (hfilt : policy.fieldFilter.mode ≠ .none) (decisionFinal : Bool) :
    AnsweredSafely state decisionFinal message ↔
      buildFilteredBodyResponse state message.endOfStream message.body ≠
        .error .skipUnsupported := by
  have honly : isCompressionOnlyRoute policy state = false := by
    simp [isCompressionOnlyRoute, hfilt]
  have hneeds : routeNeedsResponseBodyProcessing policy state decisionFinal := by
    simp [routeNeedsResponseBodyProcessing, hfilt]
  simp only [AnsweredSafely, onResponseBody, hpolicy, honly, hneeds,
    Bool.false_eq_true, if_false, processedAnswer]
  cases hbuild : buildFilteredBodyResponse state message.endOfStream message.body with
  | error reason =>
    by_cases hrsn : reason = .skipUnsupported
    · simp [hrsn, rejectsUnfiltered]
    · simp [hrsn, rejectsUnfiltered, hcls]
  | ok response =>
    cases response with
    | filtered => simp
    | unchanged =>
      -- A response goes on as it came only if nothing is filtered.
      rw [buildFilteredBodyResponse, hpolicy] at hbuild
      dsimp only at hbuild
      split at hbuild
      · cases hbuild
      · simp only [hactive, Bool.not_true, Bool.false_eq_true, if_false] at hbuild
        split at hbuild <;> cases hbuild

theorem build_eq_skip_iff (hmut : policy.mutation = .full)
    (hstat : state.isNon2xxResponse = false) (hjson : state.responseKind = .eligibleJson) :
    buildFilteredBodyResponse state message.endOfStream message.body = .error .skipUnsupported ↔
      ¬ NotPassedOver policy state.context message := by
  have hrsn : ∀ status : FlatJsonFilterStatus, status ≠ .ok →
      (filterFailOpenReason status = .skipUnsupported ↔ status = .skipUnsupported) := by
    intro status hstat
    cases status <;> simp_all [filterFailOpenReason]
  rw [buildFilteredBodyResponse, hpolicy]
  simp only [bodyRefused, hmut, hstat, hactive, hjson, NotPassedOver]
  cases (validateRoutePolicy policy).isSome with
  | true => simp
  | false =>
    cases message.endOfStream with
    | false => simp
    | true =>
      cases exceedsMaxResponseBytes policy message.body.length with
      | true => simp
      | false =>
        have htr := @transform_eq_skip_iff message.body
          (message.body.length + 1) state.context policy
        simp only [ne_eq, not_true_eq_false, decide_false, Bool.and_false, Bool.not_true,
          Bool.false_and, Bool.false_eq_true, if_false, false_or, true_and,
          Bool.not_eq_true, ← htr]
        split
        next hres => simp [hres]
        next status hres =>
          have hok : status ≠ .ok := by
            rintro rfl
            exact transform_ne_ok hres
          simp [hres, hrsn status hok]

end

/-- Routes that fail closed, with full mutation and a field filter: however a JSON response with a
    status of 2xx is cut into messages, each of them is answered with the filtered body or with a
    rejection just if none of them is passed over. -/
theorem fail_closed_safe_iff {matchRoute : MatchRoute}
    {path status contentType : Option Text} {policy : RoutePolicy}
    (hroute : (exchangeState matchRoute path status contentType).matchedPolicy = some policy)
    (hclosed : policy.failureMode = .failClosed) (hmutation : policy.mutation = .full)
    (hfilter : policy.fieldFilter.mode ≠ .none)
    (hstatus : (exchangeState matchRoute path status contentType).isNon2xxResponse = false)
    (hjson : (exchangeState matchRoute path status contentType).responseKind = .eligibleJson)
    (messages : List ResponseBodyMessage) :
    (∀ message ∈ messages, ∀ decisionFinal,
        AnsweredSafely (exchangeState matchRoute path status contentType) decisionFinal message) ↔
      ∀ message ∈ messages,
        NotPassedOver policy (exchangeState matchRoute path status contentType).context message := by
  -- the filter is active, whatever the client selects
  have hactive : (exchangeState matchRoute path status contentType).filteringActive := by
    obtain ⟨_, _, _, _, heq⟩ := exchangeState_selected hroute
    rw [heq]
    exact prepareEffectiveFieldSelection_filteringActive hfilter _
  refine forall_congr' fun message => forall_congr' fun _ => ?_
  simp [answeredSafely_iff_ne_skip hroute hactive message hclosed hfilter,
    build_eq_skip_iff hroute hactive message hmutation hstatus hjson]

/-- A route that fails closed and denies `secret`. -/
def closedPolicy : RoutePolicy where
  routeId := some (lit "users")
  matchPrefix := some (lit "/users")
  mutation := .full
  failureMode := .failClosed
  fieldFilter := { mode := .denylist, fields := [⟨lit "secret", by decide +kernel⟩] }

def closedState : StreamFilterState :=
  exchangeState (fun _ => some closedPolicy) (some (lit "/users")) (some (lit "200"))
    (some (lit "application/json"))

/-- A list of users in one message, and a user in two. -/
def listMessage : ResponseBodyMessage where
  body := lit "[\x7b\"secret\":\"x\"\x7d]"
  endOfStream := true

def partMessage : ResponseBodyMessage where
  body := lit "\x7b\"secret\":\"x\""
  endOfStream := false

/-- Both go on with the denied field in them. -/
theorem fail_closed_passes_unsupported :
    closedState.matchedPolicy.map (fun policy => (policy.failureMode, policy.mutation)) =
        some (.failClosed, .full) ∧
      closedState.isNon2xxResponse = false ∧ closedState.responseKind = .eligibleJson ∧
      onResponseBody closedState true listMessage =
        .goOn none [(lit "x-bytetaper-fail-open-reason", lit "skip_unsupported")] ∧
      onResponseBody closedState true partMessage =
        .goOn none [(lit "x-bytetaper-fail-open-reason", lit "skip_unsupported")] ∧
      ¬ AnsweredSafely closedState true listMessage ∧
      ¬ AnsweredSafely closedState true partMessage := by
  have hlist : onResponseBody closedState true listMessage =
      .goOn none [(lit "x-bytetaper-fail-open-reason", lit "skip_unsupported")] := by
    decide +kernel
  have hpart : onResponseBody closedState true partMessage =
      .goOn none [(lit "x-bytetaper-fail-open-reason", lit "skip_unsupported")] := by
    decide +kernel
  refine ⟨by decide +kernel, by decide +kernel, by decide +kernel, hlist, hpart, ?_, ?_⟩
  · simp [AnsweredSafely, hlist]
  · simp [AnsweredSafely, hpart]

theorem fail_closed_safe_iff_list :
    (∀ message ∈ [listMessage, partMessage], ∀ decisionFinal,
        AnsweredSafely closedState decisionFinal message) ↔
      ∀ message ∈ [listMessage, partMessage],
        NotPassedOver closedPolicy closedState.context message := by
  refine fail_closed_safe_iff ?_ rfl rfl (by decide) ?_ ?_ _
  · exact exchangeState_matchedPolicy _ _ (by decide +kernel)
  · decide +kernel
  · decide +kernel

end ByteTaper.ExtProc
