import ByteTaper.ExtProc.RequestPhase
import ByteTaper.ExtProc.ResponseBodyPhase

/-! # Routes that only observe

A route whose mutation mode is not full is documented to skip all transformation. Only the filter of
the response body asks for the mode. The caches answer, the pagination rewrites the target and a route
that fails closed rejects the response as on any other route. -/

namespace ByteTaper.ExtProc

open Apg Cache Coalescing FieldSelection Pagination Policy Stages ByteTaper.Runtime

section Hash

variable (hash : Text → UInt64) (env : LookupEnvironment)
  (matchRoute : MatchRoute) (compiled : Bool) (request : CacheRequest)

/-- The request goes on with the target of the client, and the messages of the upstream response with
    their bodies. -/
structure OnlyObserved (status contentType : Option Text) (decisionFinal : Bool)
    (messages : List ResponseBodyMessage) : Prop where
  forwarded : (onRequest hash env matchRoute compiled request).2 = .forward request.target
  delivered : ∀ message ∈ messages, ∃ headers,
    onResponseBody (applyResponseContentType status contentType
        (onRequest hash env matchRoute compiled request).1)
      decisionFinal message = .goOn none headers

/-- The target is not changed by a pagination: the registry rejects the request before, or what the
    pagination makes is the target itself. -/
def TargetKept (policy : RoutePolicy) (context : CacheContext) : Prop :=
  rejectedByCoalescing hash env request.scope context = true ∨
    ∀ target, paginatedTarget policy.pagination context.rawPath context.rawQuery = some target →
      target = request.target

variable {hash env request} in
theorem TargetKept.of_limitAccepted {policy : RoutePolicy} {context : CacheContext}
    (h : LimitAccepted policy.pagination context.rawQuery) :
    TargetKept hash env request policy context :=
  .inr fun _ htarget => nomatch (h.paginatedTarget _).symm.trans htarget

end Hash

/-- The bodies of the route are not looked at, or nothing is rejected. -/
def BodiesKept (policy : RoutePolicy) (state : StreamFilterState) (decisionFinal : Bool) : Prop :=
  policy.failureMode = .failOpen ∨ isCompressionOnlyRoute policy state = true ∨
    routeNeedsResponseBodyProcessing policy state decisionFinal = false

section

variable {state : StreamFilterState} {policy : RoutePolicy}
  (hpolicy : state.matchedPolicy = some policy) (hmutation : policy.mutation ≠ .full)
  (message : ResponseBodyMessage)

include hpolicy hmutation

/-- Without full mutation no body is filtered. -/
theorem buildFilteredBodyResponse_observe : ∃ reason, reason ≠ .skipUnsupported ∧
      buildFilteredBodyResponse state message.endOfStream message.body = .error reason := by
  rw [buildFilteredBodyResponse, hpolicy]
  by_cases hinv : (validateRoutePolicy policy).isSome
  · exact ⟨.invalidPolicy, by simp, by simp [bodyRefused, hinv]⟩
  · exact ⟨.observeMode, by simp, by simp [bodyRefused, hinv, hmutation]⟩

theorem onResponseBody_kept_iff (decisionFinal : Bool) :
    (∃ headers, onResponseBody state decisionFinal message = .goOn none headers) ↔
      BodiesKept policy state decisionFinal := by
  obtain ⟨reason, hrsn, hbuild⟩ := buildFilteredBodyResponse_observe hpolicy hmutation message
  have hprocessed : (∃ headers, processedAnswer state message = .goOn none headers) ↔
      policy.failureMode = .failOpen := by
    simp only [processedAnswer, hbuild, rejectsUnfiltered, hpolicy]
    cases policy.failureMode <;> simp [hrsn]
  rw [onResponseBody, hpolicy, BodiesKept]
  dsimp only
  cases isCompressionOnlyRoute policy state with
  | true => simp
  | false =>
    cases routeNeedsResponseBodyProcessing policy state decisionFinal with
    | false => simp
    | true => simpa using hprocessed

end

section

variable {hash : Text → UInt64} {env : LookupEnvironment}
  {matchRoute : MatchRoute} {compiled : Bool} {request : CacheRequest}
  {policy : RoutePolicy}

theorem onRequest_forward_iff
    (hpolicy : (onRequestHeaders matchRoute (some request.target) {}).matchedPolicy = some policy) :
    let context := requestContext (onRequestHeaders matchRoute (some request.target) {}) request
    (onRequest hash env matchRoute compiled request).2 = .forward request.target ↔
      cachedAnswer hash env request.scope context = none ∧
        TargetKept hash env request policy context := by
  intro context
  rw [onRequest_outcome hpolicy, TargetKept]
  cases cachedAnswer hash env request.scope context with
  | some => simp
  | none =>
    cases rejectedByCoalescing hash env request.scope context with
    | true => simp
    | false =>
      cases paginatedTarget policy.pagination context.rawPath context.rawQuery with
      | none => simp
      | some => simp

end

theorem secret_fits : (lit "secret").length < kMaxFieldNameLen := by decide +kernel

/-- A route with its processing disabled, a filter, a pagination and fail-closed. -/
def observedPolicy : RoutePolicy where
  routeId := some (lit "orders")
  matchPrefix := some (lit "/orders")
  mutation := .disabled
  failureMode := .failClosed
  fieldFilter := { mode := .denylist, fields := [⟨lit "secret", secret_fits⟩] }
  pagination :=
    { enabled := true, mode := .limitOffset, defaultLimit := 50, maxLimit := 100
      upstreamSupportsPagination := true }

def observedRequest : CacheRequest where
  target := lit "/orders"

def observedMessage : ResponseBodyMessage where
  body := lit "\x7b\x7d"
  endOfStream := true

end ByteTaper.ExtProc
