import ByteTaper.Coalescing.HandedResponses
import ByteTaper.ExtProc.CutOffTargets
import ByteTaper.ExtProc.HeaderIsolation
import ByteTaper.ExtProc.RequestPhase

/-! # Requests that are answered together

The decision stage registers a request under a key of its route, its path and its query. A request that
joins the entry of another one waits for it, and is then answered with the response that was stored for
that one, under a cache key that both have. The two keys together fix the route, because the one goes on
with a colon after it and the other with a bar. The safety check is not told of the headers with
credentials, so that it lets every request in. -/

namespace ByteTaper.ExtProc

open Cache Coalescing FieldSelection Policy Stages ByteTaper.Runtime List Option
open Transition (System)

/-! ## Exchanges with a registry -/

/-- The exchanges and their caches, the registry with its followers, and what was decided for the
    requests; this log is not in the source. -/
structure CoalescedTraffic where
  traffic : CachedTraffic
  coalescing : CoalescingState := {}
  decisions : List (CacheRequest × CoalescingDecision) := []

inductive CoalescedAction where
  | traffic (action : TrafficAction)
  /-- The decision stage of an open exchange. -/
  | decide (id : Nat)
  /-- A leader completes its entry, or a follower goes on. -/
  | registry (action : CoalescingStep)

section Step

variable (matchRoute : MatchRoute) (hash : Text → UInt64)

def CoalescedTraffic.step (q : CoalescedTraffic) : CoalescedAction → Option CoalescedTraffic
  | .traffic action => (q.traffic.step matchRoute hash action).map fun traffic =>
    { q with traffic }
  | .decide id =>
    (q.traffic.exchanges id).bind fun exchange =>
      exchange.context.matchedPolicy.bind fun policy =>
        let request := coalescingRequest exchange.context policy
        (coalescingStep hash q.coalescing (.request request)).map fun coalescing =>
          { q with
            coalescing
            decisions := q.decisions ++
              [(exchange.request,
                (evaluateCoalescingDecision hash q.coalescing.registry request).2)] }
  | .registry (.request _) => none
  | .registry action => (coalescingStep hash q.coalescing action).map fun coalescing =>
    { q with coalescing }

def coalescedSystem (hasL1 hasL2 : Bool) (epochs : Option RouteCacheEpochStore) :
    System CoalescedTraffic CoalescedAction where
  init := { traffic := (trafficSystem matchRoute hash hasL1 hasL2 epochs).init }
  step := CoalescedTraffic.step matchRoute hash

end Step

def Decided (q : CoalescedTraffic) (request : CacheRequest) (action : CoalescingAction) (key : Text)
    (generation : UInt64) : Prop :=
  ∃ decision, (request, decision) ∈ q.decisions ∧ decision.action = action ∧ decision.key = key ∧
    decision.lifecycleGeneration = generation

/-- The follower has joined the entry of the leader, and was answered with the response that was stored
    for the leader. -/
def AnsweredThrough (q : CoalescedTraffic) (leader follower : CacheRequest) : Prop :=
  (∃ key generation,
      Decided q leader .leader key generation ∧ Decided q follower .follower key generation) ∧
    ∃ record ∈ q.traffic.stored, record.exchange.request = leader ∧
      ∃ served ∈ q.traffic.served, served.exchange.request = follower ∧
        served.hit.entry.body = record.body ∧
        ∃ key, record.exchange.context.StoresUnder key ∧ served.exchange.context.HasKey key

/-! ## What the requests have to agree in -/

/-- The state that the headers of a request leave. -/
def requestState (matchRoute : MatchRoute) (request : CacheRequest) :
    StreamFilterState :=
  onRequestHeaders matchRoute (some request.target) {}

structure SameResource (matchRoute : MatchRoute) (policy : RoutePolicy)
    (leader follower : CacheRequest) : Prop where
  route : (requestState matchRoute leader).matchedPolicy = some policy ∧
    (requestState matchRoute follower).matchedPolicy = some policy
  path : fullPath leader.target = fullPath follower.target
  query : fullQuery leader.target = fullQuery follower.target
  selection : (requestState matchRoute leader).context.clientQueryPresent =
      (requestState matchRoute follower).context.clientQueryPresent ∧
    (requestState matchRoute leader).context.selectedFields =
      (requestState matchRoute follower).context.selectedFields

/-- The values of all headers with a name. -/
def headerValues (headers : List HeaderValue) (name : Text) : List Text :=
  (headers.filter fun header => sameHeaderName header.key name).map (·.val)

structure CoalescedHeaders (policy : RoutePolicy) (first second : List HeaderValue) : Prop where
  scope : policy.cache.privateCache = true →
    headerValues first policy.cache.authScopeHeader =
      headerValues second policy.cache.authScopeHeader
  vary : ∀ name ∈ policy.cache.varyHeaders, headerValues first name = headerValues second name
  credentials : policy.coalescing.allowAuthenticated = false →
    ¬ CarriesCredentials first ∧ ¬ CarriesCredentials second

/-! ## When they agree -/

/-- The values of a vary header are hashed apart: neither does the hash of two texts collide, nor is one
    of them the text that stands for the other. -/
structure HashedApart (value other : Option Text) : Prop where
  hash : valueHash (varyValue value) = valueHash (varyValue other) →
    varyValue value = varyValue other
  missing : ¬ (value = none ∧ other = some (lit "<missing>")) ∧
    ¬ (value = some (lit "<missing>") ∧ other = none)
  empty : ¬ (value = some [] ∧ other = some (lit "<empty>")) ∧
    ¬ (value = some (lit "<empty>") ∧ other = some [])

/-- Credentials are seen by the scan. -/
def CredentialsScanned (headers : List HeaderValue) : Prop :=
  CarriesCredentials headers → requestHasAuthorization (scanRequestHeaders headers) = true ∨
    requestHasCookie (scanRequestHeaders headers) = true

/-- Headers that occur again have the same values, the first ones are hashed apart, and where
    credentials are not allowed there are none on a private route and none that escape the scan on
    another one. -/
structure CoalescedApart (policy : RoutePolicy) (first second : List HeaderValue) : Prop where
  scope : policy.cache.privateCache = true →
    (∀ value ∈ readHeaderValueCaseInsensitive first policy.cache.authScopeHeader,
      ∀ other ∈ readHeaderValueCaseInsensitive second policy.cache.authScopeHeader,
        valueHash value = valueHash other → value = other) ∧
    (headerValues first policy.cache.authScopeHeader).tail =
      (headerValues second policy.cache.authScopeHeader).tail
  vary : ∀ name ∈ policy.cache.varyHeaders,
    HashedApart (readHeaderValueCaseInsensitive first name)
        (readHeaderValueCaseInsensitive second name) ∧
      (headerValues first name).tail = (headerValues second name).tail
  credentials : policy.coalescing.allowAuthenticated = false →
    if policy.cache.privateCache then ¬ CarriesCredentials first ∧ ¬ CarriesCredentials second
    else CredentialsScanned first ∧ CredentialsScanned second

/-! ## Runs -/

open CoalescedTraffic

section Runs

variable {matchRoute : MatchRoute} {hash : Text → UInt64}
  {hasL1 hasL2 : Bool} {epochs : Option RouteCacheEpochStore} {q q' : CoalescedTraffic}

/-- A step is one of the exchanges or one of the registry, and in the second case perhaps a decision. -/
theorem CoalescedTraffic.step_cases {action : CoalescedAction}
    (h : q.step matchRoute hash action = some q') :
    ((∃ a, q.traffic.step matchRoute hash a = some q'.traffic) ∧
        q'.coalescing = q.coalescing ∧ q'.decisions = q.decisions) ∨
      ((∃ a, coalescingStep hash q.coalescing a = some q'.coalescing) ∧ q'.traffic = q.traffic ∧
        (q'.decisions = q.decisions ∨ ∃ id exchange policy, q.traffic.exchanges id = some exchange ∧
          exchange.context.matchedPolicy = some policy ∧
          q'.decisions = q.decisions ++ [(exchange.request,
            (evaluateCoalescingDecision hash q.coalescing.registry
              (coalescingRequest exchange.context policy)).2)])) := by
  cases action with
  | traffic action =>
    obtain ⟨traffic, haction, rfl⟩ := map_eq_some_iff.mp h
    exact .inl ⟨⟨action, haction⟩, rfl, rfl⟩
  | decide id =>
    obtain ⟨exchange, hid, h⟩ := bind_eq_some_iff.mp h
    obtain ⟨policy, hpol, h⟩ := bind_eq_some_iff.mp h
    obtain ⟨coalescing, haction, rfl⟩ := map_eq_some_iff.mp h
    exact .inr ⟨⟨_, haction⟩, rfl, .inr ⟨id, exchange, policy, hid, hpol, rfl⟩⟩
  | registry action =>
    cases action with
    | request => cases h
    | complete | follow | timeout =>
      simp only [CoalescedTraffic.step] at h
      obtain ⟨coalescing, haction, rfl⟩ := map_eq_some_iff.mp h
      exact .inr ⟨⟨_, haction⟩, rfl, .inl rfl⟩

section

variable (h : (coalescedSystem matchRoute hash hasL1 hasL2 epochs).Reachable q)

include h

theorem CoalescedTraffic.traffic_reachable :
    (trafficSystem matchRoute hash hasL1 hasL2 epochs).Reachable q.traffic := by
  refine h.map traffic rfl fun _ _ _ hstep => ?_
  rcases step_cases hstep with ⟨haction, -, -⟩ | ⟨-, hsame, -⟩
  · exact .inr haction
  · exact .inl hsame

theorem CoalescedTraffic.coalescing_reachable :
    (Coalescing.coalescing hash).Reachable q.coalescing := by
  refine h.map coalescing rfl fun _ _ _ hstep => ?_
  rcases step_cases hstep with ⟨-, hsame, -⟩ | ⟨haction, -, -⟩
  · exact .inl hsame
  · exact .inr haction

end

/-- The coalescing key of a request on its route. -/
def CoalescesUnder (matchRoute : MatchRoute) (request : CacheRequest) (key : Text) :
    Prop :=
  ∃ policy routeName, (requestState matchRoute request).matchedPolicy = some policy ∧
    policy.routeId = some routeName ∧ key.length < kInFlightKeySize ∧
    key = lit "c_key:" ++ routeName ++ lit ":0:" ++
      (requestState matchRoute request).context.rawPath ++ lit "?" ++
      (requestState matchRoute request).context.rawQuery ++ lit "&fields="

theorem decisionOf_key (key : Text) (result : RegistryRegistrationResult) :
    (decisionOf key result).key = key := by
  unfold decisionOf
  cases result.role <;> rfl

variable {policy : RoutePolicy} {follower : CacheRequest} {first second : List HeaderValue}

theorem coalescesUnder_of_mem
    (h : (coalescedSystem matchRoute hash hasL1 hasL2 epochs).Reachable q) :
    ∀ request decision, (request, decision) ∈ q.decisions → decision.action ≠ .bypass →
      CoalescesUnder matchRoute request decision.key := by
  refine (h.invariant (P := fun q => TrafficInv matchRoute q.traffic ∧
    ∀ request decision, (request, decision) ∈ q.decisions → decision.action ≠ .bypass →
      CoalescesUnder matchRoute request decision.key) ⟨?_, ?_⟩ ?_).2
  · exact @trafficInv_init matchRoute hash epochs hasL1 hasL2
  · exact fun _ _ hmem => absurd hmem not_mem_nil
  · intro s action t ⟨hinv, hdecided⟩ _ hstep
    rcases step_cases hstep with
      ⟨⟨a, haction⟩, -, hsame⟩ | ⟨-, htraffic, hcases⟩
    · exact ⟨hinv.step haction, hsame ▸ hdecided⟩
    refine ⟨htraffic ▸ hinv, ?_⟩
    rcases hcases with hsame | ⟨id, exchange, policy, hid, hpol, hlog⟩
    · exact hsame ▸ hdecided
    intro request decision hmem haction
    rw [hlog, mem_append, mem_singleton] at hmem
    rcases hmem with hmem | hmem
    · exact hdecided request decision hmem haction
    · obtain ⟨rfl, rfl⟩ := Prod.mk.inj hmem
      have hprep := hinv.exchanges id exchange hid
      rcases @evaluateCoalescingDecision_cases hash _
          (coalescingRequest exchange.context policy) with
        ⟨-, hbyp⟩ | ⟨key, hkey, hdec⟩
      · exact absurd hbyp haction
      rw [hdec, decisionOf_key]
      obtain ⟨hlen, routeName, hroute, htext⟩ := buildCoalescingKey_eq hkey
      have hstate : requestState matchRoute exchange.request = exchange.state :=
        hprep.state.symm
      refine ⟨policy, routeName, ?_, hroute, hlen, ?_⟩
      · rw [hstate, ← hprep.matched, hpol]
      · rw [hstate, ← hprep.context]
        exact htext

/-! ## The resource -/

theorem fullPath_append_query {path : Text} (h : '?' ∉ path) (query : Text) :
    fullPath (path ++ '?' :: query) = path ∧ fullQuery (path ++ '?' :: query) = query := by
  have hall : ∀ c ∈ path, (c != '?') := by
    intro c hc
    rw [bne_iff_ne]
    rintro rfl
    exact h hc
  constructor
  · rw [fullPath, takeWhile_append_of_pos hall]
    simp
  · rw [fullQuery, dropWhile_append_of_pos hall]
    simp

/-- In a cache key a bar stands behind the route. -/
theorem keyText_route {a b : CacheKeyInput} (h : a.keyText = b.keyText) :
    ∃ rest rest', a.routeId.getD [] ++ '|' :: rest = b.routeId.getD [] ++ '|' :: rest' := by
  have hvar := (keyText_eq_iff.mp h).1
  have hjoined : ∀ input : CacheKeyInput, ∃ rest,
      ['|'].intercalate input.keyParts = input.routeId.getD [] ++ '|' :: rest := by
    intro input
    rw [CacheKeyInput.keyParts]
    cases input.routeCacheEpochReady <;> simp [intercalate_cons_cons]
  unfold CacheKeyInput.keyText at h
  rw [hvar] at h
  obtain ⟨rest, ha⟩ := hjoined a
  obtain ⟨rest', hb⟩ := hjoined b
  exact ⟨rest, rest', ha.symm.trans ((append_cancel_left h).trans hb)⟩

/-- Requests with a common coalescing key and routes of one name have one target. -/
theorem target_of_coalescingKey {route path query path' query' : Text} (hpath : '?' ∉ path)
    (hpath' : '?' ∉ path')
    (h : lit "c_key:" ++ route ++ lit ":0:" ++ path ++ lit "?" ++ query ++ lit "&fields=" =
      lit "c_key:" ++ route ++ lit ":0:" ++ path' ++ lit "?" ++ query' ++ lit "&fields=") :
    path = path' ∧ query = query' := by
  have hmark : lit "?" = ['?'] := by simp [lit]
  simp only [hmark, append_assoc, append_cancel_left_eq, singleton_append] at h
  have hflds : (path ++ '?' :: query) ++ lit "&fields=" =
      (path' ++ '?' :: query') ++ lit "&fields=" := by
    simpa using h
  have htgt := append_cancel_right hflds
  obtain ⟨hfst, hsnd⟩ := fullPath_append_query hpath query
  obtain ⟨hfst', hsnd'⟩ := fullPath_append_query hpath' query'
  rw [htgt] at hfst hsnd
  exact ⟨hfst.symm.trans hfst', hsnd.symm.trans hsnd'⟩

theorem requestState_target (request : CacheRequest) :
    (requestState matchRoute request).context.rawPath =
        boundedCopy kRawPathBufferSize (fullPath request.target) ∧
      (requestState matchRoute request).context.rawQuery =
        boundedCopy kRawQueryBufferSize (fullQuery request.target) ∧
      '?' ∉ (requestState matchRoute request).context.rawPath := by
  obtain ⟨hpath, hquery⟩ := onRequestHeaders_target matchRoute request.target
  refine ⟨hpath, hquery, ?_⟩
  rw [requestState, hpath]
  refine not_mem_boundedCopy fun hmem => ?_
  have hne := mem_takeWhile_imp hmem
  simp at hne

/-- Two requests with the same path and the same query leave the same state. -/
theorem requestState_congr {leader : CacheRequest}
    (hpath : fullPath leader.target = fullPath follower.target)
    (hquery : fullQuery leader.target = fullQuery follower.target) :
    requestState matchRoute leader = requestState matchRoute follower := by
  have hseen : ∀ context, extractRawPathAndQuery leader.target context =
      extractRawPathAndQuery follower.target context := by
    intro context
    show ApgTransformContext.mk (boundedCopy _ (fullPath _)) (boundedCopy _ (fullQuery _)) _ _ =
      ApgTransformContext.mk (boundedCopy _ (fullPath _)) (boundedCopy _ (fullQuery _)) _ _
    rw [hpath, hquery]
  have hselection : applyRequestHeadersSelection (some leader.target) {} =
      applyRequestHeadersSelection (some follower.target) {} := by
    simp [applyRequestHeadersSelection, hseen]
  unfold requestState onRequestHeaders
  rw [hselection]

/-- Requests with a common coalescing key and a common cache key are for one resource. -/
theorem sameResource_of_keys {leader follower : Exchange} (hlead : leader.Prepared matchRoute)
    (hfol : follower.Prepared matchRoute) {coalescingKey cacheKey : Text}
    (hcoalesces : CoalescesUnder matchRoute leader.request coalescingKey)
    (hcoalesces' : CoalescesUnder matchRoute follower.request coalescingKey)
    (hkey : leader.context.HasKey cacheKey) (hkey' : follower.context.HasKey cacheKey) :
    ∃ policy, SameResource matchRoute policy leader.request follower.request := by
  have hrouted : ∀ {exchange : Exchange}, exchange.Prepared matchRoute →
      exchange.context.HasKey cacheKey → ∀ {policy : RoutePolicy},
      (requestState matchRoute exchange.request).matchedPolicy = some policy →
      ∃ input : CacheKeyInput, cacheKey = input.keyText ∧ input.routeId = policy.routeId := by
    intro exchange hprep hkey policy hpol
    obtain ⟨policy', epoch, hfor⟩ := hprep.keys cacheKey hkey
    have hmat : exchange.context.matchedPolicy = some policy := by
      rw [hprep.matched, hprep.state]
      exact hpol
    obtain rfl := some.inj (hfor.matched.symm.trans hmat)
    obtain ⟨-, fields, variant, htext⟩ := hfor.keyText_input hkey
    exact ⟨_, htext, rfl⟩
  obtain ⟨policy, route, hpol, hroute, hlen, htext⟩ := hcoalesces
  obtain ⟨policy', route', hpol', hroute', -, htext'⟩ := hcoalesces'
  obtain ⟨input, hin, hid⟩ := hrouted hlead hkey hpol
  obtain ⟨input', hin', hid'⟩ := hrouted hfol hkey' hpol'
  have hsame := htext.symm.trans htext'
  obtain rfl : route = route' := by
    -- a colon behind the route in the one key, a bar in the other
    have hcolon : lit ":0:" = ':' :: lit "0:" := by simp [lit]
    obtain ⟨rest, rest', hbar⟩ := keyText_route (hin.symm.trans hin')
    rw [hid, hid', hroute, hroute'] at hbar
    simp only [hcolon, append_assoc, append_cancel_left_eq, cons_append] at hsame
    exact Separated.eq_of_two_separators (by decide) hsame hbar
  obtain ⟨hpath, hquery, hmark⟩ := @requestState_target matchRoute leader.request
  obtain ⟨hpath', hquery', hmark'⟩ := @requestState_target matchRoute follower.request
  obtain ⟨hpaths, hqs⟩ := target_of_coalescingKey hmark hmark' hsame
  -- the coalescing key is shorter than the buffers, so that nothing is cut off
  rw [htext] at hlen
  simp only [length_append] at hlen
  have hsizes : kInFlightKeySize = 256 ∧ kRawPathBufferSize = 1024 ∧ kRawQueryBufferSize = 1024 :=
    ⟨rfl, rfl, rfl⟩
  have hfull : fullPath leader.request.target = fullPath follower.request.target := by
    refine eq_of_boundedCopy (hpath.symm.trans (hpaths.trans hpath')) ?_
    rw [← hpath', ← hpaths]
    omega
  have hfull' : fullQuery leader.request.target = fullQuery follower.request.target := by
    refine eq_of_boundedCopy (hquery.symm.trans (hqs.trans hquery')) ?_
    rw [← hquery', ← hqs]
    omega
  have hstate := @requestState_congr matchRoute _ _ hfull hfull'
  exact ⟨policy, ⟨hpol, hstate ▸ hpol⟩, hfull, hfull', by rw [hstate]; exact ⟨rfl, rfl⟩⟩

/-! ## The headers -/

theorem read_eq_head (headers : List HeaderValue) (name : Text) :
    readHeaderValueCaseInsensitive headers name = (headerValues headers name).head? := by
  rw [readHeaderValueCaseInsensitive, headerValues, head?_map, head?_filter]

/-- The values are the one that is read and the further ones. -/
theorem headerValues_eq_iff {name : Text} : headerValues first name = headerValues second name ↔
      readHeaderValueCaseInsensitive first name = readHeaderValueCaseInsensitive second name ∧
        (headerValues first name).tail = (headerValues second name).tail := by
  rw [read_eq_head, read_eq_head]
  cases headerValues first name <;> cases headerValues second name <;> simp

theorem hashedApart_iff {value other : Option Text}
    (h : valueHash (varyValue value) = valueHash (varyValue other)) :
    value = other ↔ HashedApart value other := by
  have hempty : lit "<empty>" ≠ [] := varyValue_ne_nil (some [])
  constructor
  · rintro rfl
    refine ⟨fun _ => rfl, ⟨?_, ?_⟩, ?_, ?_⟩ <;> rintro ⟨h1, h2⟩ <;> rw [h1] at h2
    all_goals first | cases h2 | exact hempty (some.inj h2) |
      exact hempty (some.inj h2).symm
  · intro hapart
    rcases varyValue_eq_iff.mp (hapart.hash h) with heq | hcase | hcase | hcase | hcase
    · exact heq
    · exact absurd hcase hapart.missing.1
    · exact absurd hcase hapart.missing.2
    · exact absurd hcase hapart.empty.1
    · exact absurd hcase hapart.empty.2

/-- A request that a shared route does not keep from its cache carries no credentials that are seen. -/
theorem not_carriesCredentials_iff_scanned {headers : List HeaderValue}
    (hshared : policy.cache.privateCache = false)
    (hbyp : (cacheScope headers (some policy)).cacheAuthBypass = false) :
    ¬ CarriesCredentials headers ↔ CredentialsScanned headers := by
  obtain ⟨hauth, hcookie⟩ := cacheScope_of_shared hshared hbyp
  unfold CredentialsScanned
  simp [hauth, hcookie]

/-- Requests with one cache key agree in their headers, just if these are kept apart. -/
theorem coalescedHeaders_iff {context context' : CacheContext} {key : Text}
    (hkeyed : KeyedBy policy first context key) (hkeyed' : KeyedBy policy second context' key) :
    CoalescedHeaders policy first second ↔ CoalescedApart policy first second := by
  obtain ⟨hscopes, hhashes⟩ := hkeyed.scopes hkeyed'
  obtain ⟨_, _, hready⟩ := hkeyed.ready
  obtain ⟨_, _, hready'⟩ := hkeyed'.ready
  have hscope : policy.cache.privateCache →
      (readHeaderValueCaseInsensitive first policy.cache.authScopeHeader =
          readHeaderValueCaseInsensitive second policy.cache.authScopeHeader ↔
        ∀ value ∈ readHeaderValueCaseInsensitive first policy.cache.authScopeHeader,
          ∀ other ∈ readHeaderValueCaseInsensitive second policy.cache.authScopeHeader,
            valueHash value = valueHash other → value = other) := by
    intro hpriv
    obtain ⟨value, value', hread, hread', hhash⟩ := hscopes hpriv
    simp [hread, hread', hhash]
  have hcred : (¬ CarriesCredentials first ∧ ¬ CarriesCredentials second) ↔
      if policy.cache.privateCache then ¬ CarriesCredentials first ∧ ¬ CarriesCredentials second
      else CredentialsScanned first ∧ CredentialsScanned second := by
    split
    · exact Iff.rfl
    next hshared =>
      rw [Bool.not_eq_true] at hshared
      exact and_congr (not_carriesCredentials_iff_scanned hshared hready.notBypassed)
        (not_carriesCredentials_iff_scanned hshared hready'.notBypassed)
  constructor
  · intro h
    refine ⟨fun hpriv => ?_, fun name hname => ?_, fun hallow => hcred.mp (h.credentials hallow)⟩
    · obtain ⟨hread, htail⟩ := headerValues_eq_iff.mp (h.scope hpriv)
      exact ⟨(hscope hpriv).mp hread, htail⟩
    · obtain ⟨hread, htail⟩ := headerValues_eq_iff.mp (h.vary name hname)
      exact ⟨(hashedApart_iff (hhashes name hname)).mp hread, htail⟩
  · intro h
    refine ⟨fun hpriv => headerValues_eq_iff.mpr ?_, fun name hname => headerValues_eq_iff.mpr ?_,
      fun hallow => hcred.mpr (h.credentials hallow)⟩
    · exact ⟨(hscope hpriv).mpr (h.scope hpriv).1, (h.scope hpriv).2⟩
    · exact ⟨(hashedApart_iff (hhashes name hname)).mpr (h.vary name hname).1,
        (h.vary name hname).2⟩

/-! ## Together -/

theorem AnsweredThrough.exchanges {leader : CacheRequest} (h : AnsweredThrough q leader follower) :
    ∃ first second key, UsesEntry q.traffic key first ∧ UsesEntry q.traffic key second ∧
        first.request = leader ∧ second.request = follower := by
  obtain ⟨-, record, hrec, hlead, served, hserv, hfol, hbody, key, hstores, hkey⟩ := h
  exact ⟨record.exchange, served.exchange, key, .inl ⟨record, hrec, rfl, hstores⟩,
    .inr ⟨served, hserv, rfl, hkey, record, hrec, hstores, hbody⟩, hlead, hfol⟩

/-- Along every run no follower gets a response from the registry itself; a follower that is answered
    with the response of its leader is for the same resource, and their headers agree just if they are
    kept apart. -/
theorem coalescing_isolation_iff
    (hq : (coalescedSystem matchRoute hash hasL1 hasL2 epochs).Reachable q) :
    (∀ f ∈ q.coalescing.followers, f.NotHanded) ∧
      ∀ leader follower, AnsweredThrough q leader follower → ∃ policy,
        SameResource matchRoute policy leader follower ∧
          ∀ headers headers', leader.FromHeaders matchRoute headers →
            follower.FromHeaders matchRoute headers' →
            (CoalescedHeaders policy headers headers' ↔ CoalescedApart policy headers headers') := by
  have hinv := trafficInv_reachable (traffic_reachable hq)
  have hopened := openedInv_reachable (traffic_reachable hq)
  refine ⟨(nothingHanded_reachable (coalescing_reachable hq)).followers, ?_⟩
  intro leader follower hanswered
  obtain ⟨first, second, key, hfst, hsnd, rfl, rfl⟩ := hanswered.exchanges
  obtain ⟨⟨coalescingKey, generation, ⟨decision, hmem, haction, rfl, -⟩,
    ⟨decision', hmem', haction', hkey', -⟩⟩, -⟩ := hanswered
  obtain ⟨hprep, -, hcacheKey⟩ := hfst.opened hinv hopened
  obtain ⟨hprep', -, hcacheKey'⟩ := hsnd.opened hinv hopened
  obtain ⟨policy, hsame⟩ := sameResource_of_keys hprep hprep'
    (coalescesUnder_of_mem hq _ _ hmem (by simp [haction]))
    (hkey' ▸ coalescesUnder_of_mem hq _ _ hmem' (by simp [haction'])) hcacheKey hcacheKey'
  refine ⟨policy, hsame, fun headers headers' hhdr hhdr' => ?_⟩
  have hpol : first.state.matchedPolicy = some policy := hprep.state ▸ hsame.route.1
  have hpol' : second.state.matchedPolicy = some policy := hprep'.state ▸ hsame.route.2
  exact coalescedHeaders_iff (hfst.keys hinv hopened hpol hhdr) (hsnd.keys hinv hopened hpol' hhdr')

end Runs

/-! ### A private route -/

def accountRoute : RoutePolicy where
  routeId := some (lit "account")
  matchPrefix := some (lit "/account")
  mutation := .full
  cache :=
    { behavior := .store, ttlSeconds := 60, enabled := true, l1 := { enabled := true }
      privateCache := true, authScopeHeader := lit "x-user" }
  coalescing := { enabled := true }

def accountHeaders (token : Text) : List HeaderValue :=
  [{ key := lit ":path", rawValue := lit "/account" }, { key := lit "x-user", rawValue := lit "u" },
    { key := lit "authorization", rawValue := token }]

def accountRequest (token : Text) (requestEpochMs : Int64) : CacheRequest where
  target := lit "/account"
  scope := cacheScope (accountHeaders token) (some accountRoute)
  requestEpochMs := requestEpochMs

def accountKey : Text := lit "c_key:account:0:/account?&fields="

def accountSystem : System CoalescedTraffic CoalescedAction :=
  coalescedSystem (fun _ => some accountRoute) (fun _ => 0) true false
    (some (routeCacheEpochRegister [] (lit "account")).1)

/-- A request joins that of another token and waits for it, and looks into the cache when it is woken. -/
def accountRun : List CoalescedAction :=
  [.traffic (.request 0 (accountRequest (lit "a") 1)), .decide 0,
    .traffic (.request 1 (accountRequest (lit "b") 2)), .decide 1] ++
    List.replicate 6 (.registry (.follow 0 {})) ++
    [.traffic (.response 0
        { status := some (lit "200"), contentType := some (lit "application/json")
          body := lit "1" }
        { hasL2Cache := false, asyncStoreMaxBodySize := none, accepts := false, nowMs := 5 }),
      .registry (.complete accountKey 1 .l1Ready 5), .registry (.follow 0 {}),
      .registry (.follow 0 {}), .traffic (.lookup 1 .l1Cache),
      .registry (.follow 0 { l1 := true })]

def accountDecision (action : CoalescingAction) (reason : CoalescingDecisionReason) :
    CoalescingDecision where
  action := action
  reason := reason
  key := accountKey
  lifecycleGeneration := 1

/-- What the run comes to: the second request has followed the first one and was served. -/
def AnsweredTogether (q : CoalescedTraffic) : Prop :=
  q.decisions =
      [(accountRequest (lit "a") 1, accountDecision .leader .leaderCreated),
        (accountRequest (lit "b") 2, accountDecision .follower .followerJoined)] ∧
    0 < q.traffic.served.length ∧
    (∀ served ∈ q.traffic.served, served.exchange.request = accountRequest (lit "b") 2) ∧
    ∀ record ∈ q.traffic.stored, record.exchange.request = accountRequest (lit "a") 1

instance : DecidablePred AnsweredTogether :=
  fun _ => inferInstanceAs (Decidable (_ ∧ _ ∧ _ ∧ _))

theorem accountRun_answered : ∃ q, accountSystem.run accountRun = some q ∧
    accountSystem.Reachable q ∧
    AnsweredThrough q (accountRequest (lit "a") 1) (accountRequest (lit "b") 2) := by
  obtain ⟨q, hrun, hdecs, hlen, hserv, hstored⟩ : ∃ q,
      accountSystem.run accountRun = some q ∧ AnsweredTogether q :=
    System.exists_run (by decide +kernel)
  have hq : accountSystem.Reachable q := System.ReachableUnder.of_run (fun _ _ _ => trivial) hrun
  have hinv : TrafficInv (fun _ => some accountRoute) q.traffic :=
    trafficInv_reachable (traffic_reachable hq)
  obtain ⟨served, hmem⟩ := exists_mem_of_length_pos hlen
  obtain ⟨record, hrec, key, hkey, hstores, hbody⟩ := (hinv.served served hmem).source
  have hleads : Decided q (accountRequest (lit "a") 1) .leader accountKey 1 :=
    ⟨accountDecision .leader .leaderCreated, by simp [hdecs], rfl, rfl, rfl⟩
  have hfollows : Decided q (accountRequest (lit "b") 2) .follower accountKey 1 :=
    ⟨accountDecision .follower .followerJoined, by simp [hdecs], rfl, rfl, rfl⟩
  exact ⟨q, hrun, hq, ⟨accountKey, 1, hleads, hfollows⟩, record, hrec, hstored record hrec,
    served, hmem, hserv served hmem, hbody, key, hstores, hkey⟩

/-- Two requests with tokens of their own are answered together, although the route does not allow
    requests with credentials to be coalesced. -/
theorem credentials_are_coalesced : validateRoutePolicy accountRoute = none ∧
    accountRoute.coalescing.allowAuthenticated = false ∧
    ∃ q, accountSystem.run accountRun = some q ∧
      AnsweredThrough q (accountRequest (lit "a") 1) (accountRequest (lit "b") 2) ∧
      (requestState (fun _ => some accountRoute) (accountRequest (lit "a") 1)).matchedPolicy =
        some accountRoute ∧
      (accountRequest (lit "a") 1).FromHeaders (fun _ => some accountRoute)
        (accountHeaders (lit "a")) ∧
      (accountRequest (lit "b") 2).FromHeaders (fun _ => some accountRoute)
        (accountHeaders (lit "b")) ∧
      CarriesCredentials (accountHeaders (lit "a")) ∧
      CarriesCredentials (accountHeaders (lit "b")) ∧
      ¬ CoalescedHeaders accountRoute (accountHeaders (lit "a")) (accountHeaders (lit "b")) := by
  have hcarries : ∀ token, CarriesCredentials (accountHeaders token) := by
    intro token
    refine ⟨_, .inl ⟨{ key := lit "authorization", rawValue := token }, by simp [accountHeaders],
      ?_, rfl⟩⟩
    exact sameHeaderName_iff.mpr rfl
  obtain ⟨q, hrun, -, hanswered⟩ := accountRun_answered
  refine ⟨by decide +kernel, rfl, q, hrun, hanswered, ?_, by decide +kernel, by decide +kernel,
    hcarries _, hcarries _, fun h => (h.credentials rfl).1 (hcarries _)⟩
  exact onRequestHeaders_matchedPolicy (by decide +kernel)

theorem coalescing_isolation_iff_account : ∃ q, accountSystem.run accountRun = some q ∧
    AnsweredThrough q (accountRequest (lit "a") 1) (accountRequest (lit "b") 2) ∧
    ∃ policy, SameResource (fun _ => some accountRoute) policy (accountRequest (lit "a") 1)
        (accountRequest (lit "b") 2) ∧
      (CoalescedHeaders policy (accountHeaders (lit "a")) (accountHeaders (lit "b")) ↔
        CoalescedApart policy (accountHeaders (lit "a")) (accountHeaders (lit "b"))) := by
  obtain ⟨q, hrun, hq, hanswered⟩ := accountRun_answered
  obtain ⟨policy, hsame, hhdr⟩ := (coalescing_isolation_iff hq).2 _ _ hanswered
  exact ⟨q, hrun, hanswered, policy, hsame, hhdr _ _ (by decide +kernel) (by decide +kernel)⟩

end ByteTaper.ExtProc
