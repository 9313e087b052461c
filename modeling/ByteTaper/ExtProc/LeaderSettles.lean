import ByteTaper.Coalescing.LeaderGenerations
import ByteTaper.ExtProc.DefaultPipelines
import ByteTaper.Stages.CacheStages

/-! # What becomes of a leader

The entry of a leader is completed by the stages of the store pipeline or by the store job they
enqueue. The pipeline runs only for a response that the filter lets through on a route that stores, and
for a body that is too large for L1 everything is left to the job, even if there is no job. -/

namespace ByteTaper.ExtProc

open Cache Coalescing Policy Stages

/-! ## The response-body phase -/

section Hash

variable (hash : Text → UInt64) (registry : InFlightRegistry) (policy : RoutePolicy)
  (state : StreamFilterState) (context : CacheContext) (env : StoreEnvironment)

/-- The stages of the store pipeline that act on the registry. -/
def storePipeline : InFlightRegistry × Option L2StoreJob :=
  let (registry, job, _) :=
    l2CacheAsyncStoreEnqueueStage hash registry context env
  ((coalescingLeaderCompletionStage hash registry context env.nowMs).1, job)

/-- The response-body phase of an exchange on a route, with the store job it enqueues. -/
def responseBodyPhase (decisionFinal endOfStream : Bool) (inputBody : Text) :
    InFlightRegistry × Option L2StoreJob :=
  if isCompressionOnlyRoute policy state then (registry, none)
  else if !routeNeedsResponseBodyProcessing policy state decisionFinal then
    (registry, none)
  else
    match buildFilteredBodyResponse state endOfStream inputBody with
    | .error _ => (registry, none)
    | .ok response =>
      if policy.cache.behavior = .store then
        storePipeline hash registry
          { context with
            matchedPolicy := some policy, responseBody := storedBody inputBody response }
          env
      else (registry, none)

/-- The phase, and then the store job if there is one. -/
def leaderExchange (putResult : Option L2PutResult) (decisionFinal endOfStream : Bool)
    (inputBody : Text) : InFlightRegistry :=
  let (registry, job) := responseBodyPhase hash registry policy state context env
    decisionFinal endOfStream inputBody
  match job with
  | some job => executeStoreJob hash registry job putResult env.nowMs
  | none => registry

/-! ## When a leader settles -/

/-- The response of the exchange is stored to L2 in the background. -/
structure BackgroundStore : Prop where
  method : context.requestMethod = .get
  ttl : policy.cache.ttlSeconds ≠ 0
  l2Cache : env.hasL2Cache = true
  workerQueue : ∃ maxBodySize, env.asyncStoreMaxBodySize = some maxBodySize ∧
    context.responseBody.length ≤ maxBodySize
  variant : context.selectsVariant policy = true →
    context.variantCacheKey.isSome = true ∧ context.variantAdmissionPassed = true

/-- The conditions under which the entry of a leader is completed: the route stores, the filter lets
    the response through, and if its body is too large for L1 but not for the followers, it is stored
    to L2 in the background. -/
def LeaderSettles (endOfStream : Bool) (inputBody : Text) : Prop :=
  policy.cache.behavior = .store ∧
    ∃ response, buildFilteredBodyResponse state endOfStream inputBody = .ok response ∧
      let context := { context with
        matchedPolicy := some policy, responseBody := storedBody inputBody response }
      (responseValid context = true → kL1MaxBodySize < context.responseBody.length →
        context.responseBody.length ≤ kL2BodyBufSize → BackgroundStore policy context env)

/-! ## Completing an entry -/

/-- The key has an entry of the generation that is in flight. -/
def InFlightFor (key : Text) (generation : UInt64) : Prop :=
  ∃ j, (registry.table (shardOf hash key) j).isFor key = true ∧
    (registry.table (shardOf hash key) j).lifecycleGeneration = generation ∧
    (registry.table (shardOf hash key) j).state = .inFlight

variable {registry policy context env hash}
  {state : InFlightCompletionState} {job : L2StoreJob}

section

variable (h : Keyed hash registry.table) (key : Text) (generation nowMs : UInt64)

include h

theorem complete_settles (hstate : state ≠ .inFlight) : ¬InFlightFor hash
      (registryCompleteStateIfGeneration hash registry key generation state nowMs).1 key
      generation := by
  rintro ⟨j, hfor, hgen, hfly⟩
  unfold registryCompleteStateIfGeneration updateEntry at hfor hgen hfly
  cases hfound : findSlot hash registry key with
  | none =>
    simp only [hfound] at hfor
    rw [findSlot_none hfound j] at hfor
    cases hfor
  | some j' =>
    have hfor' := findSlot_some hfound
    by_cases hother : generation ≠ 0 ∧
        ((registry.shards (shardOf hash key)).slots j').lifecycleGeneration ≠ generation
    · simp only [hfound, if_pos hother] at hfor hgen
      obtain rfl := h.eq_of_isFor hfor hfor'
      exact hother.2 hgen
    · simp only [hfound, if_neg hother, table_setSlot] at hfor hfly
      by_cases hj : j = j'
      · subst hj
        rw [ShardedSlots.set_same] at hfly
        exact hstate hfly
      · rw [ShardedSlots.set_other _ _ fun _ => hj] at hfor
        exact hj (h.eq_of_isFor hfor hfor')

theorem complete_keyed (state : InFlightCompletionState) : Keyed hash
      (registryCompleteStateIfGeneration hash registry key generation state nowMs).1.table := by
  have hop : (RegistryOp.completeStateIfGeneration key generation state nowMs).KeyFits := trivial
  exact (registryStep_change registry hop).keyed h hop

end

section

variable (h : Keyed hash registry.table) {key : Text} {generation : UInt64}
  (hjob : job.handoff = some (key, generation)) (nowMs : UInt64)

include h hjob

/-- What a store job does for its leader. -/
theorem completeHandoff_some (hstate : state ≠ .inFlight) :
    ¬InFlightFor hash (completeHandoff hash registry job state nowMs) key
      generation := by
  rw [completeHandoff, hjob]
  exact complete_settles h key generation nowMs hstate

end

theorem l2StoreKey_ok_iff (hpol : context.matchedPolicy = some policy)
    (hstore : policy.cache.behavior = .store) (hvalid : responseValid context) :
    (∃ stored, l2StoreKey context env = .ok stored) ↔ BackgroundStore policy context env := by
  simp only [responseValid, Bool.and_eq_true, Bool.not_eq_true'] at hvalid
  obtain ⟨⟨hkey, hstat⟩, hbody⟩ := hvalid
  obtain ⟨key, hkey⟩ := Option.isSome_iff_exists.mp hkey
  unfold l2StoreKey
  simp only [hpol, hstore, hstat, hbody, ne_eq, not_true_eq_false, if_false, Bool.not_true,
    Bool.false_eq_true]
  constructor
  · rintro ⟨stored, h⟩
    split at h
    · cases h
    next hmeth =>
    split at h
    · cases h
    next httl =>
    split at h
    · cases h
    next hl2 =>
    split at h
    · cases h
    next maxBodySize hqueue =>
    split at h
    · cases h
    next hsize =>
    refine ⟨not_not.mp hmeth, httl, by simpa using hl2, ⟨maxBodySize, hqueue, by omega⟩, ?_⟩
    intro hvar
    rw [if_pos hvar] at h
    split at h
    next variantKey hvkey =>
      split at h
      next hadmitted => exact ⟨by rw [hvkey]; rfl, hadmitted⟩
      · cases h
    · cases h
  · rintro ⟨hmeth, httl, hl2, ⟨maxBodySize, hqueue, hsize⟩, hvar⟩
    simp only [hmeth, httl, hl2, hqueue, not_true_eq_false, if_false, Bool.not_true,
      Bool.false_eq_true, if_neg (Nat.not_lt.mpr hsize)]
    by_cases hsels : context.selectsVariant policy
    · obtain ⟨hready, hadmitted⟩ := hvar hsels
      obtain ⟨variantKey, hvkey⟩ := Option.isSome_iff_exists.mp hready
      simp only [hsels, hvkey, hadmitted, if_true]
      exact ⟨_, rfl⟩
    · simp only [hsels, Bool.false_eq_true, if_false, hkey]
      exact ⟨_, rfl⟩

/-- The stages leave the leader to the store job just for a response of the middle size. -/
theorem leaderCompletion_none_iff (context : CacheContext) :
    (leaderCompletion context).1 = none ↔ responseValid context ∧
      kL1MaxBodySize < context.responseBody.length ∧
      context.responseBody.length ≤ kL2BodyBufSize := by
  unfold leaderCompletion decideCoalescingCompletionHandoff
  by_cases hvalid : responseValid context
  · have hsizes : 0 < kL1MaxBodySize ∧ kL1MaxBodySize < kL2BodyBufSize := by decide
    have hbody : context.responseBody.length ≠ 0 := by
      simp only [responseValid, Bool.and_eq_true, Bool.not_eq_true'] at hvalid
      rw [Ne, List.length_eq_zero_iff, ← List.isEmpty_iff, hvalid.2]
      exact nofun
    simp only [hvalid, Bool.not_true, Bool.false_eq_true, if_false, if_neg hbody, true_and]
    by_cases hl1 : context.responseBody.length ≤ kL1MaxBodySize
    · simp only [if_pos hl1]
      exact iff_of_false nofun fun h => by omega
    · by_cases hl2 : context.responseBody.length ≤ kL2BodyBufSize
      · simp only [if_neg hl1, if_pos hl2]
        exact iff_of_true trivial ⟨by omega, hl2⟩
      · simp only [if_neg hl1, if_neg hl2]
        refine iff_of_false ?_ fun h => hl2 h.2
        by_cases hmax : context.responseBody.length ≤ kL2MaxBodySize
        · simp [hmax]
        · simp [hmax]
  · simp only [hvalid, Bool.not_false, if_true]
    exact iff_of_false nofun fun h => by simp at h

/-- The leader is completed by the end of the store pipeline and its job, unless the response is left
    to a job that there is not. -/
theorem storePipeline_settles_iff (h : Keyed hash registry.table)
    (context : CacheContext) (putResult : Option L2PutResult)
    (hpol : context.matchedPolicy = some policy) (hstore : policy.cache.behavior = .store)
    (hlead : context.coalescingDecision.action = .leader)
    (hfly : InFlightFor hash registry context.coalescingDecision.key
      context.coalescingDecision.lifecycleGeneration) :
    (¬InFlightFor hash (match (storePipeline hash registry context env).2 with
        | some job => executeStoreJob hash (storePipeline hash registry context env).1 job putResult
            env.nowMs
        | none => (storePipeline hash registry context env).1)
      context.coalescingDecision.key context.coalescingDecision.lifecycleGeneration) ↔
      (responseValid context → kL1MaxBodySize < context.responseBody.length →
        context.responseBody.length ≤ kL2BodyBufSize → BackgroundStore policy context env) := by
  have hjobs : ∀ registry key ttlMs, Keyed hash registry.table →
      (handsOver context ∨ ¬InFlightFor hash registry
        context.coalescingDecision.key context.coalescingDecision.lifecycleGeneration) →
      ¬InFlightFor hash (executeStoreJob hash registry (l2StoreJob context key ttlMs) putResult
          env.nowMs)
        context.coalescingDecision.key context.coalescingDecision.lifecycleGeneration := by
    intro registry key ttlMs hkeyed hcase
    by_cases hhands : handsOver context
    · unfold executeStoreJob
      split
      all_goals exact completeHandoff_some hkeyed (by rw [l2StoreJob, if_pos hhands]) _ nofun
    · unfold executeStoreJob completeHandoff
      simp only [l2StoreJob, if_neg hhands]
      split
      all_goals exact hcase.resolve_left hhands
  unfold storePipeline coalescingLeaderCompletionStage l2CacheAsyncStoreEnqueueStage
  simp only [hlead, ne_eq, not_true_eq_false, if_false]
  cases hcompl : (leaderCompletion context).1 with
  | some state =>
    -- the stages complete the leader, and a job does not undo that
    have hstate : state ≠ .inFlight := by
      rintro rfl
      unfold leaderCompletion at hcompl
      split at hcompl <;> split at hcompl <;> cases hcompl
    have hnot : ¬(responseValid context ∧ kL1MaxBodySize < context.responseBody.length ∧
        context.responseBody.length ≤ kL2BodyBufSize) := by
      rw [← leaderCompletion_none_iff, hcompl]
      exact nofun
    refine iff_of_true ?_ fun hvalid hl1 hl2 => absurd ⟨hvalid, hl1, hl2⟩ hnot
    cases hkey : l2StoreKey context env with
    | error => exact complete_settles h _ _ _ hstate
    | ok =>
      by_cases hacc : env.accepts
      · simp only [hacc, if_true]
        exact hjobs _ _ _ (complete_keyed h _ _ _ _) (.inr (complete_settles h _ _ _ hstate))
      · simp only [hacc, Bool.false_eq_true, if_false]
        refine complete_settles ?_ _ _ _ hstate
        unfold completeHandoff
        split
        · exact complete_keyed h _ _ _ _
        · exact h
  | none =>
    obtain ⟨hvalid, hl1, hl2⟩ := (leaderCompletion_none_iff context).mp hcompl
    have hhands : handsOver context := by
      simp [handsOver, hlead, hl1, hl2]
    have hiff : (∃ stored, l2StoreKey context env = .ok stored) ↔
        BackgroundStore policy context env := l2StoreKey_ok_iff hpol hstore hvalid
    cases hkey : l2StoreKey context env with
    | error =>
      refine iff_of_false (fun hset => hset hfly) fun hbg => ?_
      obtain ⟨stored, hok⟩ := hiff.mpr (hbg hvalid hl1 hl2)
      rw [hkey] at hok
      cases hok
    | ok stored =>
      refine iff_of_true ?_ fun _ _ _ => hiff.mp ⟨stored, hkey⟩
      by_cases hacc : env.accepts
      · simp only [hacc, if_true]
        exact hjobs _ _ _ h (.inl hhands)
      · simp only [hacc, Bool.false_eq_true, if_false]
        exact completeHandoff_some h (by rw [l2StoreJob, if_pos hhands]) _ nofun

end Hash

/-- The entry of a leader is not in flight after its exchange just if `LeaderSettles`. -/
theorem leader_settles_iff (hash : Text → UInt64) (registry : InFlightRegistry)
    (policy : RoutePolicy) (state : StreamFilterState) (context : CacheContext)
    (env : StoreEnvironment) (putResult : Option L2PutResult)
    (decisionFinal endOfStream : Bool) (inputBody : Text)
    (hkeyed : Keyed hash registry.table) (hcoalescing : policy.coalescing.enabled = true)
    (hleader : context.coalescingDecision.action = .leader)
    (hinflight : InFlightFor hash registry context.coalescingDecision.key
      context.coalescingDecision.lifecycleGeneration) :
    (¬InFlightFor hash (leaderExchange hash registry policy state context env putResult
        decisionFinal endOfStream inputBody)
      context.coalescingDecision.key context.coalescingDecision.lifecycleGeneration) ↔
      LeaderSettles policy state context env endOfStream inputBody := by
  have hcomp : isCompressionOnlyRoute policy state = false := by
    simp [isCompressionOnlyRoute, hcoalescing]
  unfold leaderExchange LeaderSettles
  by_cases hstore : policy.cache.behavior = .store
  · unfold responseBodyPhase
    have hneeds : routeNeedsResponseBodyProcessing policy state decisionFinal := by
      simp [routeNeedsResponseBodyProcessing, hstore]
    simp only [hcomp, hneeds, hstore, Bool.not_true, Bool.false_eq_true, if_false, if_true, true_and]
    cases hbuild : buildFilteredBodyResponse state endOfStream inputBody with
    | error =>
      exact iff_of_false (fun hsettled => hsettled hinflight) fun ⟨_, hok, _⟩ => by cases hok
    | ok response =>
      refine (storePipeline_settles_iff hkeyed { context with
        matchedPolicy := some policy, responseBody := storedBody inputBody response }
        putResult rfl hstore hleader hinflight).trans ?_
      constructor
      · intro hbg
        exact ⟨response, rfl, hbg⟩
      · rintro ⟨_, hok, hbg⟩
        cases hok
        exact hbg
  · have hphase : responseBodyPhase hash registry policy state context env
        decisionFinal endOfStream inputBody = (registry, none) := by
      unfold responseBodyPhase
      simp only [hcomp, hstore, Bool.false_eq_true, if_false]
      split
      · rfl
      · split <;> rfl
    rw [hphase]
    exact iff_of_false (fun hsettled => hsettled hinflight) fun h => hstore h.1

/-- A route that stores its responses and coalesces the requests for them. -/
def coalescedRoute : RoutePolicy where
  routeId := some (lit "r")
  matchPrefix := some (lit "/r")
  mutation := .full
  cache := { behavior := .store, ttlSeconds := 60, enabled := true, l1 := { enabled := true } }
  coalescing := { enabled := true }

def leaderRegistry : InFlightRegistry :=
  (Calls.run (registryStep fun _ => 0) registryInit [.register (lit "k") 0 1 1]).1

/-- The context of the leader, for a response with a status. -/
def leaderContext (responseStatusCode : UInt16) : CacheContext where
  cacheKey := some (lit "k")
  responseStatusCode := responseStatusCode
  coalescingDecision :=
    { action := .leader, reason := .leaderCreated, key := lit "k", lifecycleGeneration := 1 }

def noStores : StoreEnvironment where
  hasL2Cache := false
  asyncStoreMaxBodySize := none
  accepts := false
  nowMs := 5

instance (hash : Text → UInt64) (registry : InFlightRegistry) (key : Text)
    (generation : UInt64) : Decidable (InFlightFor hash registry key generation) :=
  inferInstanceAs (Decidable (∃ _, _))

theorem leader_settles_iff_ok :
    ¬InFlightFor (fun _ => 0)
      (leaderExchange (fun _ => 0) leaderRegistry coalescedRoute
        (exchangeState (fun _ => some coalescedRoute) (some (lit "/r")) (some (lit "200")) none)
        (leaderContext 200) noStores none true true (lit "[]")) (lit "k") 1 := by
  refine (leader_settles_iff (fun _ => 0) leaderRegistry coalescedRoute _ (leaderContext 200) noStores
    none true true (lit "[]") (keyed_run (by decide +kernel)) rfl rfl (by decide +kernel)).mpr
    ⟨rfl, .unchanged, by decide +kernel, fun _ hlen => ?_⟩
  exact absurd hlen (by decide +kernel)

/-- The response of the leader has the status `500`: it is not let through by the filter, and the entry
    stays in flight. -/
theorem failed_leader_stays_in_flight :
    InFlightFor (fun _ => 0)
      (leaderExchange (fun _ => 0) leaderRegistry coalescedRoute
        (exchangeState (fun _ => some coalescedRoute) (some (lit "/r")) (some (lit "500")) none)
        (leaderContext 500) noStores none true true (lit "[]")) (lit "k") 1 := by
  decide +kernel

end ByteTaper.ExtProc
