import ByteTaper.Apg.Pipeline
import ByteTaper.Coalescing.RegistrySteps
import ByteTaper.Library.Transition
import ByteTaper.Policy.RoutePolicy

/-! # The requests of a coalesced key

`coalescing_decision.cpp` and `coalescing_follower_wait_stage.cpp`: a request is registered, and if it
follows it goes through the wait stage, which takes it out of the registry again. A follower is a small
program of its own here, with a step for each access to the registry, so that the steps of all requests
can be interleaved in any way. What the stage finds in the caches is given with the step, and its
metrics are left out. -/

namespace ByteTaper.Coalescing

open Apg Policy
open Transition (System)

/-! ## The decision -/

inductive CoalescingAction where
  | leader | follower | bypass | reject
deriving DecidableEq

inductive CoalescingDecisionReason where
  | policyDisabled | methodNotGet | authenticatedRequest | missingKey | leaderCreated
  | followerJoined | tooManyWaiters | waitWindowExpired
deriving DecidableEq

structure CoalescingDecision where
  action : CoalescingAction
  reason : CoalescingDecisionReason
  key : Text := []
  lifecycleGeneration : UInt64 := 0
deriving DecidableEq

/-- The part of a request that the decision looks at. -/
structure CoalescingRequest where
  policy : RoutePolicy
  method : HttpMethod := .get
  rawPath : Text
  rawQuery : Text := []
  nowMs : UInt64

structure CoalescingSafetyInput where
  allowAuthenticated : Bool
  hasAuthorizationHeader : Bool
  hasCookieHeader : Bool

def evaluateCoalescingSafety (input : CoalescingSafetyInput) : Bool :=
  input.allowAuthenticated || !(input.hasAuthorizationHeader || input.hasCookieHeader)

/-- What the decision stage passes. It does not fill in the two headers. -/
def CoalescingRequest.safetyInput (request : CoalescingRequest) : CoalescingSafetyInput where
  allowAuthenticated := request.policy.coalescing.allowAuthenticated
  hasAuthorizationHeader := false
  hasCookieHeader := false

/-- `build_coalescing_key` for what the decision stage passes: no selected fields and the version `0`.
    A key that does not fit its buffer is refused. -/
def buildCoalescingKey (request : CoalescingRequest) : Option Text :=
  match request.policy.routeId with
  | none => none
  | some routeName =>
    let key := lit "c_key:" ++ routeName ++ lit ":0:" ++ request.rawPath ++ lit "?" ++
      request.rawQuery ++ lit "&fields="
    if key.length < kInFlightKeySize then some key else none

def decisionOf (key : Text) (result : RegistryRegistrationResult) : CoalescingDecision :=
  let (action, reason) := match result.role with
    | .leader => (CoalescingAction.leader, CoalescingDecisionReason.leaderCreated)
    | .follower => (.follower, .followerJoined)
    | .reject => (.reject, .tooManyWaiters)
  { action, reason, key, lifecycleGeneration := result.lifecycleGeneration }

def evaluateCoalescingDecision (hash : Text → UInt64) (registry : InFlightRegistry)
    (request : CoalescingRequest) : InFlightRegistry × CoalescingDecision :=
  let policy := request.policy.coalescing
  if !policy.enabled then (registry, { action := .bypass, reason := .policyDisabled })
  else if request.method ≠ .get then (registry, { action := .bypass, reason := .methodNotGet })
  else if !evaluateCoalescingSafety request.safetyInput then
    (registry, { action := .bypass, reason := .authenticatedRequest })
  else
    match buildCoalescingKey request with
    | none => (registry, { action := .bypass, reason := .missingKey })
    | some key =>
      let (registry, result) := registryRegister hash registry key request.nowMs
        policy.backendTimeoutMs policy.maxWaitersPerKey
      (registry, decisionOf key result)

/-! ## The wait stage -/

inductive L2Probe where
  | hit (isVariant : Bool)
  | bodyTooLargeForBuffer
  | miss

/-- What the lookups of one step of the stage find: in the L1 cache at first and once more, and in the
    L2 cache. -/
structure LookupOutcomes where
  l1 : Bool := false
  l1Again : Bool := false
  l2 : L2Probe := .miss

def l1HitOutput : StageOutput := { result := .skipRemaining, note := lit "l1-hit" }

def L2Probe.hitOutput : L2Probe → Option StageOutput
  | .hit isVariant =>
    some { result := .skipRemaining
           note := if isVariant then lit "l2-variant-hit" else lit "l2-hit" }
  | _ => none

/-- How a follower leaves the stage: the calls of `registry_remove_waiter` that it makes, whether its
    action becomes `Bypass`, and what the stage returns. -/
structure StageExit where
  removes : Nat
  bypass : Bool
  output : StageOutput

/-- Out of the registry, with what is returned. -/
def exitWith (output : StageOutput) : StageExit := { removes := 1, bypass := false, output }

/-- Out of the registry and on without coalescing; `handle_timeout_fallback` does the same. -/
def fallback (note : String) : StageExit :=
  { removes := 1, bypass := true, output := .goOn note }

/-- The branches in front of the wait that look at the policy only. -/
def stageEntry (policy : RoutePolicy) : Option StageExit :=
  let coalescing := policy.coalescing
  if coalescing.requireCacheEnabled && policy.cache.behavior ≠ .store then
    some (fallback "cache-disabled-bypassed")
  else if 0 < coalescing.maxFollowerWaitBudgetMs &&
      coalescing.maxFollowerWaitBudgetMs < coalescing.backendTimeoutMs + coalescing.handoffBufferMs then
    some (fallback "guardrail-budget-exceeded")
  else none

/-- The last resort of a follower that has timed out. -/
def finalCacheProbe (lookups : LookupOutcomes) : Option StageExit :=
  if lookups.l1Again then some (exitWith l1HitOutput) else lookups.l2.hitOutput.map exitWith

/-- Look into the L1 cache once more, or go on without coalescing. -/
def l1OrFallback (lookups : LookupOutcomes) (note : String) : StageExit :=
  if lookups.l1Again then exitWith l1HitOutput else fallback note

/-- The branches behind the wait. After `TooLargeForHandoff` the follower is taken out of the registry,
    and once more by the fallback. -/
def stageLeave (result : RegistryWaitResult) (lookups : LookupOutcomes) : StageExit :=
  match result with
  | .sharedResponseReady =>
    exitWith { result := .skipRemaining, note := lit "coalesced-shared-response" }
  | .l1Ready =>
    if lookups.l1 then exitWith l1HitOutput else fallback "l1-ready-but-miss-fallback"
  | .l2Ready => (lookups.l2.hitOutput.map exitWith).getD (fallback "l2-ready-but-miss-fallback")
  | _ =>
    if lookups.l1 then exitWith l1HitOutput
    else
      match result with
      | .timeout => (finalCacheProbe lookups).getD (fallback "timeout-fallback")
      | .tooLargeForHandoff => { fallback "too-large-for-handoff-fallback" with removes := 2 }
      | .missing => l1OrFallback lookups "missing-fallback"
      | .expired => l1OrFallback lookups "expired-fallback"
      | .notCacheable => fallback "not-cacheable-fallback"
      | .failed => fallback "leader-failed-fallback"
      | .storedButNoSnapshot => l1OrFallback lookups "stored-no-snapshot-fallback"
      | _ => fallback "unaccounted-fallback"

/-! ## Followers -/

inductive FollowerPc where
  | start | guardGlobal | guardShard | l1Before | enterWait | beginWait
  | blocked (j : Fin kSlotsPerShard)
  | exitWait (result : RegistryWaitResult)
  | woken (result : RegistryWaitResult)
  | leaving (exit : StageExit)
  | done (exit : StageExit)

/-- A request that was answered `Follower`. The number of calls of `registry_remove_waiter` it has made
    is not in the source. -/
structure Follower where
  policy : RoutePolicy
  key : Text
  generation : UInt64
  pc : FollowerPc := .start
  removeCalls : Nat := 0

section Hash

variable (hash : Text → UInt64)

/-- What a wait comes to, or the follower goes on waiting. -/
def waitOutcome (f : Follower) : WaitStart → Follower
  | .result result => { f with pc := .exitWait result }
  | .blocked j => { f with pc := .blocked j }

/-- The next step of a follower. One that waits for a slot has none before the slot has changed. -/
def followerStep (registry : InFlightRegistry) (f : Follower) (lookups : LookupOutcomes) :
    Option (InFlightRegistry × Follower) :=
  let coalescing := f.policy.coalescing
  match f.pc with
  | .start =>
    match stageEntry f.policy with
    | some exit => some (registry, { f with pc := .leaving exit })
    | none => some (registry, { f with pc := .guardGlobal })
  | .guardGlobal =>
    if 0 < coalescing.maxActiveFollowerWaiters &&
        coalescing.maxActiveFollowerWaiters ≤ registry.activeWaiters then
      some (registry, { f with pc := .leaving (fallback "guardrail-global-limit") })
    else some (registry, { f with pc := .guardShard })
  | .guardShard =>
    if 0 < coalescing.maxActiveFollowerWaitersPerShard &&
        coalescing.maxActiveFollowerWaitersPerShard ≤
          (registry.shards (shardOf hash f.key)).activeWaiters then
      some (registry, { f with pc := .leaving (fallback "guardrail-shard-limit") })
    else some (registry, { f with pc := .l1Before })
  | .l1Before =>
    if lookups.l1 then some (registry, { f with pc := .leaving (exitWith l1HitOutput) })
    else some (registry, { f with pc := .enterWait })
  | .enterWait =>
    some (registryEnterWait hash registry f.key, { f with pc := .beginWait })
  | .beginWait =>
    some (registry, waitOutcome f (waitStart hash registry f.key f.generation))
  | .blocked j =>
    (waitWake ((registry.shards (shardOf hash f.key)).slots j) f.generation).map
      fun result => (registry, { f with pc := .exitWait result })
  | .exitWait result =>
    some (registryExitWait hash registry f.key, { f with pc := .woken result })
  | .woken result => some (registry, { f with pc := .leaving (stageLeave result lookups) })
  | .leaving exit =>
    match exit.removes with
    | 0 => some (registry, { f with pc := .done exit })
    | removes + 1 =>
      some (registryRemoveWaiter hash registry f.key,
        { f with pc := .leaving { exit with removes }, removeCalls := f.removeCalls + 1 })
  | .done _ => none

/-- The time of a follower that waits is up. The condition is tested a last time then. -/
def followerTimeout (registry : InFlightRegistry) (f : Follower) : Option Follower :=
  match f.pc with
  | .blocked j =>
    match waitWake ((registry.shards (shardOf hash f.key)).slots j) f.generation with
    | none => some { f with pc := .exitWait .timeout }
    | some _ => none
  | _ => none

/-! ## All requests together -/

structure CoalescingState where
  registry : InFlightRegistry := registryInit
  followers : List Follower := []

inductive CoalescingStep where
  /-- The decision stage of a request. -/
  | request (request : CoalescingRequest)
  /-- A leader completes its entry. -/
  | complete (key : Text) (generation : UInt64) (state : InFlightCompletionState) (nowMs : UInt64)
  /-- The next step of a follower. -/
  | follow (i : Nat) (lookups : LookupOutcomes)
  | timeout (i : Nat)

def coalescingStep (s : CoalescingState) : CoalescingStep → Option CoalescingState
  | .request request =>
    let (registry, decision) := evaluateCoalescingDecision hash s.registry request
    if decision.action = .follower then
      some { registry
             followers := s.followers ++
               [{ policy := request.policy, key := decision.key
                  generation := decision.lifecycleGeneration }] }
    else some { s with registry }
  | .complete key generation state nowMs =>
    some { s with
      registry := (registryCompleteStateIfGeneration hash s.registry key generation state nowMs).1 }
  | .follow i lookups =>
    s.followers[i]?.bind fun f =>
      (followerStep hash s.registry f lookups).map fun (registry, f) =>
        { registry, followers := s.followers.set i f }
  | .timeout i =>
    s.followers[i]?.bind fun f =>
      (followerTimeout hash s.registry f).map fun f =>
        { s with followers := s.followers.set i f }

def coalescing : System CoalescingState CoalescingStep where
  init := {}
  step := coalescingStep hash

end Hash

/-- The requests that were answered `Follower` for a key and a generation and have not deregistered. -/
def registeredFollowers (followers : List Follower) (key : Text) (generation : UInt64) : Nat :=
  followers.countP fun f =>
    f.removeCalls == 0 && f.key == key && f.generation == generation

end ByteTaper.Coalescing
