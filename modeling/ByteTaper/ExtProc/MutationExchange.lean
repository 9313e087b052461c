import ByteTaper.ExtProc.DefaultPipelines
import ByteTaper.Stages.MutationInvalidation
import Mathlib.Data.List.Nodup

/-! # Where a mutation is applied

The plan of a mutation is made by the lookup pipeline and applied by the response stages. The response
stages with the apply stage in them are only run for a route that has compiled stages and is not
compression-only, so that the plan of any other route is never applied. -/

namespace ByteTaper.ExtProc

open Apg Policy ByteTaper.Runtime Stages List

/-! ## An exchange -/

/-- The context of an exchange on the route at a position of the snapshot. `rest` is the part of it
    that the stages for mutations do not use. -/
structure MutationContext (ρ : Type) where
  routes : List RoutePolicy
  position : Nat
  policy : RoutePolicy
  matched : routes[position]? = some policy
  requestMethod : HttpMethod
  responseStatusCode : UInt16 := 0
  plan : PendingMutationInvalidationPlan := {}
  epochStore : Option RouteCacheEpochStore
  rest : ρ

/-- The parts of the server that are not about mutations. They see the whole context and change the
    rest of it. -/
structure Server (ρ : Type) where
  stage : ApgStage → MutationContext ρ → ρ × StageOutput
  onResponseHeaders : MutationContext ρ → ρ
  onResponseBody : Text → MutationContext ρ → ρ
  decisionFinal : ρ → Bool

structure BodyMessage where
  body : Text
  endOfStream : Bool

open MutationContext

section Server

variable {ρ : Type} (server : Server ρ) (state : StreamFilterState) (responseStatusCode : UInt16)
  (context : MutationContext ρ)

def runStage : ApgStage → MutationContext ρ → MutationContext ρ × StageOutput
  | .mutationInvalidationPrepare, context =>
    let (plan, output) := mutationInvalidationPrepareStage (some context.routes)
      (some context.policy) context.requestMethod
    ({ context with plan }, output)
  | .mutationInvalidationApply, context =>
    let (plan, epochStore, output) := mutationInvalidationApplyStage context.plan
      context.responseStatusCode context.epochStore
    ({ context with plan, epochStore }, output)
  | stage, context =>
    let (rest, output) := server.stage stage context
    ({ context with rest }, output)

def MutationContext.routeRuntime : Option CompiledRouteRuntime :=
  findCompiledRouteRuntime (compileRouteRuntimeTable context.routes) context.position

/-- One of the pipelines of the route, or the default one if the route is not compiled. -/
def runRoutePipeline (stages : CompiledRouteRuntime → List ApgStage) (default : List ApgStage)
    (context : MutationContext ρ) : MutationContext ρ :=
  (runPipeline (runStage server) ((context.routeRuntime.map stages).getD default) context).1

def runResponseStages : MutationContext ρ :=
  runRoutePipeline server (·.responseStages) kCompressionStages context

/-- The request headers; the context is a new one. -/
def onRequestHeadersPhase : MutationContext ρ :=
  runRoutePipeline server (·.lookupStages) kLookupStages { context with plan := {} }

def onResponseHeadersPhase : MutationContext ρ :=
  let context := { context with responseStatusCode }
  let context :=
    if isCompressionOnlyRoute context.policy state then context
    else runResponseStages server context
  { context with rest := server.onResponseHeaders context }

/-- The body goes to the store pipeline if it is let through by the filter on a route that stores. -/
def storeBody (message : BodyMessage) : MutationContext ρ :=
  let context := { context with rest := server.onResponseBody message.body context }
  if context.policy.cache.behavior = .store ∧
      (buildFilteredBodyResponse state message.endOfStream message.body).isOk = true then
    runRoutePipeline server (·.storeStages) kStoreStages context
  else context

def onResponseBodyPhase (message : BodyMessage) : MutationContext ρ :=
  if isCompressionOnlyRoute context.policy state then
    { context with rest := server.onResponseBody message.body context }
  else if !routeNeedsResponseBodyProcessing context.policy state
      (server.decisionFinal context.rest) then context
  else
    let context := storeBody server state context message
    if server.decisionFinal context.rest then context else runResponseStages server context

/-- The response to a request whose headers were seen: its headers, and then the messages of its
    body. -/
def onResponse (state : StreamFilterState) (responseStatusCode : UInt16)
    (messages : List BodyMessage) (context : MutationContext ρ) : MutationContext ρ :=
  messages.foldl (onResponseBodyPhase server state)
    (onResponseHeadersPhase server state responseStatusCode context)

/-! ## The stages that are not about mutations -/

/-- The contexts differ in the rest only. -/
def SameMutation (context' : MutationContext ρ) : Prop :=
  context' = { context with rest := context'.rest }

variable {server state responseStatusCode context} {context' : MutationContext ρ}
  {stages : List ApgStage} {messages : List BodyMessage}

theorem SameMutation.rfl : SameMutation context context := by
  rfl

theorem SameMutation.trans {context''} (h : SameMutation context context')
    (h' : SameMutation context' context'') : SameMutation context context'' := by
  unfold SameMutation at h h' ⊢
  rw [h', h]

theorem SameMutation.withRest (h : SameMutation context context') (rest : ρ) :
    SameMutation context { context' with rest } := by
  unfold SameMutation at h ⊢
  rw [h]

def ApgStage.isMutationStage : ApgStage → Bool
  | .mutationInvalidationPrepare | .mutationInvalidationApply => true
  | _ => false

theorem runStage_sameMutation {stage : ApgStage} (hstage : stage.isMutationStage = false)
    (context : MutationContext ρ) : SameMutation context (runStage server stage context).1 := by
  cases stage with
  | mutationInvalidationPrepare | mutationInvalidationApply => cases hstage
  | _ => rfl

theorem runPipeline_sameMutation (hstages : ∀ stage ∈ stages, stage.isMutationStage = false)
    (context : MutationContext ρ) :
    SameMutation context (runPipeline (runStage server) stages context).1 :=
  runPipeline_invariant (P := SameMutation context)
    (fun stage hmem _ h => h.trans (runStage_sameMutation (hstages stage hmem) _)) .rfl

/-! ## Where the stages are -/

variable (context)

/-- Only the first routes are found. -/
theorem MutationContext.routeRuntime_eq : context.routeRuntime =
      if context.position < kMaxCompiledRoutesCapacity then
        some (compileRouteRuntime context.policy)
      else none := by
  simp only [routeRuntime, findCompiledRouteRuntime, compileRouteRuntimeTable, getElem?_map,
    getElem?_take]
  split <;> simp [context.matched]

theorem storeStages_not_mutation :
    ∀ stage ∈ (context.routeRuntime.map (·.storeStages)).getD kStoreStages,
      stage.isMutationStage = false := by
  have hdef : ∀ stage ∈ kStoreStages, stage.isMutationStage = false := by decide
  rw [context.routeRuntime_eq]
  split
  · intro stage hstage
    exact hdef stage ((storeStages_sublist context.policy).subset hstage)
  · exact hdef

theorem lookupStages_not_apply :
    ∀ stage ∈ (context.routeRuntime.map (·.lookupStages)).getD kLookupStages,
      stage ≠ .mutationInvalidationApply := by
  have hdef : ∀ stage ∈ kLookupStages, stage ≠ .mutationInvalidationApply := by decide
  rw [context.routeRuntime_eq]
  split
  · intro stage hstage
    exact hdef stage ((lookupStages_sublist context.policy).subset hstage)
  · exact hdef

/-- The plan that the request leaves is one that the prepare stage made, and nothing else of the
    mutation has changed. -/
theorem onRequestHeadersPhase_fresh (request : MutationContext ρ) :
    (onRequestHeadersPhase server request).plan.Fresh request.policy ∧
      SameMutation { request with plan := (onRequestHeadersPhase server request).plan }
        (onRequestHeadersPhase server request) := by
  refine runPipeline_invariant (P := fun context => context.plan.Fresh request.policy ∧
    SameMutation { request with plan := context.plan } context) ?_ ?_
  case refine_2 => exact ⟨⟨rfl, nofun, Nat.zero_le _⟩, rfl⟩
  intro stage hstage context ⟨hfresh, hsame⟩
  by_cases hmut : stage.isMutationStage
  · cases stage with
    | mutationInvalidationPrepare =>
      rw [hsame]
      exact ⟨mutationInvalidationPrepareStage_fresh _ _ _, rfl⟩
    | mutationInvalidationApply => exact absurd rfl (lookupStages_not_apply _ _ hstage)
    | _ => cases hmut
  · have hrun : SameMutation context (runStage server stage context).1 :=
      runStage_sameMutation (by simpa using hmut) context
    rw [hrun]
    exact ⟨hfresh, hsame.withRest _⟩

/-! ## The response stages -/

/-- The response stages of the exchange have the apply stage. -/
def MutationContext.HasApplyStage : Prop :=
  context.position < kMaxCompiledRoutesCapacity ∧
    context.policy.cache.invalidation.enabled = true

instance : Decidable context.HasApplyStage :=
  inferInstanceAs (Decidable (_ ∧ _))

variable {context}

theorem runResponseStages_of_apply (h : context.HasApplyStage) :
    SameMutation (runStage server .mutationInvalidationApply context).1
      (runResponseStages server context) := by
  have hstages : (context.routeRuntime.map (·.responseStages)).getD kCompressionStages =
      [.mutationInvalidationApply, .compressionDecision] := by
    rw [context.routeRuntime_eq, if_pos h.1]
    simp [compileRouteRuntime, stagesIf, h.2]
  have hcont : (runStage server .mutationInvalidationApply context).2.result = .continue :=
    mutationInvalidationApplyStage_continue _ _ _
  unfold runResponseStages runRoutePipeline
  rw [hstages, runPipeline]
  · dsimp only
    rw [if_pos hcont]
    exact runPipeline_sameMutation (by decide) _
  · exact cons_ne_nil _ _

theorem runResponseStages_of_not_apply (h : ¬context.HasApplyStage) :
    SameMutation context (runResponseStages server context) := by
  refine runPipeline_sameMutation ?_ context
  rw [context.routeRuntime_eq]
  split
  · rename_i hpos
    have hoff : context.policy.cache.invalidation.enabled = false := by
      simpa using fun hon => h ⟨hpos, hon⟩
    simp [compileRouteRuntime, stagesIf, hoff, ApgStage.isMutationStage]
  · decide

/-- A plan that is final is not touched by the response stages. -/
theorem runResponseStages_final (h : ¬context.HasApplyStage ∨ context.plan.isFinal) :
    SameMutation context (runResponseStages server context) := by
  by_cases happly : context.HasApplyStage
  · have hfinal := h.resolve_left (not_not.mpr happly)
    have hrun : (runStage server .mutationInvalidationApply context).1 = context := by
      simp only [runStage, mutationInvalidationApplyStage, hfinal, if_true]
      split <;> rfl
    have hsame : SameMutation (runStage server .mutationInvalidationApply context).1
      (runResponseStages server context) := runResponseStages_of_apply happly
    rwa [hrun] at hsame
  · exact runResponseStages_of_not_apply happly

/-! ## The whole exchange -/

/-- Nothing is left to do for the mutation on the way through the messages of the body. -/
def Settled (state : StreamFilterState) (context : MutationContext ρ) : Prop :=
  isCompressionOnlyRoute context.policy state = true ∨ ¬context.HasApplyStage ∨
    context.plan.isFinal = true

theorem Settled.of_same {after} (h : Settled state context)
    (hsame : SameMutation context after) : Settled state after := by
  rw [hsame]
  exact h

theorem onResponseBodyPhase_settled (h : Settled state context) (message : BodyMessage) :
    SameMutation context (onResponseBodyPhase server state context message) := by
  have hsame : SameMutation context (storeBody server state context message) := by
    unfold storeBody
    dsimp only
    split
    · exact (SameMutation.rfl.withRest _).trans
        (runPipeline_sameMutation (storeStages_not_mutation _) _)
    · exact SameMutation.rfl.withRest _
  have hset := h.of_same hsame
  unfold onResponseBodyPhase
  dsimp only
  split
  · exact SameMutation.rfl.withRest _
  rename_i hcomp
  split
  · exact .rfl
  · split
    · exact hsame
    · refine hsame.trans (runResponseStages_final (hset.resolve_left ?_))
      rw [hsame]
      exact hcomp

theorem messages_settled (h : Settled state context) (messages : List BodyMessage) :
    SameMutation context (messages.foldl (onResponseBodyPhase server state) context) := by
  induction messages generalizing context with
  | nil => exact .rfl
  | cons message _ ih =>
    have hsame : SameMutation context (onResponseBodyPhase server state context message) :=
      onResponseBodyPhase_settled h message
    exact hsame.trans (ih (h.of_same hsame))

variable (state responseStatusCode context)

/-- The mutations of the exchange are applied. -/
def AppliesMutations : Prop :=
  context.position < kMaxCompiledRoutesCapacity ∧
    isCompressionOnlyRoute context.policy state = false

instance : Decidable (AppliesMutations state context) := inferInstanceAs (Decidable (_ ∧ _))

/-- The epochs after the headers of a response, for a plan that was just prepared. -/
def epochsAfter : Option RouteCacheEpochStore :=
  if AppliesMutations state context ∧ context.plan.accepts responseStatusCode = true then
    context.epochStore.map fun store => (bumpAll store context.plan.targets).1
  else context.epochStore

section

variable {state responseStatusCode context} (hprepared : context.plan.prepared = true)
  (hfresh : context.plan.Fresh context.policy)

include hprepared hfresh

theorem onResponseHeadersPhase_settled :
    ∃ after, SameMutation after (onResponseHeadersPhase server state responseStatusCode context) ∧
      Settled state after ∧ after.epochStore = epochsAfter state responseStatusCode context := by
  unfold onResponseHeadersPhase epochsAfter
  dsimp only
  by_cases hcomp : isCompressionOnlyRoute context.policy state
  · refine ⟨{ context with responseStatusCode }, ?_, .inl hcomp, ?_⟩
    · rw [if_pos hcomp]
      exact SameMutation.rfl.withRest _
    · rw [if_neg fun h => by simp [h.1.2] at hcomp]
  by_cases hpos : context.position < kMaxCompiledRoutesCapacity
  · -- the apply stage runs once and makes the plan final
    have happly : ({ context with responseStatusCode } : MutationContext ρ).HasApplyStage :=
      ⟨hpos, hfresh.enabled hprepared⟩
    obtain ⟨hfinal, hstore⟩ := mutationInvalidationApplyStage_prepared
      responseStatusCode context.epochStore hprepared hfresh.notFinal
    refine ⟨(runStage server .mutationInvalidationApply { context with responseStatusCode }).1, ?_,
      .inr (.inr hfinal), ?_⟩
    · rw [if_neg hcomp]
      exact (runResponseStages_of_apply happly).withRest _
    · have happ : AppliesMutations state context := ⟨hpos, by simpa using hcomp⟩
      simp only [happ, true_and]
      exact hstore
  · have happly : ¬({ context with responseStatusCode } : MutationContext ρ).HasApplyStage :=
      fun h => hpos h.1
    refine ⟨{ context with responseStatusCode }, ?_, .inr (.inl happly), ?_⟩
    · rw [if_neg hcomp]
      exact (runResponseStages_of_not_apply happly).withRest _
    · rw [if_neg fun h => hpos h.1.1]

/-- The epochs after a response. -/
theorem onResponse_epochStore :
    (onResponse server state responseStatusCode messages context).epochStore =
      epochsAfter state responseStatusCode context := by
  obtain ⟨after, hhdrs, hset, hstore⟩ : ∃ after, SameMutation after
      (onResponseHeadersPhase server state responseStatusCode context) ∧ Settled state after ∧
      after.epochStore = epochsAfter state responseStatusCode context :=
    onResponseHeadersPhase_settled hprepared hfresh
  unfold onResponse
  rw [messages_settled (hset.of_same hhdrs) messages, ← hstore]
  rw [hhdrs]

end

/-! ## Reaching the targets -/

def MutationContext.epoch (routeId : Text) : Option UInt64 :=
  context.epochStore.bind (routeCacheEpochGet · routeId)

def MutationContext.registered (routeId : Text) : Bool :=
  (context.epoch routeId).isSome

/-- The targets in front of the first one that is not registered. -/
def MutationContext.reached : List Text :=
  context.plan.targets.takeWhile context.registered

/-- No target is registered, or the mutation is applied and the registered targets are, each once, in
    front of all that are not. -/
def ReachesTargets : Prop :=
  (∀ target ∈ context.plan.targets, context.registered target = false) ∨
    AppliesMutations state context ∧ context.reached.Nodup ∧
      ∀ target ∈ context.plan.targets, context.registered target = true →
        target ∈ context.reached

section

variable {state responseStatusCode context} (hfresh : context.plan.Fresh context.policy)
  (routeId : Text)

include hfresh

/-- A response that is a success adds to each epoch the number of times that its route is reached. -/
theorem onResponse_epoch (hprepared : context.plan.prepared)
    (hacc : context.plan.accepts responseStatusCode) :
    (onResponse server state responseStatusCode messages context).epoch routeId =
      if AppliesMutations state context then
        (context.epoch routeId).map (· + UInt64.ofNat (context.reached.count routeId))
      else context.epoch routeId := by
  unfold epoch
  rw [onResponse_epochStore hprepared hfresh]
  unfold epochsAfter
  simp only [hacc, and_true]
  split
  · unfold reached registered epoch
    cases hstore : context.epochStore with
    | none => rfl
    | some store => exact routeCacheEpochGet_bumpAll store context.plan.targets routeId
  · rfl

theorem reached_count_lt : context.reached.count routeId < 2 ^ 64 := by
  have hcnt : context.reached.count routeId ≤ context.reached.length := count_le_length
  have hlen : context.reached.length ≤ context.plan.targets.length :=
    (takeWhile_sublist _).length_le
  have hbd := hfresh.bounded
  unfold kMaxResolvedInvalidationTargets at hbd
  omega

/-- The epoch has grown by one just if the route is reached once. -/
theorem epoch_add_count_iff (epoch : UInt64) :
    epoch + UInt64.ofNat (context.reached.count routeId) = epoch + 1 ↔
      context.reached.count routeId = 1 := by
  rw [UInt64.add_right_inj]
  constructor
  · intro h
    have hnat := congrArg UInt64.toNat h
    rwa [UInt64.toNat_ofNat_of_lt' (reached_count_lt hfresh routeId)] at hnat
  · intro h
    rw [h]
    rfl

end

theorem reachesTargets_iff_count :
    ReachesTargets state context ↔ ∀ target ∈ context.plan.targets, context.registered target →
        AppliesMutations state context ∧ context.reached.count target = 1 := by
  constructor
  · rintro (hnone | ⟨happ, hnodup, hreached⟩) target hmem hregistered
    · rw [hnone target hmem] at hregistered
      cases hregistered
    · exact ⟨happ, count_eq_one_of_mem hnodup (hreached target hmem hregistered)⟩
  · intro h
    by_cases hnone : ∀ target ∈ context.plan.targets, context.registered target = false
    · exact .inl hnone
    push Not at hnone
    obtain ⟨target, hmem, hregistered⟩ := hnone
    refine .inr ⟨(h target hmem (by simpa using hregistered)).1, ?_, ?_⟩
    · refine nodup_iff_count_le_one.mpr fun routeId => ?_
      by_cases hroute : routeId ∈ context.reached
      · have hin := (takeWhile_sublist _).subset hroute
        have hreg : context.registered routeId := mem_takeWhile_imp hroute
        exact (h routeId hin hreg).2.le
      · rw [count_eq_zero_of_not_mem hroute]
        omega
    · intro target' hmem' hreg'
      exact count_pos_iff.mp (by rw [(h target' hmem' hreg').2]; omega)

end Server

/-- After a success every registered target of the plan has been bumped once just if `ReachesTargets`,
    and after any other response no epoch has changed. -/
theorem mutation_reaches_targets_iff {ρ : Type} (server : Server ρ) (state : StreamFilterState)
    (request : MutationContext ρ) (responseStatusCode : UInt16) (messages : List BodyMessage)
    (hprepared : (onRequestHeadersPhase server request).plan.prepared = true) :
    ((onRequestHeadersPhase server request).plan.accepts responseStatusCode = true →
      ((∀ target ∈ (onRequestHeadersPhase server request).plan.targets, ∀ epoch,
          (onRequestHeadersPhase server request).epoch target = some epoch →
            (onResponse server state responseStatusCode messages
              (onRequestHeadersPhase server request)).epoch target = some (epoch + 1)) ↔
        ReachesTargets state (onRequestHeadersPhase server request))) ∧
    ((onRequestHeadersPhase server request).plan.accepts responseStatusCode = false →
      (onResponse server state responseStatusCode messages
        (onRequestHeadersPhase server request)).epochStore = request.epochStore) := by
  obtain ⟨hfresh, hsame⟩ : (onRequestHeadersPhase server request).plan.Fresh request.policy ∧
      SameMutation { request with plan := (onRequestHeadersPhase server request).plan }
        (onRequestHeadersPhase server request) := onRequestHeadersPhase_fresh request
  have hpol : (onRequestHeadersPhase server request).policy = request.policy := by rw [hsame]
  have hstore : (onRequestHeadersPhase server request).epochStore = request.epochStore := by
    rw [hsame]
  generalize onRequestHeadersPhase server request = planned at *
  rw [← hpol] at hfresh
  refine ⟨fun hacc => ?_, fun hacc => ?_⟩
  · rw [reachesTargets_iff_count]
    refine forall₂_congr fun target hmem => ?_
    unfold registered
    rw [onResponse_epoch hfresh target hprepared hacc]
    cases hepoch : planned.epoch target with
    | none => simp
    | some =>
      by_cases happlies : AppliesMutations state planned
      · simp [happlies, epoch_add_count_iff hfresh]
      · simp [happlies]
  · rw [onResponse_epochStore hprepared hfresh, epochsAfter, if_neg (by simp [hacc]), hstore]

/-! ## A route that only compresses -/

/-- A route that changes an item, with the list of items as its target. -/
def updateRoute (compresses : Bool) : RoutePolicy where
  routeId := some (lit "update")
  matchPrefix := some (lit "/items")
  mutation := .full
  allowedMethod := .put
  cache.invalidation := { enabled := true, onPut := true, targets := [{ routeId := lit "list" }] }
  compression :=
    { enabled := compresses, minSizeBytes := 1, eligibleContentTypes := [lit "application/json"]
      preferredAlgorithms := [.gzip] }

def listRoute : RoutePolicy where
  routeId := some (lit "list")
  matchPrefix := some (lit "/list")
  mutation := .full
  allowedMethod := .get
  cache := { behavior := .store, ttlSeconds := 60, enabled := true, l1 := { enabled := true } }

def updateRequest (compresses : Bool) : MutationContext Unit where
  routes := [updateRoute compresses, listRoute]
  position := 0
  policy := updateRoute compresses
  matched := rfl
  requestMethod := .put
  epochStore := some [{ routeId := lit "list", epoch := 7 }]
  rest := ()

/-- A server whose other stages do nothing. -/
def quietServer : Server Unit where
  stage _ _ := ((), .goOn "")
  onResponseHeaders _ := ()
  onResponseBody _ _ := ()
  decisionFinal _ := false

theorem mutation_reaches_targets_iff_update :
    (onResponse quietServer {} 200 [] (onRequestHeadersPhase quietServer
      (updateRequest false))).epoch (lit "list") = some 8 := by
  refine ((mutation_reaches_targets_iff quietServer {} (updateRequest false) 200 []
    (by decide +kernel)).1 (by decide +kernel)).mpr ?_ (lit "list") (by decide +kernel) 7
    (by decide +kernel)
  exact .inr ⟨by decide +kernel, by decide +kernel, by decide +kernel⟩

/-- The route is valid and its plan is prepared for the list, but the response stages are not run for a
    route that only compresses: the epoch of the list is not bumped. -/
theorem compression_only_route_skips_mutation :
    (validateRoutePolicy (updateRoute true)).isNone = true ∧
    (onRequestHeadersPhase quietServer (updateRequest true)).plan.prepared = true ∧
      (onRequestHeadersPhase quietServer (updateRequest true)).plan.targets = [lit "list"] ∧
      (onRequestHeadersPhase quietServer (updateRequest true)).plan.accepts 200 = true ∧
      (onRequestHeadersPhase quietServer (updateRequest true)).epoch (lit "list") = some 7 ∧
      (onResponse quietServer {} 200 [{ body := lit "[]", endOfStream := true }]
        (onRequestHeadersPhase quietServer (updateRequest true))).epoch (lit "list") = some 7 := by
  decide +kernel

end ByteTaper.ExtProc
