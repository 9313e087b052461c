import ByteTaper.Coalescing.WaiterAccounting

/-! # What the registry hands over

`registry_complete_with_response` leaves a response in an entry, and a follower that waits for the entry
is answered with it. No stage calls it: leaders complete their entries with a state only. So a follower
is answered with what it finds in a cache, or not at all. -/

namespace ByteTaper.Coalescing

open List Option

/-- No entry has a response in it. -/
def NoSharedResponse (registry : InFlightRegistry) : Prop :=
  ∀ s j, (registry.table s j).sharedResponse.ready = false

/-- The follower has not got a response from the registry. -/
def Follower.NotHanded (f : Follower) : Prop :=
  match f.pc with
  | .exitWait result | .woken result => result ≠ .sharedResponseReady
  | .leaving exit | .done exit => exit.output.note ≠ lit "coalesced-shared-response"
  | _ => True

/-! ## The entries -/

variable {hash : Text → UInt64} {registry : InFlightRegistry}

theorem NoSharedResponse.setSlot (h : NoSharedResponse registry) (s : Fin kInFlightShards)
    (j : Fin kSlotsPerShard) {entry : InFlightEntry} (hent : entry.sharedResponse.ready = false) :
    NoSharedResponse (setSlot registry s j entry) := by
  intro s' j'
  rw [table_setSlot]
  rcases ShardedSlots.set_cases registry.table s j entry s' j' with ⟨-, -, hset⟩ | ⟨-, hset⟩
  · rw [hset]
    exact hent
  · rw [hset]
    exact h s' j'

section

variable (h : NoSharedResponse registry) (key : Text)

include h

theorem NoSharedResponse.updateEntry {update}
    (hupdate : ∀ entry entry', update entry = some entry' →
      entry'.sharedResponse = entry.sharedResponse) :
    NoSharedResponse (updateEntry hash registry key update).1 := by
  unfold Coalescing.updateEntry
  dsimp only
  split
  · exact h
  rename_i j hfound
  split
  · exact h
  next entry hent =>
    refine h.setSlot _ j ?_
    rw [hupdate _ _ hent]
    exact h _ j

/-- A new leader clears the entry. -/
theorem NoSharedResponse.register (nowMs : UInt64) (waitWindowMs maxWaitersPerKey : UInt32) :
    NoSharedResponse
      (registryRegister hash registry key nowMs waitWindowMs maxWaitersPerKey).1 := by
  have hexist : ∀ entry : InFlightEntry, entry.sharedResponse.ready = false →
      (registerExisting entry key nowMs waitWindowMs maxWaitersPerKey).1.sharedResponse.ready =
        false := by
    intro entry hent
    have hjoin : (joinEntry entry maxWaitersPerKey).1.sharedResponse.ready = false := by
      unfold joinEntry
      split <;> exact hent
    unfold registerExisting
    split
    · split
      · rfl
      · exact hjoin
    · split
      · rfl
      · exact hjoin
    all_goals first
      | rfl
      | split
        · rfl
        · exact hjoin
  unfold registryRegister
  split
  next j _ => exact h.setSlot _ j (hexist _ (h _ j))
  · split
    next j _ => exact h.setSlot _ j rfl
    · exact h

theorem NoSharedResponse.complete (generation : UInt64) (state : InFlightCompletionState)
    (nowMs : UInt64) :
    NoSharedResponse
      (registryCompleteStateIfGeneration hash registry key generation state nowMs).1 := by
  refine h.updateEntry key fun entry entry' hent => ?_
  split at hent
  · cases hent
  · cases hent
    rfl

theorem NoSharedResponse.removeWaiter :
    NoSharedResponse (registryRemoveWaiter hash registry key) := by
  refine h.updateEntry key fun entry entry' hent => ?_
  split at hent
  · cases hent
    rfl
  · cases hent

end

/-! ## The wait -/

variable {result : RegistryWaitResult}

theorem terminalResult_not_handed {entry : InFlightEntry} (h : entry.sharedResponse.ready = false)
    (hres : terminalResult entry = some result) : result ≠ .sharedResponseReady := by
  unfold terminalResult at hres
  rw [h] at hres
  split at hres
  all_goals
    cases hres
    try exact RegistryWaitResult.noConfusion

theorem l1HitOutput_note : l1HitOutput.note ≠ lit "coalesced-shared-response" := by
  decide +kernel

/-- Only the response of the registry is answered under its name. -/
theorem stageLeave_note (h : result ≠ .sharedResponseReady) (lookups : LookupOutcomes) :
    (stageLeave result lookups).output.note ≠ lit "coalesced-shared-response" := by
  have hl2 : ∀ exit, exit.output.note ≠ lit "coalesced-shared-response" →
      ((lookups.l2.hitOutput.map exitWith).getD exit).output.note ≠
        lit "coalesced-shared-response" := by
    intro exit hexit
    cases lookups.l2 with
    | hit isVariant =>
      cases isVariant with
      | false => exact show lit "l2-hit" ≠ lit "coalesced-shared-response" by decide +kernel
      | true =>
        exact show lit "l2-variant-hit" ≠ lit "coalesced-shared-response" by decide +kernel
    | bodyTooLargeForBuffer | miss => exact hexit
  have hl1 : ∀ note, (fallback note).output.note ≠ lit "coalesced-shared-response" →
      (l1OrFallback lookups note).output.note ≠ lit "coalesced-shared-response" := by
    intro note hnote
    unfold l1OrFallback
    split
    · exact l1HitOutput_note
    · exact hnote
  unfold stageLeave
  cases result <;> dsimp only
  case sharedResponseReady => exact absurd rfl h
  case l2Ready => exact hl2 _ (by decide +kernel)
  all_goals
    split
    · exact l1HitOutput_note
  case timeout =>
    unfold finalCacheProbe
    split
    · exact l1HitOutput_note
    · exact hl2 _ (by decide +kernel)
  case missing | expired | storedButNoSnapshot => exact hl1 _ (by decide +kernel)
  all_goals decide +kernel

/-! ## Runs -/

theorem NoSharedResponse.addWaiters (h : NoSharedResponse registry) (key : Text) (n : UInt32) :
    NoSharedResponse (addWaiters hash registry key n) := by
  intro s j
  rw [addWaiters_table]
  exact h s j

theorem NoSharedResponse.followerStep (h : NoSharedResponse registry) {f : Follower}
    (hf : f.NotHanded) {lookups : LookupOutcomes} {next}
    (hstep : followerStep hash registry f lookups = some next) :
    NoSharedResponse next.1 ∧ next.2.NotHanded := by
  unfold Follower.NotHanded at hf
  unfold Coalescing.followerStep at hstep
  dsimp only at hstep
  cases hpc : f.pc <;> simp only [hpc] at hstep hf
  case start =>
    split at hstep
    next hent =>
      cases hstep
      refine ⟨h, ?_⟩
      rcases stageEntry_cases hent with rfl | rfl
      · exact show lit "cache-disabled-bypassed" ≠ _ by decide +kernel
      · exact show lit "guardrail-budget-exceeded" ≠ _ by decide +kernel
    · cases hstep
      exact ⟨h, trivial⟩
  case guardGlobal =>
    split at hstep
    · cases hstep
      exact ⟨h, show lit "guardrail-global-limit" ≠ _ by decide +kernel⟩
    · cases hstep
      exact ⟨h, trivial⟩
  case guardShard =>
    split at hstep
    · cases hstep
      exact ⟨h, show lit "guardrail-shard-limit" ≠ _ by decide +kernel⟩
    · cases hstep
      exact ⟨h, trivial⟩
  case l1Before =>
    split at hstep
    · cases hstep
      exact ⟨h, l1HitOutput_note⟩
    · cases hstep
      exact ⟨h, trivial⟩
  case enterWait =>
    cases hstep
    exact ⟨h.addWaiters f.key 1, trivial⟩
  case beginWait =>
    cases hstep
    cases hstart : Coalescing.waitStart hash registry f.key f.generation with
    | result =>
      exact ⟨h, waitStart_result (P := (· ≠ .sharedResponseReady)) (by decide) (by decide)
        (fun j _ => terminalResult_not_handed (h _ j)) hstart⟩
    | blocked => exact ⟨h, trivial⟩
  case blocked =>
    obtain ⟨result, hwake, hstep⟩ := map_eq_some_iff.mp hstep
    cases hstep
    exact ⟨h, waitWake_result (P := (· ≠ .sharedResponseReady)) (by decide) (by decide)
      (fun _ => terminalResult_not_handed (h _ _)) hwake⟩
  case exitWait =>
    obtain rfl := some.inj hstep
    exact ⟨h.addWaiters f.key (-1), hf⟩
  case woken =>
    cases hstep
    exact ⟨h, stageLeave_note hf lookups⟩
  case leaving =>
    split at hstep
    · cases hstep
      exact ⟨h, hf⟩
    · cases hstep
      exact ⟨h.removeWaiter f.key, hf⟩
  case done =>
    cases hstep

theorem followerTimeout_not_handed {f f' : Follower}
    (h : followerTimeout hash registry f = some f') : f'.NotHanded := by
  unfold followerTimeout at h
  split at h
  · split at h
    · cases h
      exact RegistryWaitResult.noConfusion
    · cases h
  · cases h

structure NothingHanded (s : CoalescingState) : Prop where
  registry : NoSharedResponse s.registry
  followers : ∀ f ∈ s.followers, f.NotHanded

theorem NothingHanded.step {s t : CoalescingState} (h : NothingHanded s) {a : CoalescingStep}
    (hstep : coalescingStep hash s a = some t) : NothingHanded t := by
  have hset : ∀ {i : Nat} {f : Follower}, f.NotHanded → ∀ g ∈ s.followers.set i f, g.NotHanded := by
    intro i f hf g hg
    rcases mem_or_eq_of_mem_set hg with hg | rfl
    · exact h.followers g hg
    · exact hf
  cases a with
  | request request =>
    have hregistry : NoSharedResponse (evaluateCoalescingDecision hash s.registry request).1 := by
      rcases evaluateCoalescingDecision_cases s.registry request with
        ⟨hsame, -⟩ | ⟨key, -, hdec⟩
      · rw [hsame]
        exact h.registry
      · rw [hdec]
        exact h.registry.register key _ _ _
    simp only [coalescingStep] at hstep
    split at hstep
    · cases hstep
      exact ⟨hregistry, forall_mem_append.mpr ⟨h.followers, forall_mem_singleton.mpr trivial⟩⟩
    · cases hstep
      exact ⟨hregistry, h.followers⟩
  | complete key generation state nowMs =>
    cases hstep
    exact ⟨h.registry.complete key generation state nowMs, h.followers⟩
  | follow =>
    obtain ⟨f, hi, hstep⟩ := bind_eq_some_iff.mp hstep
    obtain ⟨next, hfollow, hstep⟩ := map_eq_some_iff.mp hstep
    cases hstep
    obtain ⟨hregistry, hnext⟩ :=
      h.registry.followerStep (h.followers f (mem_of_getElem? hi)) hfollow
    exact ⟨hregistry, hset hnext⟩
  | timeout =>
    obtain ⟨f, hi, hstep⟩ := bind_eq_some_iff.mp hstep
    obtain ⟨f', htime, hstep⟩ := map_eq_some_iff.mp hstep
    cases hstep
    exact ⟨h.registry, hset (followerTimeout_not_handed htime)⟩

/-- Along every run no follower gets a response from the registry. -/
theorem nothingHanded_reachable {s : CoalescingState}
    (h : (coalescing hash).Reachable s) : NothingHanded s :=
  h.invariant ⟨fun _ _ => rfl, fun _ hf => absurd hf not_mem_nil⟩
    fun _ _ _ hs _ hstep => hs.step hstep

end ByteTaper.Coalescing
